import SchemaEvolution.Proofs.Diff.Comparisons
import SchemaEvolution.Proofs.SortedSet

/-!
What the comparison of an old with a new type goes through, and which names it follows. Two fields,
arguments or input fields meet if both types have one of that name. A field is followed in any case,
an argument or input field only if its reference stayed compatible, a union member if both unions
have it; nothing else is followed.
-/

namespace SchemaEvolution.Diff

section Meetings

variable (oldDocument newDocument : Document) (oldName newName : String)

/-- The lists of fields that the comparison of two types goes through, and who owns them: the two
types themselves, or an interface that both of them implement. -/
inductive MeetingFields : Owner → List Field → List Field → Prop
  | object {old new : ObjectType} :
      oldDocument.type? oldName = some (.object old) →
      newDocument.type? newName = some (.object new) →
      MeetingFields ⟨old.name, .object⟩ old.fields new.fields
  | interface {old new : InterfaceType} :
      oldDocument.type? oldName = some (.interface old) →
      newDocument.type? newName = some (.interface new) →
      MeetingFields ⟨old.name, .interface⟩ old.fields new.fields
  | implemented {old new : ObjectType} {name : String} {oldInterface newInterface : InterfaceType} :
      oldDocument.type? oldName = some (.object old) →
      newDocument.type? newName = some (.object new) →
      name ∈ old.interfaces → oldDocument.interface? name = some oldInterface →
      name ∈ new.interfaces → newDocument.interface? name = some newInterface →
      MeetingFields ⟨oldInterface.name, .interface⟩ oldInterface.fields newInterface.fields

def MeetingField (owner : Owner) (old new : Field) : Prop :=
  isExempt oldName = false ∧
    ∃ oldFields newFields name, MeetingFields oldDocument newDocument oldName newName owner
      oldFields newFields ∧
      (NameMap.index Field.name oldFields).get? name = some old ∧
      (NameMap.index Field.name newFields).get? name = some new

/-- An old and a new argument, or an old and a new input field, that the comparison of two types
goes through, and the place that it reports for them. Where arguments were lost by number, the
arguments do not meet. -/
inductive MeetingInput : Location → InputValue → InputValue → Prop
  | argument {owner : Owner} {oldField newField : Field} {name : String} {old new : InputValue} :
      MeetingField oldDocument newDocument oldName newName owner oldField newField →
      (NameMap.index InputValue.name oldField.arguments).size ≤
        (NameMap.index InputValue.name newField.arguments).size →
      (NameMap.index InputValue.name oldField.arguments).get? name = some old →
      (NameMap.index InputValue.name newField.arguments).get? name = some new →
      MeetingInput (owner.member oldField.name) old new
  | inputField {oldType newType : InputObjectType} {name : String} {old new : InputValue} :
      isExempt oldName = false →
      oldDocument.type? oldName = some (.inputObject oldType) →
      newDocument.type? newName = some (.inputObject newType) →
      (NameMap.index InputValue.name oldType.fields).get? name = some old →
      (NameMap.index InputValue.name newType.fields).get? name = some new →
      MeetingInput ⟨oldType.name, some name, some .inputObject⟩ old new

/-- The names that the comparison of two types leads to. -/
inductive LeadsTo : String → String → Prop
  | field {owner : Owner} {old new : Field} :
      MeetingField oldDocument newDocument oldName newName owner old new →
      LeadsTo old.type.name new.type.name
  | input {location : Location} {old new : InputValue} :
      MeetingInput oldDocument newDocument oldName newName location old new →
      old.type.mismatch new.type = none → LeadsTo old.type.name new.type.name
  | member {old new : UnionType} {name : String} :
      isExempt oldName = false →
      oldDocument.type? oldName = some (.union old) →
      newDocument.type? newName = some (.union new) →
      name ∈ old.members → name ∈ new.members → LeadsTo name name

end Meetings

/-! ### Scripts that lead nowhere -/

theorem follow_not_mem_directivesScript (options : Options) (location : Location)
    (old new : List Directive) (oldName newName : String) :
    .follow oldName newName ∉ directivesScript options location old new := by
  unfold directivesScript
  split
  · rw [NameMap.mem_flatMap_entries_iff]
    rintro ⟨name, directive, _, member⟩
    dsimp only at member
    split at member <;> simp at member
  · exact List.not_mem_nil

theorem follow_not_mem_defaultScript (location : Location) (subject : String)
    (old new : InputValue) (oldName newName : String) :
    .follow oldName newName ∉ defaultScript location subject old new := by
  intro member
  rcases List.mem_append.mp member with formChange | change
  · split at formChange
    · split at formChange <;> simp at formChange
    · cases formChange
  · split at change <;> simp at change

theorem follow_not_mem_enumScript (options : Options) (old new : EnumType)
    (oldName newName : String) :
    .follow oldName newName ∉ enumScript options old new := by
  intro member
  rcases List.mem_append.mp member with ofValues | onType
  · rcases List.mem_append.mp ofValues with kept | added
    · rw [NameMap.mem_flatMap_entries_iff] at kept
      obtain ⟨name, oldValue, _, inKept⟩ := kept
      dsimp only at inKept
      split at inKept
      · exact follow_not_mem_directivesScript _ _ _ _ _ _ inKept
      · simp at inKept
    · obtain ⟨name, _, inAdded⟩ := List.mem_flatMap.mp added
      split at inAdded <;> simp at inAdded
  · exact follow_not_mem_directivesScript _ _ _ _ _ _ onType

/-! ### Scripts within scripts -/

section Parts

variable {options : Options} {oldDocument newDocument : Document} {oldName newName : String}

theorem definitionScript_subset_script {old new : TypeDefinition}
    (compared : isExempt oldName = false) (oldFound : oldDocument.type? oldName = some old)
    (newFound : newDocument.type? newName = some new) :
    definitionScript options oldDocument newDocument oldName old new ⊆
      script options oldDocument newDocument oldName newName := by
  intro step member
  unfold script
  simp only [compared, Bool.false_eq_true, if_false, oldFound, newFound]
  exact List.mem_cons_of_mem _ member

theorem fieldsScript_subset_script {owner : Owner} {oldFields newFields : List Field}
    (compared : isExempt oldName = false)
    (meeting : MeetingFields oldDocument newDocument oldName newName owner oldFields newFields) :
    fieldsScript options owner oldFields newFields ⊆
      script options oldDocument newDocument oldName newName := by
  intro step member
  cases meeting with
  | object oldFound newFound =>
      apply definitionScript_subset_script compared oldFound newFound
      exact List.mem_append_left _ (List.mem_append_left _ member)
  | interface oldFound newFound =>
      apply definitionScript_subset_script compared oldFound newFound
      exact List.mem_append_left _ member
  | @implemented old new name oldInterface newInterface oldFound newFound inOld oldIs inNew newIs =>
      apply definitionScript_subset_script compared oldFound newFound
      have inImplemented : step ∈ implementedScript options oldDocument newDocument old new := by
        apply List.mem_flatMap.mpr
        refine ⟨name, (SortedSet.mem_elements_ofList name old.interfaces).mpr inOld, ?_⟩
        simp only [oldIs, inNew, if_true, newIs]
        exact List.mem_append_left _ member
      exact List.mem_append_left _ (List.mem_append_right _ inImplemented)

theorem fieldScript_subset_script {owner : Owner} {old new : Field}
    (meeting : MeetingField oldDocument newDocument oldName newName owner old new) :
    fieldScript options owner old new ⊆ script options oldDocument newDocument oldName newName := by
  obtain ⟨compared, oldFields, newFields, name, inFields, oldFound, newFound⟩ := meeting
  intro step member
  apply fieldsScript_subset_script compared inFields
  rw [fieldsScript, NameMap.mem_flatMap_entries_iff]
  refine ⟨name, old, oldFound, ?_⟩
  simp only [newFound]
  exact List.mem_cons_of_mem _ member

theorem argumentScript_subset_fieldScript {owner : Owner} {oldField newField : Field}
    {name : String} {old new : InputValue}
    (enough : (NameMap.index InputValue.name oldField.arguments).size ≤
      (NameMap.index InputValue.name newField.arguments).size)
    (oldFound : (NameMap.index InputValue.name oldField.arguments).get? name = some old)
    (newFound : (NameMap.index InputValue.name newField.arguments).get? name = some new) :
    argumentScript options owner oldField.name old new ⊆
      fieldScript options owner oldField newField := by
  intro step member
  have inArguments : step ∈ argumentsScript options owner oldField newField := by
    unfold argumentsScript
    simp only [if_neg (Nat.not_lt.mpr enough)]
    apply List.mem_append_left
    rw [NameMap.mem_flatMap_entries_iff]
    refine ⟨name, old, oldFound, ?_⟩
    simp only [newFound]
    exact List.mem_cons_of_mem _ member
  unfold fieldScript
  exact List.mem_append_left _ (List.mem_append_left _ (List.mem_append_right _ inArguments))

theorem inputFieldScript_subset_script {old new : InputObjectType} {name : String}
    {oldField newField : InputValue} (compared : isExempt oldName = false)
    (oldFound : oldDocument.type? oldName = some (.inputObject old))
    (newFound : newDocument.type? newName = some (.inputObject new))
    (oldHas : (NameMap.index InputValue.name old.fields).get? name = some oldField)
    (newHas : (NameMap.index InputValue.name new.fields).get? name = some newField) :
    inputFieldScript options ⟨old.name, .inputObject⟩ name oldField newField ⊆
      script options oldDocument newDocument oldName newName := by
  intro step member
  apply definitionScript_subset_script compared oldFound newFound
  apply List.mem_append_left
  apply List.mem_append_left
  rw [NameMap.mem_flatMap_entries_iff]
  refine ⟨name, oldField, oldHas, ?_⟩
  simpa only [newHas] using member

/-- The defaults of inputs that meet are compared, whatever became of their types. -/
theorem defaultScript_subset_script {location : Location} {old new : InputValue}
    (meeting : MeetingInput oldDocument newDocument oldName newName location old new) :
    ∃ subject, defaultScript location subject old new ⊆
      script options oldDocument newDocument oldName newName := by
  cases meeting with
  | @argument owner oldField newField name _ _ inField enough oldFound newFound =>
      refine ⟨s!"argument '{old.name}' on field '{oldField.name}'", fun step member => ?_⟩
      apply fieldScript_subset_script inField
      apply argumentScript_subset_fieldScript enough oldFound newFound
      exact List.mem_append_left _ (List.mem_append_right _ member)
  | @inputField oldType newType name _ _ compared oldFound newFound oldHas newHas =>
      refine ⟨s!"input field '{name}'", fun step member => ?_⟩
      apply inputFieldScript_subset_script compared oldFound newFound oldHas newHas
      apply List.mem_append_left
      apply List.mem_append_left
      exact List.mem_append_right _ member

theorem follow_mem_script_of_leadsTo {nextOld nextNew : String}
    (leads : LeadsTo oldDocument newDocument oldName newName nextOld nextNew) :
    .follow nextOld nextNew ∈ script options oldDocument newDocument oldName newName := by
  cases leads with
  | field meeting =>
      apply fieldScript_subset_script meeting
      exact List.mem_append_right _ (List.mem_singleton_self _)
  | @input location old new meeting compatible =>
      cases meeting with
      | argument inField enough oldFound newFound =>
          apply fieldScript_subset_script inField
          apply argumentScript_subset_fieldScript enough oldFound newFound
          unfold argumentScript
          simp only [compatible]
          exact List.mem_append_left _ (List.mem_append_left _ (List.mem_singleton_self _))
      | inputField compared oldFound newFound oldHas newHas =>
          apply inputFieldScript_subset_script compared oldFound newFound oldHas newHas
          unfold inputFieldScript
          simp only [compatible, Option.isNone_none, if_true]
          exact List.mem_append_right _ (List.mem_singleton_self _)
  | @member old new _ compared oldFound newFound inOld inNew =>
      apply definitionScript_subset_script compared oldFound newFound
      apply List.mem_append_right
      refine List.mem_map.mpr ⟨nextOld, ?_, rfl⟩
      exact List.mem_filter.mpr
        ⟨(SortedSet.mem_elements_ofList nextOld old.members).mpr inOld,
          decide_eq_true ((SortedSet.mem_elements_ofList nextOld new.members).mpr inNew)⟩

end Parts

/-! ### Where a followed name comes from -/

section Origins

variable {options : Options} {nextOld nextNew : String}

theorem follow_mem_argumentScript_iff (owner : Owner) (fieldName : String)
    (old new : InputValue) :
    .follow nextOld nextNew ∈ argumentScript options owner fieldName old new ↔
      old.type.mismatch new.type = none ∧ nextOld = old.type.name ∧ nextNew = new.type.name := by
  unfold argumentScript
  rw [List.mem_append, List.mem_append]
  simp only [follow_not_mem_defaultScript, follow_not_mem_directivesScript, or_false]
  cases old.type.mismatch new.type with
  | none => simp [followRefs]
  | some category => simp

theorem follow_mem_inputFieldScript_iff (owner : Owner) (name : String) (old new : InputValue) :
    .follow nextOld nextNew ∈ inputFieldScript options owner name old new ↔
      old.type.mismatch new.type = none ∧ nextOld = old.type.name ∧ nextNew = new.type.name := by
  unfold inputFieldScript
  simp only [List.mem_append, follow_not_mem_defaultScript, follow_not_mem_directivesScript,
    or_false]
  cases old.type.mismatch new.type with
  | none => simp [followRefs]
  | some category => simp

theorem argument_of_follow {owner : Owner} {old new : Field}
    (member : .follow nextOld nextNew ∈ argumentsScript options owner old new) :
    (NameMap.index InputValue.name old.arguments).size ≤
        (NameMap.index InputValue.name new.arguments).size ∧
      ∃ name oldArgument newArgument,
        (NameMap.index InputValue.name old.arguments).get? name = some oldArgument ∧
        (NameMap.index InputValue.name new.arguments).get? name = some newArgument ∧
        .follow nextOld nextNew ∈ argumentScript options owner old.name oldArgument newArgument := by
  unfold argumentsScript at member
  dsimp only at member
  split at member
  · simp at member
  · rename_i enough
    refine ⟨Nat.not_lt.mp enough, ?_⟩
    rw [List.mem_append, NameMap.mem_flatMap_entries_iff, NameMap.mem_flatMap_entries_iff]
      at member
    rcases member with ⟨name, oldArgument, oldFound, kept⟩ | ⟨name, newArgument, _, added⟩
    · dsimp only at kept
      split at kept
      · rename_i newArgument newFound
        exact ⟨name, oldArgument, newArgument, oldFound, newFound, by simpa using kept⟩
      · simp at kept
    · dsimp only at added
      split at added <;> simp at added

private theorem follow_mem_fieldScript {owner : Owner} {old new : Field}
    (member : .follow nextOld nextNew ∈ fieldScript options owner old new) :
    .follow nextOld nextNew ∈ argumentsScript options owner old new ∨
      (nextOld = old.type.name ∧ nextNew = new.type.name) := by
  unfold fieldScript at member
  simp only [List.mem_append, follow_not_mem_directivesScript, or_false, List.mem_singleton,
    followRefs, Step.follow.injEq] at member
  rcases member with (typeChange | inArguments) | atEnd
  · split at typeChange <;> simp at typeChange
  · exact Or.inl inArguments
  · exact Or.inr atEnd

private theorem field_of_follow {owner : Owner} {old new : List Field}
    (member : .follow nextOld nextNew ∈ fieldsScript options owner old new) :
    ∃ name oldField newField, (NameMap.index Field.name old).get? name = some oldField ∧
      (NameMap.index Field.name new).get? name = some newField ∧
      .follow nextOld nextNew ∈ fieldScript options owner oldField newField := by
  rw [fieldsScript, NameMap.mem_flatMap_entries_iff] at member
  obtain ⟨name, oldField, oldFound, inEntry⟩ := member
  dsimp only at inEntry
  split at inEntry
  · rename_i newField newFound
    exact ⟨name, oldField, newField, oldFound, newFound, by simpa using inEntry⟩
  · simp at inEntry

private theorem interface_of_follow {oldDocument newDocument : Document} {old new : ObjectType}
    (member : .follow nextOld nextNew ∈ implementedScript options oldDocument newDocument old new) :
    ∃ name oldInterface newInterface, name ∈ old.interfaces ∧
      oldDocument.interface? name = some oldInterface ∧ name ∈ new.interfaces ∧
      newDocument.interface? name = some newInterface ∧
      .follow nextOld nextNew ∈ interfaceScript options oldInterface newInterface := by
  obtain ⟨name, inOld, inEntry⟩ := List.mem_flatMap.mp member
  rw [SortedSet.mem_elements_ofList] at inOld
  split at inEntry
  · simp at inEntry
  · rename_i oldInterface oldIs
    split at inEntry
    · rename_i newInterface newIs
      split at newIs
      · rename_i inNew
        exact ⟨name, oldInterface, newInterface, inOld, oldIs, inNew, newIs, inEntry⟩
      · cases newIs
    · simp at inEntry

private theorem input_of_follow {old new : InputObjectType}
    (member : .follow nextOld nextNew ∈ inputObjectScript options old new) :
    ∃ name oldField newField, (NameMap.index InputValue.name old.fields).get? name = some oldField ∧
      (NameMap.index InputValue.name new.fields).get? name = some newField ∧
      .follow nextOld nextNew ∈
        inputFieldScript options ⟨old.name, .inputObject⟩ name oldField newField := by
  unfold inputObjectScript at member
  simp only [List.mem_append, follow_not_mem_directivesScript, or_false,
    NameMap.mem_flatMap_entries_iff] at member
  rcases member with ⟨name, oldField, oldFound, kept⟩ | ⟨name, newField, _, added⟩
  · split at kept
    · rename_i newField newFound
      exact ⟨name, oldField, newField, oldFound, newFound, kept⟩
    · simp at kept
  · split at added <;> simp at added

variable {oldDocument newDocument : Document} {oldName newName : String}

private theorem leadsTo_of_fields {owner : Owner} {oldFields newFields : List Field}
    (compared : isExempt oldName = false)
    (meeting : MeetingFields oldDocument newDocument oldName newName owner oldFields newFields)
    (member : .follow nextOld nextNew ∈ fieldsScript options owner oldFields newFields) :
    LeadsTo oldDocument newDocument oldName newName nextOld nextNew := by
  obtain ⟨name, oldField, newField, oldFound, newFound, inField⟩ := field_of_follow member
  have fieldsMeet : MeetingField oldDocument newDocument oldName newName owner oldField newField :=
    ⟨compared, oldFields, newFields, name, meeting, oldFound, newFound⟩
  rcases follow_mem_fieldScript inField with inArguments | ⟨rfl, rfl⟩
  · obtain ⟨enough, argument, oldArgument, newArgument, oldHas, newHas, inArgument⟩ :=
      argument_of_follow inArguments
    obtain ⟨compatible, rfl, rfl⟩ := (follow_mem_argumentScript_iff _ _ _ _).mp inArgument
    exact LeadsTo.input (MeetingInput.argument fieldsMeet enough oldHas newHas) compatible
  · exact LeadsTo.field fieldsMeet

private theorem leadsTo_of_definitions {old new : TypeDefinition}
    (compared : isExempt oldName = false) (oldFound : oldDocument.type? oldName = some old)
    (newFound : newDocument.type? newName = some new)
    (member : .follow nextOld nextNew ∈
      definitionScript options oldDocument newDocument oldName old new) :
    LeadsTo oldDocument newDocument oldName newName nextOld nextNew := by
  unfold definitionScript at member
  split at member
  · rename_i old new
    simp only [objectScript, List.mem_append, follow_not_mem_directivesScript, or_false] at member
    rcases member with inFields | inImplemented
    · exact leadsTo_of_fields compared (MeetingFields.object oldFound newFound) inFields
    · obtain ⟨name, oldInterface, newInterface, inOld, oldIs, inNew, newIs, inInterface⟩ :=
        interface_of_follow inImplemented
      simp only [interfaceScript, List.mem_append, follow_not_mem_directivesScript, or_false]
        at inInterface
      exact leadsTo_of_fields compared
        (MeetingFields.implemented oldFound newFound inOld oldIs inNew newIs) inInterface
  · simp only [interfaceScript, List.mem_append, follow_not_mem_directivesScript, or_false]
      at member
    exact leadsTo_of_fields compared (MeetingFields.interface oldFound newFound) member
  · simp only [unionScript, List.mem_append, follow_not_mem_directivesScript, or_false,
      List.mem_map, reduceCtorEq, and_false, exists_false, false_or, Step.follow.injEq,
      List.mem_filter, decide_eq_true_eq, SortedSet.mem_elements_ofList] at member
    obtain ⟨name, ⟨inOld, inNew⟩, rfl, rfl⟩ := member
    exact LeadsTo.member compared oldFound newFound inOld inNew
  · exact absurd member (follow_not_mem_enumScript _ _ _ _ _)
  · obtain ⟨name, oldField, newField, oldHas, newHas, inField⟩ := input_of_follow member
    obtain ⟨compatible, rfl, rfl⟩ := (follow_mem_inputFieldScript_iff _ _ _ _).mp inField
    exact LeadsTo.input (MeetingInput.inputField compared oldFound newFound oldHas newHas) compatible
  · exact absurd member (follow_not_mem_directivesScript _ _ _ _ _ _)
  · simp at member

/-- A script follows exactly the names that the comparison leads to, whatever the options. -/
theorem follow_mem_script_iff :
    .follow nextOld nextNew ∈ script options oldDocument newDocument oldName newName ↔
      LeadsTo oldDocument newDocument oldName newName nextOld nextNew := by
  refine ⟨fun member => ?_, follow_mem_script_of_leadsTo⟩
  unfold script at member
  split at member
  · cases member
  · rename_i notExempt
    have compared : isExempt oldName = false := Bool.eq_false_iff.mpr notExempt
    split at member
    · simp at member
    · rename_i old oldFound
      simp only [List.mem_cons, reduceCtorEq, false_or] at member
      split at member
      · simp at member
      · rename_i new newFound
        exact leadsTo_of_definitions compared oldFound newFound member

end Origins

/-! ### Which names a comparison of two schemas turns to -/

theorem interface?_eq_some_iff (document : Document) (name : String) (type : InterfaceType) :
    document.interface? name = some type ↔ document.type? name = some (.interface type) := by
  unfold Document.interface?
  split
  · rename_i found
    simp [found]
  · rename_i other
    constructor
    · intro impossible
      cases impossible
    · intro found
      exact absurd found (other type)

theorem mem_mentions_iff (document : Document) (name : String) :
    name ∈ document.mentions ↔ (∃ operation, document.root? operation = some name) ∨
      ∃ key definition, document.type? key = some definition ∧ name ∈ definition.mentions := by
  simp only [Document.mentions, List.mem_eraseDups, List.mem_append, List.mem_filterMap,
    List.mem_flatMap, mem_allOperations, true_and]
  refine or_congr_right ⟨?_, ?_⟩
  · rintro ⟨definition, inValues, mentioned⟩
    obtain ⟨key, found⟩ := NameMap.exists_get?_of_mem_values inValues
    exact ⟨key, definition, found, mentioned⟩
  · rintro ⟨key, definition, found, mentioned⟩
    exact ⟨definition, NameMap.mem_values_of_get? found, mentioned⟩

theorem mem_mentions_of_root? {document : Document} {operation : OperationType} {name : String}
    (root : document.root? operation = some name) : name ∈ document.mentions :=
  (mem_mentions_iff document name).mpr (Or.inl ⟨operation, root⟩)

theorem mem_mentions_of_type? {document : Document} {name mentioned : String}
    {definition : TypeDefinition} (found : document.type? name = some definition)
    (member : mentioned ∈ definition.mentions) : mentioned ∈ document.mentions :=
  (mem_mentions_iff document mentioned).mpr (Or.inr ⟨name, definition, found, member⟩)

section Mentioned

variable {oldDocument newDocument : Document} {oldName newName nextOld nextNew : String}

theorem MeetingField.mem_mentions {owner : Owner} {old new : Field} {mentioned : String}
    (meeting : MeetingField oldDocument newDocument oldName newName owner old new)
    (member : mentioned ∈ old.mentions) : mentioned ∈ oldDocument.mentions := by
  obtain ⟨_, oldFields, newFields, name, inFields, oldFound, _⟩ := meeting
  have inOld : mentioned ∈ oldFields.flatMap Field.mentions :=
    List.mem_flatMap.mpr ⟨old, NameMap.mem_of_get?_index oldFound, member⟩
  cases inFields with
  | object found _ => exact mem_mentions_of_type? found inOld
  | interface found _ => exact mem_mentions_of_type? found inOld
  | implemented _ _ _ oldIs _ _ =>
      exact mem_mentions_of_type? ((interface?_eq_some_iff _ _ _).mp oldIs) inOld

theorem LeadsTo.mem_mentions
    (leads : LeadsTo oldDocument newDocument oldName newName nextOld nextNew) :
    nextOld ∈ oldDocument.mentions := by
  cases leads with
  | field meeting => exact meeting.mem_mentions List.mem_cons_self
  | input meeting compatible =>
      cases meeting with
      | argument inField _ oldFound _ =>
          apply inField.mem_mentions
          apply List.mem_cons_of_mem
          exact List.mem_map.mpr ⟨_, NameMap.mem_of_get?_index oldFound, rfl⟩
      | inputField _ oldFound _ oldHas _ =>
          apply mem_mentions_of_type? oldFound
          exact List.mem_map.mpr ⟨_, NameMap.mem_of_get?_index oldHas, rfl⟩
  | member _ oldFound _ inOld _ => exact mem_mentions_of_type? oldFound inOld

variable {options : Options}

theorem exists_comparison_of_roots {operation : OperationType}
    (oldRoot : oldDocument.root? operation = some oldName)
    (newRoot : newDocument.root? operation = some newName)
    (defined : (oldDocument.type? oldName).isSome) :
    ∃ other, (oldName, other) ∈ comparisons options oldDocument newDocument :=
  exists_visit_of_mem_agenda
    ((follow_mem_operationsScript_iff _ _ _ _).mpr ⟨operation, oldRoot, newRoot, defined⟩)
    (mem_mentions_of_root? oldRoot)

theorem exists_comparison_of_leadsTo
    (compared : (oldName, newName) ∈ comparisons options oldDocument newDocument)
    (leads : LeadsTo oldDocument newDocument oldName newName nextOld nextNew) :
    ∃ other, (nextOld, other) ∈ comparisons options oldDocument newDocument :=
  exists_visit_of_mem_script compared (follow_mem_script_iff.mpr leads) leads.mem_mentions

/-- Two names are compared because they are roots of one operation, or because a comparison led to
them. -/
theorem origin_of_mem_comparisons
    (compared : (oldName, newName) ∈ comparisons options oldDocument newDocument) :
    (∃ operation, oldDocument.root? operation = some oldName ∧
        newDocument.root? operation = some newName ∧ (oldDocument.type? oldName).isSome) ∨
      ∃ pair ∈ comparisons options oldDocument newDocument,
        LeadsTo oldDocument newDocument pair.1 pair.2 oldName newName := by
  rcases origin_of_mem_visits compared with atStart | ⟨pair, earlier, follows⟩
  · exact Or.inl ((follow_mem_operationsScript_iff _ _ _ _).mp atStart)
  · exact Or.inr ⟨pair, earlier, follow_mem_script_iff.mp follows⟩

end Mentioned

end SchemaEvolution.Diff
