import Mathlib.Tactic.MkIffOfInductiveProp
import SchemaEvolution.Proofs.Diff.Steps
import SchemaEvolution.Proofs.SortedSet

/-!
What a new definition has to keep of an old one, said without a walk or a report: for each kind of
definition, which members stay and in which way they may change. The script of two definitions is
quiet exactly if the new one keeps the old one and the old interfaces are interfaces.
-/

namespace SchemaEvolution.Diff

/-- Every old item still has an item of its name, in the relation `kept` to it. Of several items of
one name the last counts. -/
def KeptByName {α : Type} (name : α → String) (kept : α → α → Prop) (old new : List α) : Prop :=
  ∀ key oldItem, (NameMap.index name old).get? key = some oldItem →
    ∃ newItem, (NameMap.index name new).get? key = some newItem ∧ kept oldItem newItem

def KeepsArguments (old new : Directive) : Prop :=
  ∀ argument value, old.arguments.get? argument = some value →
    ∃ newValue, new.arguments.get? argument = some newValue ∧ newValue.kind = value.kind

def KeepsDirectives (options : Options) (old new : List Directive) : Prop :=
  options.enforceDirectives = true → KeptByName Directive.name KeepsArguments old new

@[mk_iff]
structure KeepsInput (options : Options) (old new : InputValue) : Prop where
  type : old.type.mismatch new.type = none
  defaultKind : ∀ oldValue newValue, old.defaultValue? = some oldValue →
    new.defaultValue? = some newValue → oldValue.kind = newValue.kind
  directives : KeepsDirectives options old.directives new.directives

/-- Arguments or input fields: the old ones are kept, and callers need not supply a new one. -/
@[mk_iff]
structure KeepsInputs (options : Options) (old new : List InputValue) : Prop where
  kept : KeptByName InputValue.name (KeepsInput options) old new
  added : ∀ name input, (NameMap.index InputValue.name new).get? name = some input →
    (NameMap.index InputValue.name old).get? name = none → input.isRequired = false

@[mk_iff]
structure KeepsField (options : Options) (old new : Field) : Prop where
  type : old.type.mismatch new.type = none
  arguments : KeepsInputs options old.arguments new.arguments
  directives : KeepsDirectives options old.directives new.directives

@[mk_iff]
structure KeepsInterface (options : Options) (old new : InterfaceType) : Prop where
  fields : KeptByName Field.name (KeepsField options) old.fields new.fields
  directives : KeepsDirectives options old.directives new.directives

@[mk_iff]
structure KeepsObject (options : Options) (oldDocument newDocument : Document)
    (old new : ObjectType) : Prop where
  fields : KeptByName Field.name (KeepsField options) old.fields new.fields
  interfaces : ∀ name ∈ old.interfaces, ∀ oldInterface,
    oldDocument.interface? name = some oldInterface → name ∈ new.interfaces ∧
      ∃ newInterface, newDocument.interface? name = some newInterface ∧
        KeepsInterface options oldInterface newInterface
  directives : KeepsDirectives options old.directives new.directives

@[mk_iff]
structure KeepsUnion (options : Options) (old new : UnionType) : Prop where
  members : ∀ member ∈ old.members, member ∈ new.members
  directives : KeepsDirectives options old.directives new.directives

@[mk_iff]
structure KeepsEnum (options : Options) (old new : EnumType) : Prop where
  values : KeptByName EnumValue.name
    (fun oldValue newValue => KeepsDirectives options oldValue.directives newValue.directives)
    old.values new.values
  directives : KeepsDirectives options old.directives new.directives

@[mk_iff]
structure KeepsInputObject (options : Options) (old new : InputObjectType) : Prop where
  fields : KeepsInputs options old.fields new.fields
  directives : KeepsDirectives options old.directives new.directives

/-- The two definitions are of one kind, and the new one keeps what clients of the old one use. -/
def KeepsDefinition (options : Options) (oldDocument newDocument : Document) :
    (old new : TypeDefinition) → Prop
  | .object old, .object new => KeepsObject options oldDocument newDocument old new
  | .interface old, .interface new => KeepsInterface options old new
  | .union old, .union new => KeepsUnion options old new
  | .enum old, .enum new => KeepsEnum options old new
  | .inputObject old, .inputObject new => KeepsInputObject options old new
  | .scalar old, .scalar new => KeepsDirectives options old.directives new.directives
  | _, _ => False

def ResolvesInterfaces (document : Document) : TypeDefinition → Prop
  | .object type => ∀ name ∈ type.interfaces, (document.interface? name).isSome
  | _ => True

/-! ### Items kept by name -/

section ByName

variable {α : Type} {name : α → String} {kept : α → α → Prop} {old new : List α}

theorem KeptByName.size_le (all : KeptByName name kept old new) :
    (NameMap.index name old).size ≤ (NameMap.index name new).size := by
  apply NameMap.size_le_of_names
  intro key oldItem oldFound
  obtain ⟨newItem, newFound, _⟩ := all key oldItem oldFound
  exact ⟨newItem, newFound⟩

theorem KeptByName.refl (same : ∀ item, kept item item) (items : List α) :
    KeptByName name kept items items :=
  fun _ item found => ⟨item, found, same item⟩

theorem KeptByName.mono {less : α → α → Prop} (all : KeptByName name kept old new)
    (weaker : ∀ oldItem newItem, kept oldItem newItem → less oldItem newItem) :
    KeptByName name less old new := by
  intro key oldItem oldFound
  obtain ⟨newItem, newFound, keptItem⟩ := all key oldItem oldFound
  exact ⟨newItem, newFound, weaker oldItem newItem keptItem⟩

theorem KeptByName.trans {middle : List α} (toMiddle : KeptByName name kept old middle)
    (toNew : KeptByName name kept middle new)
    (compose : ∀ oldItem ∈ old, ∀ middleItem ∈ middle, ∀ newItem, kept oldItem middleItem →
      kept middleItem newItem → kept oldItem newItem) : KeptByName name kept old new := by
  intro key oldItem oldFound
  obtain ⟨middleItem, middleFound, keptFirst⟩ := toMiddle key oldItem oldFound
  obtain ⟨newItem, newFound, keptThen⟩ := toNew key middleItem middleFound
  exact ⟨newItem, newFound, compose oldItem (NameMap.mem_of_get?_index oldFound) middleItem
    (NameMap.mem_of_get?_index middleFound) newItem keptFirst keptThen⟩

end ByName

section Kinds

variable {options : Options} {oldDocument newDocument : Document} {new : TypeDefinition}

theorem KeepsDefinition.of_object {old : ObjectType}
    (kept : KeepsDefinition options oldDocument newDocument (.object old) new) :
    ∃ type, new = .object type ∧ KeepsObject options oldDocument newDocument old type := by
  cases new with
  | object type => exact ⟨type, rfl, kept⟩
  | interface _ | union _ | enum _ | scalar _ | inputObject _ => exact kept.elim

theorem KeepsDefinition.of_interface {old : InterfaceType}
    (kept : KeepsDefinition options oldDocument newDocument (.interface old) new) :
    ∃ type, new = .interface type ∧ KeepsInterface options old type := by
  cases new with
  | interface type => exact ⟨type, rfl, kept⟩
  | object _ | union _ | enum _ | scalar _ | inputObject _ => exact kept.elim

theorem KeepsDefinition.of_union {old : UnionType}
    (kept : KeepsDefinition options oldDocument newDocument (.union old) new) :
    ∃ type, new = .union type ∧ KeepsUnion options old type := by
  cases new with
  | union type => exact ⟨type, rfl, kept⟩
  | object _ | interface _ | enum _ | scalar _ | inputObject _ => exact kept.elim

theorem KeepsDefinition.of_enum {old : EnumType}
    (kept : KeepsDefinition options oldDocument newDocument (.enum old) new) :
    ∃ type, new = .enum type ∧ KeepsEnum options old type := by
  cases new with
  | enum type => exact ⟨type, rfl, kept⟩
  | object _ | interface _ | union _ | scalar _ | inputObject _ => exact kept.elim

theorem KeepsDefinition.of_scalar {old : ScalarType}
    (kept : KeepsDefinition options oldDocument newDocument (.scalar old) new) :
    ∃ type, new = .scalar type ∧ KeepsDirectives options old.directives type.directives := by
  cases new with
  | scalar type => exact ⟨type, rfl, kept⟩
  | object _ | interface _ | union _ | enum _ | inputObject _ => exact kept.elim

theorem KeepsDefinition.of_inputObject {old : InputObjectType}
    (kept : KeepsDefinition options oldDocument newDocument (.inputObject old) new) :
    ∃ type, new = .inputObject type ∧ KeepsInputObject options old type := by
  cases new with
  | inputObject type => exact ⟨type, rfl, kept⟩
  | object _ | interface _ | union _ | enum _ | scalar _ => exact kept.elim

end Kinds

/-! ### Scripts that are quiet -/

/-- The loop over old members: it is quiet if it is quiet where a new member is found and nothing is
missing. -/
theorem quiet_iff_keptByName {α : Type} {name : α → String} {kept : α → α → Prop}
    {old new : List α} {steps : String × α → List Step}
    (present : ∀ key oldItem newItem, (NameMap.index name new).get? key = some newItem →
      (Quiet (steps (key, oldItem)) ↔ kept oldItem newItem))
    (absent : ∀ key oldItem, (NameMap.index name new).get? key = none →
      ¬Quiet (steps (key, oldItem))) :
    Quiet ((NameMap.index name old).entries.flatMap steps) ↔ KeptByName name kept old new := by
  rw [quiet_flatMap_entries_iff]
  refine forall_congr' fun key => forall_congr' fun oldItem => forall_congr' fun _ => ?_
  cases newFound : (NameMap.index name new).get? key with
  | none =>
      constructor
      · intro quiet
        exact absurd quiet (absent key oldItem newFound)
      · rintro ⟨newItem, impossible, _⟩
        cases impossible
  | some newItem =>
      rw [present key oldItem newItem newFound]
      simp only [Option.some.injEq, exists_eq_left']

theorem quiet_directiveArguments_iff (location : Location) (name : String) (old new : Directive) :
    Quiet ((directiveArgumentEvents location name old new).map .report) ↔
      KeepsArguments old new := by
  rw [quiet_map_iff, directiveArgumentEvents]
  split
  · rename_i fewer
    constructor
    · intro quiet
      exact absurd (quiet _ (List.mem_singleton_self _)) Bool.noConfusion
    · intro kept
      have enough : old.arguments.size ≤ new.arguments.size := by
        apply NameMap.size_le_of_names
        intro argument value found
        obtain ⟨newValue, newFound, _⟩ := kept argument value found
        exact ⟨newValue, newFound⟩
      omega
  · rw [List.forall_mem_flatMap]
    simp only [Prod.forall, NameMap.mem_entries_iff]
    refine forall_congr' fun argument => forall_congr' fun value => forall_congr' fun _ => ?_
    cases new.arguments.get? argument with
    | none => simp
    | some newValue =>
        by_cases same : newValue.kind = value.kind
        · simp [same]
        · simp [same]

theorem quiet_directivesScript_iff (options : Options) (location : Location)
    (old new : List Directive) :
    Quiet (directivesScript options location old new) ↔ KeepsDirectives options old new := by
  unfold directivesScript KeepsDirectives
  split
  · rename_i enforced
    rw [imp_iff_right enforced]
    apply quiet_iff_keptByName
    · intro name oldDirective newDirective newFound
      simp only [newFound]
      exact quiet_directiveArguments_iff location name oldDirective newDirective
    · intro name oldDirective newFound
      simp [newFound]
  · rename_i notEnforced
    simp [notEnforced]

theorem quiet_defaultScript_iff (location : Location) (subject : String) (old new : InputValue) :
    Quiet (defaultScript location subject old new) ↔
      ∀ oldValue newValue, old.defaultValue? = some oldValue →
        new.defaultValue? = some newValue → oldValue.kind = newValue.kind := by
  unfold defaultScript
  rw [quiet_append]
  have changeQuiet (reason : String) :
      Quiet (if old.defaultValue? = new.defaultValue? then []
        else [Step.report (.dangerous .different location [old.name] reason)]) := by
    split <;> simp
  rw [and_iff_left (changeQuiet _)]
  cases old.defaultValue? with
  | none => simp
  | some oldValue =>
      cases new.defaultValue? with
      | none => simp
      | some newValue =>
          by_cases same : oldValue.kind = newValue.kind
          · simp [same]
          · simp [same]

theorem quiet_argumentScript_iff (options : Options) (owner : Owner) (fieldName : String)
    (old new : InputValue) :
    Quiet (argumentScript options owner fieldName old new) ↔ KeepsInput options old new := by
  unfold argumentScript
  rw [quiet_append, quiet_append, quiet_defaultScript_iff, quiet_directivesScript_iff]
  cases compatible : old.type.mismatch new.type with
  | none =>
      constructor
      · rintro ⟨⟨_, defaultKind⟩, directives⟩
        exact ⟨compatible, defaultKind, directives⟩
      · intro kept
        exact ⟨⟨by simp [followRefs], kept.defaultKind⟩, kept.directives⟩
  | some category =>
      constructor
      · rintro ⟨⟨loud, _⟩, _⟩
        simp at loud
      · intro kept
        rw [kept.type] at compatible
        cases compatible

theorem quiet_inputFieldScript_iff (options : Options) (owner : Owner) (name : String)
    (old new : InputValue) :
    Quiet (inputFieldScript options owner name old new) ↔ KeepsInput options old new := by
  unfold inputFieldScript
  rw [quiet_append, quiet_append, quiet_append, quiet_defaultScript_iff,
    quiet_directivesScript_iff]
  cases compatible : old.type.mismatch new.type with
  | none =>
      constructor
      · rintro ⟨⟨⟨_, defaultKind⟩, directives⟩, _⟩
        exact ⟨compatible, defaultKind, directives⟩
      · intro kept
        exact ⟨⟨⟨by simp, kept.defaultKind⟩, kept.directives⟩, by simp [followRefs]⟩
  | some category =>
      constructor
      · rintro ⟨⟨⟨loud, _⟩, _⟩, _⟩
        simp at loud
      · intro kept
        rw [kept.type] at compatible
        cases compatible

private theorem quiet_demand_iff (present required : Bool) (category : Category)
    (location : Location) (components : List String) (reason : String) :
    Quiet (if !present && required then
        [Step.report (.breaking category location components reason)] else []) ↔
      (present = false → required = false) := by
  cases present <;> cases required <;> simp

/-- The loop over new inputs, for arguments as for input fields. -/
theorem quiet_iff_added {old new : List InputValue} {steps : String × InputValue → List Step}
    (demand : ∀ name input, Quiet (steps (name, input)) ↔
      ((NameMap.index InputValue.name old).contains name = false → input.isRequired = false)) :
    Quiet ((NameMap.index InputValue.name new).entries.flatMap steps) ↔
      ∀ name input, (NameMap.index InputValue.name new).get? name = some input →
        (NameMap.index InputValue.name old).get? name = none → input.isRequired = false := by
  rw [quiet_flatMap_entries_iff]
  refine forall_congr' fun name => forall_congr' fun input => forall_congr' fun _ => ?_
  rw [demand, NameMap.contains_eq_false_iff]

theorem quiet_argumentsScript_iff (options : Options) (owner : Owner) (old new : Field) :
    Quiet (argumentsScript options owner old new) ↔
      KeepsInputs options old.arguments new.arguments := by
  unfold argumentsScript
  dsimp only
  split
  · rename_i fewer
    constructor
    · intro loud
      simp at loud
    · intro kept
      have enough := kept.kept.size_le
      omega
  · rw [quiet_append, keepsInputs_iff]
    apply and_congr
    · apply quiet_iff_keptByName
      · intro name oldArgument newArgument newFound
        simp only [newFound, quiet_cons, isQuiet_progress, true_and]
        exact quiet_argumentScript_iff options owner old.name oldArgument newArgument
      · intro name oldArgument newFound
        simp [newFound]
    · exact quiet_iff_added fun _ _ => quiet_demand_iff _ _ _ _ _ _

theorem quiet_fieldScript_iff (options : Options) (owner : Owner) (old new : Field) :
    Quiet (fieldScript options owner old new) ↔ KeepsField options old new := by
  unfold fieldScript
  simp only [quiet_append, quiet_argumentsScript_iff, quiet_directivesScript_iff, quiet_cons,
    quiet_nil, followRefs, isQuiet_follow, and_true, keepsField_iff, and_assoc]
  apply and_congr_left'
  cases old.type.mismatch new.type with
  | none => simp
  | some category => simp

theorem quiet_fieldsScript_iff (options : Options) (owner : Owner) (old new : List Field) :
    Quiet (fieldsScript options owner old new) ↔
      KeptByName Field.name (KeepsField options) old new := by
  apply quiet_iff_keptByName
  · intro name oldField newField newFound
    simp only [newFound, quiet_cons, isQuiet_progress, true_and]
    exact quiet_fieldScript_iff options owner oldField newField
  · intro name oldField newFound
    simp [newFound]

theorem quiet_interfaceScript_iff (options : Options) (old new : InterfaceType) :
    Quiet (interfaceScript options old new) ↔ KeepsInterface options old new := by
  simp only [interfaceScript, quiet_append, quiet_fieldsScript_iff, quiet_directivesScript_iff,
    keepsInterface_iff]

theorem quiet_implementedScript_iff (options : Options) (oldDocument newDocument : Document)
    (old new : ObjectType) :
    Quiet (implementedScript options oldDocument newDocument old new) ↔
      ∀ name ∈ old.interfaces, ∃ oldInterface,
        oldDocument.interface? name = some oldInterface ∧ name ∈ new.interfaces ∧
          ∃ newInterface, newDocument.interface? name = some newInterface ∧
            KeepsInterface options oldInterface newInterface := by
  unfold implementedScript
  rw [quiet_flatMap_iff]
  simp only [SortedSet.mem_elements_ofList]
  refine forall_congr' fun name => forall_congr' fun _ => ?_
  cases oldDocument.interface? name with
  | none => simp
  | some oldInterface =>
      by_cases inNew : name ∈ new.interfaces
      · cases newDocument.interface? name with
        | none => simp [inNew]
        | some newInterface => simp [inNew, quiet_interfaceScript_iff]
      · simp [inNew]

theorem quiet_objectScript_iff (options : Options) (oldDocument newDocument : Document)
    (old new : ObjectType) :
    Quiet (objectScript options oldDocument newDocument old new) ↔
      ResolvesInterfaces oldDocument (.object old) ∧
        KeepsObject options oldDocument newDocument old new := by
  simp only [objectScript, quiet_append, quiet_fieldsScript_iff, quiet_implementedScript_iff,
    quiet_directivesScript_iff]
  constructor
  · rintro ⟨⟨fields, implemented⟩, directives⟩
    refine ⟨fun name inOld => ?_, fields, fun name inOld oldInterface oldIs => ?_, directives⟩
    · obtain ⟨oldInterface, oldIs, _⟩ := implemented name inOld
      exact Option.isSome_iff_exists.mpr ⟨oldInterface, oldIs⟩
    · obtain ⟨other, otherIs, kept⟩ := implemented name inOld
      rw [oldIs] at otherIs
      cases otherIs
      exact kept
  · rintro ⟨resolved, kept⟩
    refine ⟨⟨kept.fields, fun name inOld => ?_⟩, kept.directives⟩
    obtain ⟨oldInterface, oldIs⟩ := Option.isSome_iff_exists.mp (resolved name inOld)
    exact ⟨oldInterface, oldIs, kept.interfaces name inOld oldInterface oldIs⟩

theorem quiet_unionScript_iff (options : Options) (old new : UnionType) :
    Quiet (unionScript options old new) ↔ KeepsUnion options old new := by
  unfold unionScript
  simp only [quiet_append, quiet_directivesScript_iff, keepsUnion_iff]
  have addedQuiet (members : List String) (location : Location) (reason : String → String) :
      Quiet (members.map fun member =>
        Step.report (.dangerous .addition location [member] (reason member))) := by
    simp [Quiet]
  have sharedQuiet (members : List String) :
      Quiet (members.map fun member => Step.follow member member) := by
    simp [Quiet]
  rw [and_iff_left (sharedQuiet _), and_iff_left (addedQuiet _ _ _)]
  apply and_congr_left'
  simp [quiet_map_iff, SortedSet.mem_elements_ofList]

theorem quiet_enumScript_iff (options : Options) (old new : EnumType) :
    Quiet (enumScript options old new) ↔ KeepsEnum options old new := by
  unfold enumScript
  simp only [quiet_append, quiet_directivesScript_iff, keepsEnum_iff]
  apply and_congr_left'
  rw [and_iff_left]
  · apply quiet_iff_keptByName
    · intro name oldValue newValue newFound
      simp only [newFound]
      exact quiet_directivesScript_iff options _ oldValue.directives newValue.directives
    · intro name oldValue newFound
      simp [newFound]
  · rw [quiet_flatMap_iff]
    intro name _
    split <;> simp

theorem quiet_inputObjectScript_iff (options : Options) (old new : InputObjectType) :
    Quiet (inputObjectScript options old new) ↔ KeepsInputObject options old new := by
  unfold inputObjectScript
  simp only [quiet_append, quiet_directivesScript_iff, keepsInputObject_iff, keepsInputs_iff]
  apply and_congr_left'
  apply and_congr
  · apply quiet_iff_keptByName
    · intro name oldField newField newFound
      simp only [newFound]
      exact quiet_inputFieldScript_iff options _ name oldField newField
    · intro name oldField newFound
      simp [newFound]
  · exact quiet_iff_added fun _ _ => quiet_demand_iff _ _ _ _ _ _

theorem quiet_definitionScript_iff (options : Options) (oldDocument newDocument : Document)
    (name : String) (old new : TypeDefinition) :
    Quiet (definitionScript options oldDocument newDocument name old new) ↔
      ResolvesInterfaces oldDocument old ∧
        KeepsDefinition options oldDocument newDocument old new := by
  cases old <;> cases new
  case object.object old new => exact quiet_objectScript_iff options oldDocument newDocument old new
  case interface.interface old new =>
    exact (quiet_interfaceScript_iff options old new).trans (true_and _).symm.to_iff
  case union.union old new =>
    exact (quiet_unionScript_iff options old new).trans (true_and _).symm.to_iff
  case enum.enum old new =>
    exact (quiet_enumScript_iff options old new).trans (true_and _).symm.to_iff
  case inputObject.inputObject old new =>
    exact (quiet_inputObjectScript_iff options old new).trans (true_and _).symm.to_iff
  case scalar.scalar old new =>
    exact (quiet_directivesScript_iff options _ old.directives new.directives).trans
      (true_and _).symm.to_iff
  all_goals simp [definitionScript, KeepsDefinition]

/-- The script of two names is quiet exactly if the old name is exempt or undefined, or else the new
definition keeps the old one. -/
theorem quiet_script_iff (options : Options) (oldDocument newDocument : Document)
    (oldName newName : String) :
    Quiet (script options oldDocument newDocument oldName newName) ↔
      ∀ old, isExempt oldName = false → oldDocument.type? oldName = some old →
        ResolvesInterfaces oldDocument old ∧
          ∃ new, newDocument.type? newName = some new ∧
            KeepsDefinition options oldDocument newDocument old new := by
  unfold script
  cases isExempt oldName with
  | true => simp
  | false =>
      cases oldDocument.type? oldName with
      | none => simp
      | some old =>
          cases newDocument.type? newName with
          | none => simp
          | some new => simp [quiet_definitionScript_iff]

end SchemaEvolution.Diff
