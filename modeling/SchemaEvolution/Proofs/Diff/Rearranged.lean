import SchemaEvolution.Proofs.Diff.Comparisons
import SchemaEvolution.Proofs.Diff.Reachable
import SchemaEvolution.Proofs.Rearranged
import SchemaEvolution.Proofs.SortedSet

/-!
The order of declarations does not matter to a comparison. All scripts take members from indexes and
sorted sets, so they are the same lists of steps for schemas that declare the same in another order;
and two walks that carry out the same scripts report the same.
-/

namespace SchemaEvolution

namespace Diff

variable (options : Options)

theorem directivesScript_congr (location : Location) {old oldAfter new newAfter : List Directive}
    (oldSame : Rearranges Directive.name Eq old oldAfter)
    (newSame : Rearranges Directive.name Eq new newAfter) :
    directivesScript options location old new =
      directivesScript options location oldAfter newAfter := by
  unfold directivesScript
  rw [oldSame.index_eq, newSame.index_eq]

section Inputs

variable {old oldAfter new newAfter : InputValue}
variable (oldSame : old.Rearranged oldAfter) (newSame : new.Rearranged newAfter)

include oldSame newSame

theorem defaultScript_congr (location : Location) (subject : String) :
    defaultScript location subject old new = defaultScript location subject oldAfter newAfter := by
  unfold defaultScript
  rw [oldSame.name, oldSame.defaultValue?, newSame.defaultValue?]

theorem argumentScript_congr (owner : Owner) (fieldName : String) :
    argumentScript options owner fieldName old new =
      argumentScript options owner fieldName oldAfter newAfter := by
  unfold argumentScript
  dsimp only
  rw [defaultScript_congr oldSame newSame, directivesScript_congr options _ oldSame.directives
    newSame.directives, oldSame.name, oldSame.type, newSame.type]

theorem inputFieldScript_congr (owner : Owner) (name : String) :
    inputFieldScript options owner name old new =
      inputFieldScript options owner name oldAfter newAfter := by
  unfold inputFieldScript
  dsimp only
  rw [defaultScript_congr oldSame newSame, directivesScript_congr options _ oldSame.directives
    newSame.directives, oldSame.type, newSame.type]

end Inputs

theorem isRequired_eq {left right : InputValue} (same : left.Rearranged right) :
    left.isRequired = right.isRequired := by
  unfold InputValue.isRequired
  rw [same.type, same.defaultValue?]

section Fields

variable {old oldAfter new newAfter : Field}
variable (oldSame : old.Rearranged oldAfter) (newSame : new.Rearranged newAfter)

include oldSame newSame

theorem argumentsScript_congr (owner : Owner) :
    argumentsScript options owner old new = argumentsScript options owner oldAfter newAfter := by
  have oldEntries := oldSame.arguments.entries fun _ _ same => same.name
  have newEntries := newSame.arguments.entries fun _ _ same => same.name
  unfold argumentsScript
  dsimp only
  rw [oldEntries.size_eq, newEntries.size_eq, oldSame.name]
  split
  · rfl
  · congr 1
    · refine oldEntries.flatMap_eq fun name oldItem oldItemAfter sameItem => ?_
      dsimp only
      rcases newEntries.get?_cases name with ⟨absent, absentAfter⟩ | ⟨_, _, found, foundAfter, sameNew⟩
      · rw [absent, absentAfter]
      · rw [found, foundAfter]
        exact congrArg _ (argumentScript_congr options sameItem sameNew owner oldAfter.name)
    · refine newEntries.flatMap_eq fun name newItem newItemAfter sameItem => ?_
      dsimp only
      rw [oldEntries.contains_eq, isRequired_eq sameItem]

theorem fieldScript_congr (owner : Owner) :
    fieldScript options owner old new = fieldScript options owner oldAfter newAfter := by
  unfold fieldScript
  dsimp only
  rw [argumentsScript_congr options oldSame newSame, directivesScript_congr options _
    oldSame.directives newSame.directives, oldSame.name, oldSame.type, newSame.type]

end Fields

theorem fieldsScript_congr (owner : Owner) {old oldAfter new newAfter : List Field}
    (oldSame : Rearranges Field.name Field.Rearranged old oldAfter)
    (newSame : Rearranges Field.name Field.Rearranged new newAfter) :
    fieldsScript options owner old new = fieldsScript options owner oldAfter newAfter := by
  have oldEntries := oldSame.entries fun _ _ same => same.name
  have newEntries := newSame.entries fun _ _ same => same.name
  unfold fieldsScript
  refine oldEntries.flatMap_eq fun name oldField oldFieldAfter sameField => ?_
  dsimp only
  rcases newEntries.get?_cases name with ⟨absent, absentAfter⟩ | ⟨_, _, found, foundAfter, sameNew⟩
  · rw [absent, absentAfter]
  · rw [found, foundAfter]
    exact congrArg _ (fieldScript_congr options sameField sameNew owner)

theorem interfaceScript_congr {old oldAfter new newAfter : InterfaceType}
    (oldSame : old.Rearranged oldAfter) (newSame : new.Rearranged newAfter) :
    interfaceScript options old new = interfaceScript options oldAfter newAfter := by
  unfold interfaceScript
  dsimp only
  rw [oldSame.name, fieldsScript_congr options _ oldSame.fields newSame.fields,
    directivesScript_congr options _ oldSame.directives newSame.directives]

theorem unionScript_congr {old oldAfter new newAfter : UnionType}
    (oldSame : old.Rearranged oldAfter) (newSame : new.Rearranged newAfter) :
    unionScript options old new = unionScript options oldAfter newAfter := by
  unfold unionScript
  dsimp only
  rw [oldSame.name, SortedSet.ofList_eq_of_perm oldSame.members,
    SortedSet.ofList_eq_of_perm newSame.members,
    directivesScript_congr options _ oldSame.directives newSame.directives]

theorem enumScript_congr {old oldAfter new newAfter : EnumType}
    (oldSame : old.Rearranged oldAfter) (newSame : new.Rearranged newAfter) :
    enumScript options old new = enumScript options oldAfter newAfter := by
  have oldEntries := oldSame.values.entries fun _ _ same => same.name
  have newEntries := newSame.values.entries fun _ _ same => same.name
  have newNames : (NameMap.index EnumValue.name new.values).names =
      (NameMap.index EnumValue.name newAfter.values).names := newEntries.names_eq
  unfold enumScript
  dsimp only
  rw [oldSame.name, directivesScript_congr options _ oldSame.directives newSame.directives, newNames]
  simp only [oldEntries.contains_eq]
  congr 2
  refine oldEntries.flatMap_eq fun name oldValue oldValueAfter sameValue => ?_
  dsimp only
  rcases newEntries.get?_cases name with ⟨absent, absentAfter⟩ | ⟨_, _, found, foundAfter, sameNew⟩
  · rw [absent, absentAfter]
  · rw [found, foundAfter]
    exact directivesScript_congr options _ sameValue.directives sameNew.directives

theorem inputObjectScript_congr {old oldAfter new newAfter : InputObjectType}
    (oldSame : old.Rearranged oldAfter) (newSame : new.Rearranged newAfter) :
    inputObjectScript options old new = inputObjectScript options oldAfter newAfter := by
  have oldEntries := oldSame.fields.entries fun _ _ same => same.name
  have newEntries := newSame.fields.entries fun _ _ same => same.name
  unfold inputObjectScript
  dsimp only
  rw [oldSame.name, directivesScript_congr options _ oldSame.directives newSame.directives]
  congr 2
  · refine oldEntries.flatMap_eq fun name oldField oldFieldAfter sameField => ?_
    dsimp only
    rcases newEntries.get?_cases name with ⟨absent, absentAfter⟩ | ⟨_, _, found, foundAfter, sameNew⟩
    · rw [absent, absentAfter]
    · rw [found, foundAfter]
      exact inputFieldScript_congr options sameField sameNew _ name
  · refine newEntries.flatMap_eq fun name newField newFieldAfter sameField => ?_
    dsimp only
    rw [oldEntries.contains_eq, isRequired_eq sameField]

theorem scalarScript_congr {old oldAfter new newAfter : ScalarType}
    (oldSame : old.Rearranged oldAfter) (newSame : new.Rearranged newAfter) :
    scalarScript options old new = scalarScript options oldAfter newAfter := by
  unfold scalarScript
  rw [oldSame.name, directivesScript_congr options _ oldSame.directives newSame.directives]

section Documents

variable {oldDocument oldDocumentAfter newDocument newDocumentAfter : Document}

theorem interface?_rel {left right : Document} (same : left.Rearranged right) (name : String) :
    Option.Rel InterfaceType.Rearranged (left.interface? name) (right.interface? name) := by
  have found := same.types name
  unfold Document.interface?
  generalize left.type? name = type?, right.type? name = typeAfter? at found
  cases found with
  | none => exact .none
  | some sameType =>
      cases sameType with
      | interface sameInterface => exact .some sameInterface
      | object | union | enum | scalar | inputObject => exact .none

variable (oldDocuments : oldDocument.Rearranged oldDocumentAfter)
variable (newDocuments : newDocument.Rearranged newDocumentAfter)

include oldDocuments newDocuments

theorem implementedScript_congr {old oldAfter new newAfter : ObjectType}
    (oldSame : old.Rearranged oldAfter) (newSame : new.Rearranged newAfter) :
    implementedScript options oldDocument newDocument old new =
      implementedScript options oldDocumentAfter newDocumentAfter oldAfter newAfter := by
  unfold implementedScript
  rw [SortedSet.ofList_eq_of_perm oldSame.interfaces, oldSame.name]
  refine congrArg (List.flatMap · _) (funext fun name => ?_)
  have oldFound := interface?_rel oldDocuments name
  have newFound := interface?_rel newDocuments name
  simp only [newSame.interfaces.mem_iff]
  generalize oldDocument.interface? name = oldInterface?,
    oldDocumentAfter.interface? name = oldInterfaceAfter? at oldFound ⊢
  cases oldFound with
  | none => rfl
  | some sameOld =>
      by_cases listed : name ∈ newAfter.interfaces
      · simp only [listed, if_true]
        generalize newDocument.interface? name = newInterface?,
          newDocumentAfter.interface? name = newInterfaceAfter? at newFound ⊢
        cases newFound with
        | none => rfl
        | some sameNew => exact interfaceScript_congr options sameOld sameNew
      · simp only [listed, if_false]

theorem objectScript_congr {old oldAfter new newAfter : ObjectType}
    (oldSame : old.Rearranged oldAfter) (newSame : new.Rearranged newAfter) :
    objectScript options oldDocument newDocument old new =
      objectScript options oldDocumentAfter newDocumentAfter oldAfter newAfter := by
  unfold objectScript
  dsimp only
  rw [oldSame.name, fieldsScript_congr options _ oldSame.fields newSame.fields,
    implementedScript_congr options oldDocuments newDocuments oldSame newSame,
    directivesScript_congr options _ oldSame.directives newSame.directives]

theorem definitionScript_congr (name : String) {old oldAfter new newAfter : TypeDefinition}
    (oldSame : old.Rearranged oldAfter) (newSame : new.Rearranged newAfter) :
    definitionScript options oldDocument newDocument name old new =
      definitionScript options oldDocumentAfter newDocumentAfter name oldAfter newAfter := by
  cases oldSame <;> cases newSame
  case object.object oldSame _ _ newSame =>
    exact objectScript_congr options oldDocuments newDocuments oldSame newSame
  case interface.interface oldSame _ _ newSame =>
    exact interfaceScript_congr options oldSame newSame
  case union.union oldSame _ _ newSame => exact unionScript_congr options oldSame newSame
  case enum.enum oldSame _ _ newSame => exact enumScript_congr options oldSame newSame
  case scalar.scalar oldSame _ _ newSame => exact scalarScript_congr options oldSame newSame
  case inputObject.inputObject oldSame _ _ newSame =>
    exact inputObjectScript_congr options oldSame newSame
  all_goals rfl

theorem script_congr (oldName newName : String) :
    script options oldDocument newDocument oldName newName =
      script options oldDocumentAfter newDocumentAfter oldName newName := by
  have oldFound := oldDocuments.types oldName
  have newFound := newDocuments.types newName
  unfold script
  generalize oldDocument.type? oldName = old?, oldDocumentAfter.type? oldName = oldAfter?
    at oldFound ⊢
  generalize newDocument.type? newName = new?, newDocumentAfter.type? newName = newAfter?
    at newFound ⊢
  cases oldFound with
  | none => rfl
  | some sameOld =>
      cases newFound with
      | none => simp only [sameOld.kind_eq]
      | some sameNew =>
          simp only [sameOld.kind_eq,
            definitionScript_congr options oldDocuments newDocuments oldName sameOld sameNew]

omit newDocuments in
theorem type?_isNone_eq (name : String) :
    (oldDocument.type? name).isNone = (oldDocumentAfter.type? name).isNone := by
  have found := oldDocuments.types name
  generalize oldDocument.type? name = type?, oldDocumentAfter.type? name = typeAfter? at found ⊢
  cases found <;> rfl

theorem operationScript_congr (operation : OperationType) :
    operationScript oldDocument newDocument operation =
      operationScript oldDocumentAfter newDocumentAfter operation := by
  unfold operationScript
  rw [oldDocuments.root?_eq, newDocuments.root?_eq]
  simp only [type?_isNone_eq oldDocuments]

end Documents

theorem mem_fieldMentions_iff {left right : Field} (same : left.Rearranged right) (name : String) :
    name ∈ left.mentions ↔ name ∈ right.mentions := by
  simp only [Field.mentions, List.mem_cons, List.mem_map, same.type]
  exact or_congr_right (same.arguments.exists_mem_iff fun _ _ sameArgument => by
    rw [sameArgument.type])

theorem mem_typeMentions_iff {left right : TypeDefinition} (same : left.Rearranged right)
    (name : String) : name ∈ left.mentions ↔ name ∈ right.mentions := by
  cases same with
  | object same | interface same =>
      simp only [TypeDefinition.mentions, List.mem_flatMap]
      exact same.fields.exists_mem_iff fun _ _ sameField => mem_fieldMentions_iff sameField name
  | union same => exact same.members.mem_iff
  | enum | scalar => exact Iff.rfl
  | inputObject same =>
      simp only [TypeDefinition.mentions, List.mem_map]
      exact same.fields.exists_mem_iff fun _ _ sameField => by rw [sameField.type]

theorem mem_mentions_congr {left right : Document} (same : left.Rearranged right) (name : String) :
    name ∈ left.mentions ↔ name ∈ right.mentions := by
  rw [mem_mentions_iff, mem_mentions_iff]
  refine or_congr (exists_congr fun operation => by rw [same.root?_eq]) ?_
  refine exists_congr fun key => ?_
  have found := same.types key
  generalize left.type? key = type?, right.type? key = typeAfter? at found ⊢
  cases found with
  | none => simp
  | some sameType => simp [mem_typeMentions_iff sameType name]

section Walks

variable {oldDocument oldOther newDocument newOther : Document}

/-- Two walks report the same if the scripts of all pairs that they can come to are the same and
they have the same of these names to examine. Where the two schemas differ otherwise is not seen. -/
theorem walk_congr (covered : String → String → Prop)
    (scripts : ∀ oldName newName, covered oldName newName →
      script options oldDocument newDocument oldName newName =
        script options oldOther newOther oldName newName)
    (handedOn : ∀ oldName newName, covered oldName newName → ∀ nextOld nextNew,
      .follow nextOld nextNew ∈ script options oldDocument newDocument oldName newName →
      covered nextOld nextNew)
    {unexamined others : List String}
    (same : ∀ oldName newName, covered oldName newName →
      (oldName ∈ unexamined ↔ oldName ∈ others))
    {agenda : List Step}
    (onAgenda : ∀ oldName newName, .follow oldName newName ∈ agenda → covered oldName newName) :
    walk options oldDocument newDocument unexamined agenda =
      walk options oldOther newOther others agenda := by
  fun_induction walk options oldDocument newDocument unexamined agenda generalizing others with
  | case1 unexamined => rw [walk]
  | case2 unexamined error rest => rw [walk]
  | case3 unexamined event rest ih =>
      rw [walk, ih same fun _ _ member => onAgenda _ _ (List.mem_cons_of_mem _ member)]
  | case4 unexamined oldName newName rest isNew ih =>
      have here : covered oldName newName := onAgenda _ _ List.mem_cons_self
      rw [walk, dif_pos ((same _ _ here).mp isNew), ← scripts _ _ here]
      apply ih
      · intro otherOld otherNew isCovered
        rw [mem_withoutName_iff, mem_withoutName_iff, same _ _ isCovered]
      · intro nextOld nextNew member
        rcases List.mem_append.mp member with inScript | inRest
        · exact handedOn _ _ here _ _ inScript
        · exact onAgenda _ _ (List.mem_cons_of_mem _ inRest)
  | case5 unexamined oldName newName rest notNew ih =>
      have here : covered oldName newName := onAgenda _ _ List.mem_cons_self
      rw [walk, dif_neg (mt (same _ _ here).mpr notNew)]
      exact ih same fun _ _ member => onAgenda _ _ (List.mem_cons_of_mem _ member)

end Walks

/-- Schemas whose declarations stand in another order give the same comparison: the same events one
after another, and the same end. -/
theorem diff_eq_of_rearranged (options : Options) {old oldAfter new newAfter : Document}
    (oldSame : old.Rearranged oldAfter) (newSame : new.Rearranged newAfter) :
    diff options oldAfter newAfter = diff options old new := by
  have operations : OperationType.all.flatMap (operationScript old new) =
      OperationType.all.flatMap (operationScript oldAfter newAfter) :=
    congrArg (OperationType.all.flatMap ·) (funext (operationScript_congr oldSame newSame))
  unfold diff
  rw [← operations]
  refine (walk_congr options (fun _ _ => True) ?_ ?_ ?_ ?_).symm
  · exact fun oldName newName _ => script_congr options oldSame newSame oldName newName
  · exact fun _ _ _ _ _ _ => trivial
  · exact fun name _ _ => mem_mentions_congr oldSame name
  · exact fun _ _ _ => trivial

def hueInput : InputValue :=
  ⟨"hue", .named "Hue", none, []⟩

def findSizeInput (directives : List Directive) : InputValue :=
  ⟨"size", .named "Int", some (.int "5"), directives⟩

def findField (arguments : List InputValue) : Field :=
  ⟨"find", .named "Any", arguments, []⟩

def idField : Field :=
  ⟨"id", .named "ID", [], []⟩

def slowMarks : List Directive :=
  [⟨"old", ∅⟩, ⟨"slow", ∅⟩]

def findSchema (fields : List Field) (members : List String) (values : List EnumValue) : Document :=
  .rooted [.object ⟨"Root", fields, ["Node"], []⟩, .interface ⟨"Node", [idField], []⟩,
    .union ⟨"Any", members, []⟩, .enum ⟨"Hue", values, []⟩]

def sortedFindSchema : Document :=
  findSchema [findField [hueInput, findSizeInput slowMarks], idField] ["Page", "Root"]
    [⟨"BLUE", []⟩, ⟨"RED", []⟩]

def reversedFindSchema : Document :=
  findSchema [idField, findField [findSizeInput slowMarks.reverse, hueInput]] ["Root", "Page"]
    [⟨"RED", []⟩, ⟨"BLUE", []⟩]

theorem rearranged_reversedFindSchema : sortedFindSchema.Rearranged reversedFindSchema := by
  have none : Rearranges Directive.name Eq [] [] := Rearranges.refl Eq.refl []
  have size : (findSizeInput slowMarks).Rearranged (findSizeInput slowMarks.reverse) :=
    ⟨rfl, rfl, rfl, rearranges_of_perm Eq.refl (List.reverse_perm _).symm (by decide)⟩
  have inputs : Rearranges InputValue.name InputValue.Rearranged
      [hueInput, findSizeInput slowMarks] [findSizeInput slowMarks.reverse, hueInput] :=
    ⟨[hueInput, findSizeInput slowMarks.reverse], .cons (.refl _) (.cons size .nil),
      Or.inr ⟨.swap .., by decide⟩⟩
  let find := findField [hueInput, findSizeInput slowMarks]
  let findAfter := findField [findSizeInput slowMarks.reverse, hueInput]
  have fields : Rearranges Field.name Field.Rearranged [find, idField] [idField, findAfter] :=
    ⟨[findAfter, idField], .cons ⟨rfl, rfl, inputs, none⟩ (.cons (.refl _) .nil),
      Or.inr ⟨.swap .., by decide⟩⟩
  have root : (TypeDefinition.object ⟨"Root", [find, idField], ["Node"], []⟩).Rearranged
      (.object ⟨"Root", [idField, findAfter], ["Node"], []⟩) :=
    .object ⟨rfl, fields, .refl _, none⟩
  have any : (TypeDefinition.union ⟨"Any", ["Page", "Root"], []⟩).Rearranged
      (.union ⟨"Any", ["Root", "Page"], []⟩) :=
    .union ⟨rfl, .swap .., none⟩
  have hue : (TypeDefinition.enum ⟨"Hue", [⟨"BLUE", []⟩, ⟨"RED", []⟩], []⟩).Rearranged
      (.enum ⟨"Hue", [⟨"RED", []⟩, ⟨"BLUE", []⟩], []⟩) :=
    .enum ⟨rfl, rearranges_of_perm EnumValue.Rearranged.refl (.swap ..) (by decide), none⟩
  exact ((((Document.Rearranged.refl _).insert root).insert (.refl _)).insert any).insert hue

def poorFindSchema : Document :=
  findSchema [findField [], idField] ["Page"] []

theorem reversedFind_diff_eq :
    sortedFindSchema.Rearranged reversedFindSchema ∧ sortedFindSchema ≠ reversedFindSchema ∧
      poorFindSchema.Rearranged poorFindSchema ∧
      diff .enforcing reversedFindSchema poorFindSchema =
        diff .enforcing sortedFindSchema poorFindSchema := by
  have different : sortedFindSchema ≠ reversedFindSchema := by decide
  have unchanged := Document.Rearranged.refl poorFindSchema
  exact ⟨rearranged_reversedFindSchema, different, unchanged,
    diff_eq_of_rearranged .enforcing rearranged_reversedFindSchema unchanged⟩

end Diff

end SchemaEvolution
