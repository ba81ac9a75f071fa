import SchemaEvolution.Proofs.Diff.Compatible
import SchemaEvolution.Proofs.Diff.References

/-!
The names that can be reached in one schema, and their part in a comparison. A comparison never
turns to an old name that cannot be reached, apart from exempt ones. As long as the scripts are
quiet, it turns to all of them, and it leads from names on both sides to one name on both sides.
-/

namespace SchemaEvolution

namespace Document

inductive OffersFields (document : Document) (name : String) : List Field → Prop
  | object {type : ObjectType} :
      document.type? name = some (.object type) → OffersFields document name type.fields
  | interface {type : InterfaceType} :
      document.type? name = some (.interface type) → OffersFields document name type.fields
  | implemented {type : ObjectType} {implemented : String} {interface : InterfaceType} :
      document.type? name = some (.object type) → implemented ∈ type.interfaces →
      document.interface? implemented = some interface →
      OffersFields document name interface.fields

def field? (document : Document) (typeName fieldName : String) : Option Field :=
  match document.type? typeName with
  | some (.object type) => (NameMap.index Field.name type.fields).get? fieldName
  | some (.interface type) => (NameMap.index Field.name type.fields).get? fieldName
  | _ => none

/-- The names that the type of a name refers to: by its fields and their arguments, its input
fields, or its members. -/
inductive RefersTo (document : Document) (name : String) : String → Prop
  | field {fields : List Field} {key : String} {field : Field} :
      document.OffersFields name fields →
      (NameMap.index Field.name fields).get? key = some field →
      RefersTo document name field.type.name
  | argument {fields : List Field} {key : String} {field : Field} {argumentKey : String}
      {argument : InputValue} :
      document.OffersFields name fields →
      (NameMap.index Field.name fields).get? key = some field →
      (NameMap.index InputValue.name field.arguments).get? argumentKey = some argument →
      RefersTo document name argument.type.name
  | inputField {type : InputObjectType} {key : String} {field : InputValue} :
      document.type? name = some (.inputObject type) →
      (NameMap.index InputValue.name type.fields).get? key = some field →
      RefersTo document name field.type.name
  | member {type : UnionType} {member : String} :
      document.type? name = some (.union type) → member ∈ type.members →
      RefersTo document name member

/-- The names that are not exempt and can be reached from the defined roots by way of such names. -/
inductive Reachable (document : Document) : String → Prop
  | root {operation : OperationType} {name : String} :
      document.root? operation = some name → (document.type? name).isSome →
      Diff.isExempt name = false → Reachable document name
  | step {name next : String} :
      Reachable document name → document.RefersTo name next →
      Diff.isExempt next = false → Reachable document next

theorem type?_of_field? {document : Document} {typeName fieldName : String} {field : Field}
    (selected : document.field? typeName fieldName = some field) :
    ∃ definition, document.type? typeName = some definition := by
  unfold field? at selected
  cases found : document.type? typeName with
  | none =>
      rw [found] at selected
      cases selected
  | some definition => exact ⟨definition, rfl⟩

theorem name_of_field? {document : Document} {typeName fieldName : String} {field : Field}
    (selected : document.field? typeName fieldName = some field) : field.name = fieldName := by
  unfold field? at selected
  split at selected
  · exact NameMap.name_of_get?_index selected
  · exact NameMap.name_of_get?_index selected
  · cases selected

theorem Reachable.isExempt_eq_false {document : Document} {name : String}
    (reachable : document.Reachable name) : Diff.isExempt name = false := by
  cases reachable with
  | root _ _ compared => exact compared
  | step _ _ compared => exact compared

def rooted (types : List TypeDefinition) : Document :=
  types.foldl insert (empty.setRoot .query (some "Root"))

end Document

theorem TypeRef.name_eq_of_mismatch {old new : TypeRef} (compatible : old.mismatch new = none) :
    old.name = new.name := by
  unfold mismatch at compatible
  split at compatible
  · assumption
  · cases compatible

namespace Diff

variable {options : Options} {oldDocument newDocument : Document}
variable {oldName newName nextOld nextNew : String}

theorem MeetingFields.offers {owner : Owner} {oldFields newFields : List Field}
    (meeting : MeetingFields oldDocument newDocument oldName newName owner oldFields newFields) :
    oldDocument.OffersFields oldName oldFields := by
  cases meeting with
  | object oldFound _ => exact .object oldFound
  | interface oldFound _ => exact .interface oldFound
  | implemented oldFound _ inOld oldIs _ _ => exact .implemented oldFound inOld oldIs

theorem MeetingFields.newOffers {owner : Owner} {oldFields newFields : List Field}
    (meeting : MeetingFields oldDocument newDocument oldName newName owner oldFields newFields) :
    newDocument.OffersFields newName newFields := by
  cases meeting with
  | object _ newFound => exact .object newFound
  | interface _ newFound => exact .interface newFound
  | implemented _ newFound _ _ inNew newIs => exact .implemented newFound inNew newIs

theorem LeadsTo.isExempt_eq_false
    (leads : LeadsTo oldDocument newDocument oldName newName nextOld nextNew) :
    isExempt oldName = false := by
  cases leads with
  | field meeting => exact meeting.1
  | input meeting _ =>
      cases meeting with
      | argument inField _ _ _ => exact inField.1
      | inputField compared _ _ _ _ => exact compared
  | member compared _ _ _ _ => exact compared

theorem LeadsTo.refersTo
    (leads : LeadsTo oldDocument newDocument oldName newName nextOld nextNew) :
    oldDocument.RefersTo oldName nextOld := by
  cases leads with
  | field meeting =>
      obtain ⟨_, oldFields, newFields, name, inFields, oldFound, _⟩ := meeting
      exact .field inFields.offers oldFound
  | input meeting _ =>
      cases meeting with
      | argument inField _ oldHas _ =>
          obtain ⟨_, oldFields, newFields, name, inFields, oldFound, _⟩ := inField
          exact .argument inFields.offers oldFound oldHas
      | inputField _ oldFound _ oldHas _ => exact .inputField oldFound oldHas
  | member _ oldFound _ inOld _ => exact .member oldFound inOld

theorem LeadsTo.newRefersTo
    (leads : LeadsTo oldDocument newDocument oldName newName nextOld nextNew) :
    newDocument.RefersTo newName nextNew := by
  cases leads with
  | field meeting =>
      obtain ⟨_, oldFields, newFields, name, inFields, _, newFound⟩ := meeting
      exact .field inFields.newOffers newFound
  | input meeting _ =>
      cases meeting with
      | argument inField _ _ newHas =>
          obtain ⟨_, oldFields, newFields, name, inFields, _, newFound⟩ := inField
          exact .argument inFields.newOffers newFound newHas
      | inputField _ _ newFound _ newHas => exact .inputField newFound newHas
  | member _ _ newFound _ inNew => exact .member newFound inNew

/-- Old names that are turned to can be reached, whatever the comparison finds. -/
theorem reachable_of_mem_comparisons
    (compared : (oldName, newName) ∈ comparisons options oldDocument newDocument)
    (notExempt : isExempt oldName = false) : oldDocument.Reachable oldName := by
  refine visits_induction (fun name _ => isExempt name = false → oldDocument.Reachable name)
    ?_ ?_ oldName newName compared notExempt
  · intro rootOld rootNew atStart rootCompared
    obtain ⟨operation, isRoot, _, defined⟩ :=
      (follow_mem_operationsScript_iff _ _ _ _).mp atStart
    exact .root isRoot defined rootCompared
  · intro firstOld firstNew _ reachable laterOld laterNew follows laterCompared
    have leads := follow_mem_script_iff.mp follows
    exact .step (reachable leads.isExempt_eq_false) leads.refersTo laterCompared

section Quiet

variable (quiet : Quiet (script options oldDocument newDocument oldName newName))

include quiet

theorem MeetingField.keeps {owner : Owner} {old new : Field}
    (meeting : MeetingField oldDocument newDocument oldName newName owner old new) :
    KeepsField options old new := by
  rw [← quiet_fieldScript_iff options owner]
  exact quiet.mono (fieldScript_subset_script meeting)

/-- A quiet script leads to one name on both sides. -/
theorem LeadsTo.eq_of_quiet
    (leads : LeadsTo oldDocument newDocument oldName newName nextOld nextNew) :
    nextOld = nextNew := by
  cases leads with
  | field meeting => exact TypeRef.name_eq_of_mismatch (meeting.keeps quiet).type
  | input _ compatible => exact TypeRef.name_eq_of_mismatch compatible
  | member _ _ _ _ _ => rfl

/-- The fields that the old type offers meet new ones that keep them. -/
theorem exists_meetingFields_of_quiet (compared : isExempt oldName = false)
    {oldFields : List Field} (offers : oldDocument.OffersFields oldName oldFields) :
    ∃ owner newFields,
      MeetingFields oldDocument newDocument oldName newName owner oldFields newFields ∧
      KeptByName Field.name (KeepsField options) oldFields newFields := by
  have keeps := (quiet_script_iff options oldDocument newDocument oldName newName).mp quiet
  cases offers with
  | object oldFound =>
      obtain ⟨_, new, newFound, keptNew⟩ := keeps _ compared oldFound
      obtain ⟨newType, rfl, kept⟩ := keptNew.of_object
      exact ⟨_, _, .object oldFound newFound, kept.fields⟩
  | interface oldFound =>
      obtain ⟨_, new, newFound, keptNew⟩ := keeps _ compared oldFound
      obtain ⟨newType, rfl, kept⟩ := keptNew.of_interface
      exact ⟨_, _, .interface oldFound newFound, kept.fields⟩
  | implemented oldFound inOld oldIs =>
      obtain ⟨_, new, newFound, keptNew⟩ := keeps _ compared oldFound
      obtain ⟨newType, rfl, kept⟩ := keptNew.of_object
      obtain ⟨inNew, newInterface, newIs, keptInterface⟩ := kept.interfaces _ inOld _ oldIs
      exact ⟨_, _, .implemented oldFound newFound inOld oldIs inNew newIs, keptInterface.fields⟩

theorem exists_meetingField_of_quiet (compared : isExempt oldName = false)
    {oldFields : List Field} (offers : oldDocument.OffersFields oldName oldFields)
    {key : String} {old : Field}
    (found : (NameMap.index Field.name oldFields).get? key = some old) :
    ∃ owner new, MeetingField oldDocument newDocument oldName newName owner old new := by
  obtain ⟨owner, newFields, meeting, kept⟩ := exists_meetingFields_of_quiet quiet compared offers
  obtain ⟨new, newFound, _⟩ := kept key old found
  exact ⟨owner, new, compared, oldFields, newFields, key, meeting, found, newFound⟩

/-- A field of the old type is still a field of the new one, and the two meet. -/
theorem exists_field_of_quiet (compared : isExempt oldName = false) {old : TypeDefinition}
    (oldFound : oldDocument.type? oldName = some old) {fieldName : String} {oldField : Field}
    (selected : oldDocument.field? oldName fieldName = some oldField) :
    ∃ newField, newDocument.field? newName fieldName = some newField ∧
      MeetingField oldDocument newDocument oldName newName ⟨old.name, old.kind⟩
        oldField newField := by
  obtain ⟨_, new, newFound, keptNew⟩ :=
    (quiet_script_iff options oldDocument newDocument oldName newName).mp quiet old compared oldFound
  unfold Document.field? at selected ⊢
  rw [oldFound] at selected
  rw [newFound]
  cases old with
  | object oldType =>
      obtain ⟨newType, rfl, kept⟩ := keptNew.of_object
      obtain ⟨newField, newSelected, _⟩ := kept.fields fieldName oldField selected
      exact ⟨newField, newSelected, compared, _, _, fieldName, .object oldFound newFound,
        selected, newSelected⟩
  | interface oldType =>
      obtain ⟨newType, rfl, kept⟩ := keptNew.of_interface
      obtain ⟨newField, newSelected, _⟩ := kept.fields fieldName oldField selected
      exact ⟨newField, newSelected, compared, _, _, fieldName, .interface oldFound newFound,
        selected, newSelected⟩
  | union _ | enum _ | scalar _ | inputObject _ => cases selected

/-- A quiet script leads on to everything that the old type refers to. -/
theorem exists_leadsTo_of_refersTo (compared : isExempt oldName = false)
    (refers : oldDocument.RefersTo oldName nextOld) :
    ∃ nextNew, LeadsTo oldDocument newDocument oldName newName nextOld nextNew := by
  have keeps := (quiet_script_iff options oldDocument newDocument oldName newName).mp quiet
  cases refers with
  | field offers found =>
      obtain ⟨owner, newField, meeting⟩ :=
        exists_meetingField_of_quiet quiet compared offers found
      exact ⟨_, .field meeting⟩
  | argument offers found has =>
      obtain ⟨owner, newField, meeting⟩ :=
        exists_meetingField_of_quiet quiet compared offers found
      have keptArguments := (meeting.keeps quiet).arguments.kept
      obtain ⟨newArgument, newHas, kept⟩ := keptArguments _ _ has
      exact ⟨_, .input (.argument meeting keptArguments.size_le has newHas) kept.type⟩
  | inputField found has =>
      obtain ⟨_, new, newFound, keptNew⟩ := keeps _ compared found
      obtain ⟨newType, rfl, kept⟩ := keptNew.of_inputObject
      obtain ⟨newField, newHas, keptField⟩ := kept.fields.kept _ _ has
      exact ⟨_, .input (.inputField compared found newFound has newHas) keptField.type⟩
  | member found inOld =>
      obtain ⟨_, new, newFound, keptNew⟩ := keeps _ compared found
      obtain ⟨newType, rfl, kept⟩ := keptNew.of_union
      exact ⟨_, .member compared found newFound inOld (kept.members _ inOld)⟩

end Quiet

/-- Operations that both schemas offer have roots of one name. -/
def SameRoots (oldDocument newDocument : Document) : Prop :=
  ∀ operation oldRoot newRoot, oldDocument.root? operation = some oldRoot →
    newDocument.root? operation = some newRoot → oldRoot = newRoot

instance (oldDocument newDocument : Document) : Decidable (SameRoots oldDocument newDocument) :=
  decidable_of_iff (∀ operation ∈ OperationType.all,
      ∀ oldRoot ∈ oldDocument.root? operation, ∀ newRoot ∈ newDocument.root? operation,
        oldRoot = newRoot) <| by
    constructor
    · intro alike operation oldRoot newRoot isOld isNew
      exact alike operation (mem_allOperations operation) oldRoot isOld newRoot isNew
    · intro sameRoots operation _ oldRoot isOld newRoot isNew
      exact sameRoots operation oldRoot newRoot isOld isNew

theorem SameRoots.self (document : Document) : SameRoots document document :=
  fun _ _ _ isOld isNew => Option.some.inj (isOld.symm.trans isNew)

/-- Where roots keep their names and no type of one name leads to types of two, only types of one
name are compared. -/
theorem SameRoots.eq_of_leadsTo (sameRoots : SameRoots oldDocument newDocument)
    (keepsName : ∀ name, (name, name) ∈ comparisons options oldDocument newDocument →
      ∀ nextOld nextNew, LeadsTo oldDocument newDocument name name nextOld nextNew →
        nextOld = nextNew)
    (compared : (oldName, newName) ∈ comparisons options oldDocument newDocument) :
    oldName = newName := by
  revert compared
  apply visits_induction
  · intro rootOld rootNew atStart
    obtain ⟨operation, isOld, isNew, _⟩ := (follow_mem_operationsScript_iff _ _ _ _).mp atStart
    exact sameRoots operation rootOld rootNew isOld isNew
  · intro firstOld firstNew earlier same laterOld laterNew follows
    subst same
    exact keepsName firstOld earlier laterOld laterNew (follow_mem_script_iff.mp follows)

section Clean

variable (clean : (diff options oldDocument newDocument).breakingCount = .ok 0)

include clean

theorem quiet_of_mem_comparisons
    (compared : (oldName, newName) ∈ comparisons options oldDocument newDocument) :
    Quiet (script options oldDocument newDocument oldName newName) :=
  ((breakingCount_eq_ok_zero_iff_quiet options oldDocument newDocument).mp clean).2 _ compared

theorem root?_isSome_of_clean (operation : OperationType)
    (offered : (oldDocument.root? operation).isSome) : (newDocument.root? operation).isSome := by
  have quiet := (breakingCount_eq_ok_zero_iff_quiet options oldDocument newDocument).mp clean
  exact (quiet_operationsScript_iff oldDocument newDocument).mp quiet.1 operation offered

/-- Only roots can be compared with a type of another name. -/
theorem eq_or_root_of_mem_comparisons
    (compared : (oldName, newName) ∈ comparisons options oldDocument newDocument) :
    oldName = newName ∨ ∃ operation, oldDocument.root? operation = some oldName ∧
      newDocument.root? operation = some newName := by
  rcases origin_of_mem_comparisons compared with
    ⟨operation, oldRoot, newRoot, _⟩ | ⟨pair, earlier, leads⟩
  · exact Or.inr ⟨operation, oldRoot, newRoot⟩
  · exact Or.inl (leads.eq_of_quiet (quiet_of_mem_comparisons clean earlier))

theorem eq_of_mem_comparisons (sameRoots : SameRoots oldDocument newDocument)
    (compared : (oldName, newName) ∈ comparisons options oldDocument newDocument) :
    oldName = newName := by
  rcases eq_or_root_of_mem_comparisons clean compared with same | ⟨operation, oldRoot, newRoot⟩
  · exact same
  · exact sameRoots operation oldName newName oldRoot newRoot

theorem exists_comparison_of_reachable {name : String} (reachable : oldDocument.Reachable name) :
    ∃ other, (name, other) ∈ comparisons options oldDocument newDocument := by
  induction reachable with
  | @root operation name isRoot defined _ =>
      obtain ⟨newRoot, isNewRoot⟩ := Option.isSome_iff_exists.mp
        (root?_isSome_of_clean clean operation (by simp [isRoot]))
      exact exists_comparison_of_roots isRoot isNewRoot defined
  | @step name next reachable refers _ ih =>
      obtain ⟨other, compared⟩ := ih
      obtain ⟨nextNew, leads⟩ := exists_leadsTo_of_refersTo
        (quiet_of_mem_comparisons clean compared) reachable.isExempt_eq_false refers
      exact exists_comparison_of_leadsTo compared leads

/-- Every name that can be reached is compared with the new type of that name. -/
theorem mem_comparisons_of_reachable (sameRoots : SameRoots oldDocument newDocument)
    {name : String} (reachable : oldDocument.Reachable name) :
    (name, name) ∈ comparisons options oldDocument newDocument := by
  obtain ⟨other, compared⟩ := exists_comparison_of_reachable clean reachable
  have same := eq_of_mem_comparisons clean sameRoots compared
  subst same
  exact compared

/-- What can be reached is there in full, and the new type of its name keeps it. -/
theorem exists_kept_of_reachable (sameRoots : SameRoots oldDocument newDocument) {name : String}
    (reachable : oldDocument.Reachable name) {old : TypeDefinition}
    (found : oldDocument.type? name = some old) :
    ResolvesInterfaces oldDocument old ∧ ∃ new, newDocument.type? name = some new ∧
      KeepsDefinition options oldDocument newDocument old new := by
  have compared := mem_comparisons_of_reachable clean sameRoots reachable
  have quiet := quiet_of_mem_comparisons clean compared
  exact (quiet_script_iff _ _ _ _ _).mp quiet old reachable.isExempt_eq_false found

/-- What can be reached in the old schema can be reached in the new one. -/
theorem reachable_of_clean (sameRoots : SameRoots oldDocument newDocument) {name : String}
    (reachable : oldDocument.Reachable name) : newDocument.Reachable name := by
  induction reachable with
  | @root operation name isRoot defined notExempt =>
      obtain ⟨newRoot, isNewRoot⟩ := Option.isSome_iff_exists.mp
        (root?_isSome_of_clean clean operation (by simp [isRoot]))
      have same := sameRoots operation name newRoot isRoot isNewRoot
      subst same
      obtain ⟨old, found⟩ := Option.isSome_iff_exists.mp defined
      obtain ⟨_, new, newFound, _⟩ :=
        exists_kept_of_reachable clean sameRoots (.root isRoot defined notExempt) found
      exact .root isNewRoot (Option.isSome_of_eq_some newFound) notExempt
  | step earlier refers notExempt ih =>
      have quiet := quiet_of_mem_comparisons clean
        (mem_comparisons_of_reachable clean sameRoots earlier)
      obtain ⟨nextNew, leads⟩ :=
        exists_leadsTo_of_refersTo quiet earlier.isExempt_eq_false refers
      have same := leads.eq_of_quiet quiet
      subst same
      exact .step ih leads.newRefersTo notExempt

end Clean

/-- A comparison finds no break if the scripts of all names that can be reached are quiet: from
roots of one name they lead to pairs of one name only. -/
theorem breakingCount_eq_ok_zero_of_quiet (sameRoots : SameRoots oldDocument newDocument)
    (offered : ∀ operation, (oldDocument.root? operation).isSome →
      (newDocument.root? operation).isSome)
    (quiet : ∀ name, oldDocument.Reachable name →
      Quiet (script options oldDocument newDocument name name)) :
    (diff options oldDocument newDocument).breakingCount = .ok 0 := by
  have quietAt {name other : String}
      (compared : (name, other) ∈ comparisons options oldDocument newDocument) :
      Quiet (script options oldDocument newDocument name name) := by
    cases exempt : isExempt name with
    | true => simp [script, exempt]
    | false => exact quiet name (reachable_of_mem_comparisons compared exempt)
  rw [breakingCount_eq_ok_zero_iff_quiet]
  refine ⟨(quiet_operationsScript_iff oldDocument newDocument).mpr offered, ?_⟩
  rintro ⟨oldName, newName⟩ compared
  have same := sameRoots.eq_of_leadsTo
    (fun _ earlier _ _ leads => leads.eq_of_quiet (quietAt earlier)) compared
  subst same
  exact quietAt compared

end Diff

end SchemaEvolution
