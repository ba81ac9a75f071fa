import Mathlib
import SchemaEvolution.Proofs.Diff.Reachable

/-!
What callers have to supply. After a comparison without a break, an argument or input field that the
new schema requires was there before and could not be null. It was required as well, or it had a
default that is gone; the loss of a default is reported as dangerous.
-/

namespace SchemaEvolution

theorem TypeRef.isNonNull_of_mismatch {old new : TypeRef} (compatible : old.mismatch new = none)
    (mark : new.isNonNull = true) : old.isNonNull = true := by
  unfold mismatch at compatible
  split at compatible
  · cases new with
    | named name => cases mark
    | list item => cases mark
    | nonNull inner =>
        cases old with
        | named name => simp [layerMismatch] at compatible
        | list item => simp [layerMismatch] at compatible
        | nonNull other => rfl
  · cases compatible

namespace Diff

/-- The names of arguments or input fields that a caller supplies are all that have to be supplied.
-/
def Complete (inputs : List InputValue) (supplied : String → Prop) : Prop :=
  ∀ name input, (NameMap.index InputValue.name inputs).get? name = some input →
    input.isRequired = true → supplied name

/-- The input could not be null but had a default, and the default is gone. -/
def LosesDefault (old new : List InputValue) (name : String) : Prop :=
  ∃ before after, (NameMap.index InputValue.name old).get? name = some before ∧
    (NameMap.index InputValue.name new).get? name = some after ∧
    before.type.isNonNull = true ∧ before.defaultValue?.isSome ∧ after.defaultValue? = none

/-- What the new inputs require was required before, apart from lost defaults. For each of these
there is a dangerous event at the input's place. -/
structure DemandsKept (events : List Event) (location : String → Location)
    (old new : List InputValue) : Prop where
  required : ∀ name input, (NameMap.index InputValue.name new).get? name = some input →
    input.isRequired = true →
    ∃ before, (NameMap.index InputValue.name old).get? name = some before ∧
      (before.isRequired = true ∨ LosesDefault old new name ∧
        ∃ reason, Event.dangerous .different (location name) [name] reason ∈ events)
  complete : ∀ supplied, Complete old supplied →
    (∀ name, LosesDefault old new name → supplied name) → Complete new supplied

/-- The names of the types that a comparison goes into: those it turns to, and the interfaces of the
objects among them. -/
inductive Examined (options : Options) (oldDocument newDocument : Document) : String → Prop
  | turnedTo {name newName : String} :
      (name, newName) ∈ comparisons options oldDocument newDocument → isExempt name = false →
      Examined options oldDocument newDocument name
  | implemented {name newName implemented : String} {type : ObjectType} :
      (name, newName) ∈ comparisons options oldDocument newDocument → isExempt name = false →
      oldDocument.type? name = some (.object type) → implemented ∈ type.interfaces →
      Examined options oldDocument newDocument implemented

variable {options : Options} {oldDocument newDocument : Document}

theorem required_or_losesDefault {old new : List InputValue} (kept : KeepsInputs options old new)
    {name : String} {input : InputValue}
    (found : (NameMap.index InputValue.name new).get? name = some input)
    (required : input.isRequired = true) :
    ∃ before, (NameMap.index InputValue.name old).get? name = some before ∧
      (before.isRequired = true ∨ LosesDefault old new name) := by
  cases oldFound : (NameMap.index InputValue.name old).get? name with
  | none =>
      have free := kept.added name input found oldFound
      rw [required] at free
      cases free
  | some before =>
      obtain ⟨other, otherFound, keptInput⟩ := kept.kept name before oldFound
      rw [found] at otherFound
      cases otherFound
      obtain ⟨mark, noDefault⟩ : input.type.isNonNull = true ∧ input.defaultValue? = none := by
        simpa [InputValue.isRequired] using required
      have oldMark := TypeRef.isNonNull_of_mismatch keptInput.type mark
      refine ⟨before, rfl, ?_⟩
      cases hadDefault : before.defaultValue? with
      | none => exact Or.inl (by simp [InputValue.isRequired, oldMark, hadDefault])
      | some value =>
          exact Or.inr ⟨before, input, oldFound, found, oldMark, by simp [hadDefault], noDefault⟩

/-- Inputs that are kept keep their demands, provided that a change of a default is reported. -/
theorem KeepsInputs.demandsKept {old new : List InputValue} (kept : KeepsInputs options old new)
    {events : List Event} {location : String → Location}
    (reported : ∀ name before after, (NameMap.index InputValue.name old).get? name = some before →
      (NameMap.index InputValue.name new).get? name = some after →
      before.defaultValue? ≠ after.defaultValue? →
      ∃ reason, Event.dangerous .different (location name) [name] reason ∈ events) :
    DemandsKept events location old new := by
  constructor
  · intro name input found required
    obtain ⟨before, oldFound, origin⟩ := required_or_losesDefault kept found required
    refine ⟨before, oldFound, origin.imp_right fun loses => ⟨loses, ?_⟩⟩
    obtain ⟨first, second, firstFound, secondFound, _, hadDefault, noDefault⟩ := loses
    apply reported name first second firstFound secondFound
    intro same
    rw [same, noDefault] at hadDefault
    cases hadDefault
  · intro supplied complete lost name input found required
    obtain ⟨before, oldFound, origin⟩ := required_or_losesDefault kept found required
    rcases origin with wasRequired | loses
    · exact complete name before oldFound wasRequired
    · exact lost name loses

theorem dangerous_mem_defaultScript {location : Location} {subject : String} {old new : InputValue}
    (changed : old.defaultValue? ≠ new.defaultValue?) :
    ∃ reason, Step.report (.dangerous .different location [old.name] reason) ∈
      defaultScript location subject old new := by
  unfold defaultScript
  simp only [if_neg changed]
  exact ⟨_, List.mem_append_right _ (List.mem_singleton_self _)⟩

section Clean

variable (clean : (diff options oldDocument newDocument).breakingCount = .ok 0)

include clean

theorem dangerous_mem_events {oldName newName : String}
    (compared : (oldName, newName) ∈ comparisons options oldDocument newDocument)
    {location : Location} {old new : InputValue}
    (meeting : MeetingInput oldDocument newDocument oldName newName location old new)
    (changed : old.defaultValue? ≠ new.defaultValue?) :
    ∃ reason, Event.dangerous .different location [old.name] reason ∈
      (diff options oldDocument newDocument).events := by
  obtain ⟨subject, inScript⟩ := defaultScript_subset_script meeting
  obtain ⟨reason, member⟩ := dangerous_mem_defaultScript changed
  have finished := ((breakingCount_eq_ok_zero_iff_events _).mp clean).1
  exact ⟨reason, mem_diff_events_of_mem_script finished compared (inScript member)⟩

/-- The arguments of a field that was met keep their demands. -/
theorem demandsKept_of_meetingField {oldName newName : String}
    (compared : (oldName, newName) ∈ comparisons options oldDocument newDocument)
    {owner : Owner} {old new : Field}
    (meeting : MeetingField oldDocument newDocument oldName newName owner old new) :
    DemandsKept (diff options oldDocument newDocument).events (fun _ => owner.member old.name)
      old.arguments new.arguments := by
  have kept := (meeting.keeps (quiet_of_mem_comparisons clean compared)).arguments
  apply kept.demandsKept
  intro name before after oldHas newHas changed
  have meets := MeetingInput.argument meeting kept.kept.size_le oldHas newHas
  rw [← NameMap.name_of_get?_index oldHas]
  exact dangerous_mem_events clean compared meets changed

variable (sameRoots : SameRoots oldDocument newDocument)

include sameRoots

theorem exists_field_of_examined {typeName : String}
    (examined : Examined options oldDocument newDocument typeName) {old : TypeDefinition}
    (found : oldDocument.type? typeName = some old) {fieldName : String} {oldField : Field}
    (selected : oldDocument.field? typeName fieldName = some oldField) :
    ∃ newField, newDocument.field? typeName fieldName = some newField ∧
      ∃ pair ∈ comparisons options oldDocument newDocument,
        MeetingField oldDocument newDocument pair.1 pair.2 ⟨old.name, old.kind⟩
          oldField newField := by
  cases examined with
  | @turnedTo _ newName compared notExempt =>
      have same := eq_of_mem_comparisons clean sameRoots compared
      subst same
      obtain ⟨newField, newSelected, meeting⟩ := exists_field_of_quiet
        (quiet_of_mem_comparisons clean compared) notExempt found selected
      exact ⟨newField, newSelected, _, compared, meeting⟩
  | @implemented name newName _ type compared notExempt objectFound inOld =>
      obtain ⟨resolved, new, newFound, keptNew⟩ := (quiet_script_iff _ _ _ _ _).mp
        (quiet_of_mem_comparisons clean compared) _ notExempt objectFound
      obtain ⟨newType, rfl, kept⟩ := keptNew.of_object
      obtain ⟨oldInterface, oldIs⟩ := Option.isSome_iff_exists.mp (resolved typeName inOld)
      obtain ⟨inNew, newInterface, newIs, keptInterface⟩ :=
        kept.interfaces typeName inOld oldInterface oldIs
      have oldAt := (interface?_eq_some_iff oldDocument typeName oldInterface).mp oldIs
      have newAt := (interface?_eq_some_iff newDocument typeName newInterface).mp newIs
      rw [oldAt] at found
      cases found
      unfold Document.field? at selected ⊢
      rw [oldAt] at selected
      obtain ⟨newField, newSelected, _⟩ := keptInterface.fields fieldName oldField selected
      refine ⟨newField, by simpa only [newAt] using newSelected, _, compared, ?_⟩
      exact ⟨notExempt, _, _, fieldName,
        .implemented objectFound newFound inOld oldIs inNew newIs, selected, newSelected⟩

theorem exists_inputObject_of_examined {typeName : String}
    (examined : Examined options oldDocument newDocument typeName) {old : InputObjectType}
    (found : oldDocument.type? typeName = some (.inputObject old)) :
    ∃ new, newDocument.type? typeName = some (.inputObject new) ∧
      DemandsKept (diff options oldDocument newDocument).events
        (fun name => ⟨old.name, some name, some .inputObject⟩) old.fields new.fields := by
  cases examined with
  | @turnedTo _ newName compared notExempt =>
      have same := eq_of_mem_comparisons clean sameRoots compared
      subst same
      obtain ⟨_, new, newFound, keptNew⟩ := (quiet_script_iff _ _ _ _ _).mp
        (quiet_of_mem_comparisons clean compared) _ notExempt found
      obtain ⟨newType, rfl, kept⟩ := keptNew.of_inputObject
      refine ⟨newType, newFound, kept.fields.demandsKept ?_⟩
      intro name before after oldHas newHas changed
      obtain ⟨reason, member⟩ := dangerous_mem_events clean compared
        (.inputField notExempt found newFound oldHas newHas) changed
      rw [NameMap.name_of_get?_index oldHas] at member
      exact ⟨reason, member⟩
  | @implemented name newName _ type compared notExempt objectFound inOld =>
      have resolved := ((quiet_script_iff _ _ _ _ _).mp
        (quiet_of_mem_comparisons clean compared) _ notExempt objectFound).1
      obtain ⟨oldInterface, oldIs⟩ := Option.isSome_iff_exists.mp (resolved typeName inOld)
      rw [interface?_eq_some_iff, found] at oldIs
      cases oldIs

end Clean

/-- Whatever the new schema requires, of a field or an input type that was examined, was required
before or has lost its default. -/
theorem demandsKept_of_examined (options : Options) (oldDocument newDocument : Document)
    (sameRoots : SameRoots oldDocument newDocument)
    (clean : (diff options oldDocument newDocument).breakingCount = .ok 0)
    (typeName : String) (examined : Examined options oldDocument newDocument typeName)
    (definition : TypeDefinition) (found : oldDocument.type? typeName = some definition) :
    (∀ fieldName oldField, oldDocument.field? typeName fieldName = some oldField →
      ∃ newField, newDocument.field? typeName fieldName = some newField ∧
        DemandsKept (diff options oldDocument newDocument).events
          (fun _ => ⟨definition.name, some fieldName, some definition.kind⟩)
          oldField.arguments newField.arguments) ∧
      ∀ old, definition = .inputObject old →
        ∃ new, newDocument.type? typeName = some (.inputObject new) ∧
          DemandsKept (diff options oldDocument newDocument).events
            (fun name => ⟨old.name, some name, some .inputObject⟩) old.fields new.fields := by
  constructor
  · intro fieldName oldField selected
    obtain ⟨newField, newSelected, pair, compared, meeting⟩ :=
      exists_field_of_examined clean sameRoots examined found selected
    have demands := demandsKept_of_meetingField clean compared meeting
    rw [Document.name_of_field? selected] at demands
    exact ⟨newField, newSelected, demands⟩
  · intro old isInput
    subst isInput
    exact exists_inputObject_of_examined clean sameRoots examined found

def pagedField (size : InputValue) : Field :=
  ⟨"items", .named "String", [size], []⟩

def pagedSchema (size : InputValue) : Document :=
  .rooted [.object ⟨"Root", [pagedField size], [], []⟩]

def sizeOrTen : InputValue :=
  ⟨"size", .nonNull (.named "Int"), some (.int "10"), []⟩

def anySize : InputValue :=
  { sizeOrTen with defaultValue? := none }

theorem clean_pagedSchema :
    (diff default (pagedSchema sizeOrTen) (pagedSchema anySize)).breakingCount = .ok 0 := by
  cbv

theorem examined_pagedSchema :
    Examined default (pagedSchema sizeOrTen) (pagedSchema anySize) "Root" := by
  have order : comparisons default (pagedSchema sizeOrTen) (pagedSchema anySize) =
      [("Root", "Root"), ("Int", "Int"), ("String", "String")] := by cbv
  apply Examined.turnedTo (order ▸ List.mem_cons_self)
  decide

theorem lostSize_dangerous :
    SameRoots (pagedSchema sizeOrTen) (pagedSchema anySize) ∧
      (diff default (pagedSchema sizeOrTen) (pagedSchema anySize)).breakingCount = .ok 0 ∧
      ∃ reason, Event.dangerous .different ⟨"Root", some "items", some .object⟩ ["size"] reason ∈
        (diff default (pagedSchema sizeOrTen) (pagedSchema anySize)).events := by
  have sameRoots : SameRoots (pagedSchema sizeOrTen) (pagedSchema anySize) := by decide
  refine ⟨sameRoots, clean_pagedSchema, ?_⟩
  have demands := demandsKept_of_examined default _ _ sameRoots clean_pagedSchema "Root"
    examined_pagedSchema _ rfl
  obtain ⟨newField, newSelected, kept⟩ := demands.1 "items" (pagedField sizeOrTen) rfl
  cases newSelected
  obtain ⟨before, oldFound, required | ⟨_, reported⟩⟩ := kept.required "size" anySize rfl rfl
  · cases oldFound
    cases required
  · exact reported

/-- Once its default is gone the size has to be supplied, and no break is reported. -/
theorem size_required_without_break :
    SameRoots (pagedSchema sizeOrTen) (pagedSchema anySize) ∧
      (diff default (pagedSchema sizeOrTen) (pagedSchema anySize)).breakingCount = .ok 0 ∧
      Examined default (pagedSchema sizeOrTen) (pagedSchema anySize) "Root" ∧
      (pagedSchema sizeOrTen).field? "Root" "items" = some (pagedField sizeOrTen) ∧
      (pagedSchema anySize).field? "Root" "items" = some (pagedField anySize) ∧
      sizeOrTen.isRequired = false ∧ anySize.isRequired = true ∧
      Complete (pagedField sizeOrTen).arguments (fun _ => False) ∧
      ¬Complete (pagedField anySize).arguments (fun _ => False) := by
  refine ⟨by decide, clean_pagedSchema, examined_pagedSchema, rfl, rfl, rfl, rfl, ?_, ?_⟩
  · intro name input found required
    cases List.mem_singleton.mp (NameMap.mem_of_get?_index found)
    cases required
  · intro complete
    exact complete "size" anySize rfl rfl

end Diff

end SchemaEvolution
