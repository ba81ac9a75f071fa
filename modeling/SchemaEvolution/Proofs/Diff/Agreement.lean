import Mathlib
import SchemaEvolution.Proofs.Diff.RequiredInputs
import SchemaEvolution.Proofs.TypeRef

/-!
Two schemas that are silent about each other. If neither comparison finds anything, not even
something dangerous, then the same names can be reached in both schemas, and the definitions of each
of them agree in all that a comparison looks at.
-/

namespace SchemaEvolution

/-- No name is on one side only, and items of one name agree. Of several items of one name the last
counts. -/
def AgreeByName {α : Type} (name : α → String) (agree : α → α → Prop) (left right : List α) : Prop :=
  ∀ key, Option.Rel agree ((NameMap.index name left).get? key) ((NameMap.index name right).get? key)

structure InputValue.Agrees (left right : InputValue) : Prop where
  type : left.type = right.type
  defaultValue? : left.defaultValue? = right.defaultValue?

structure Field.Agrees (left right : Field) : Prop where
  type : left.type = right.type
  arguments : AgreeByName InputValue.name InputValue.Agrees left.arguments right.arguments

/-- The definitions are of one kind and have the same members; directives are left aside. -/
def TypeDefinition.Agrees : TypeDefinition → TypeDefinition → Prop
  | .object left, .object right =>
      AgreeByName Field.name Field.Agrees left.fields right.fields ∧
        ∀ name, name ∈ left.interfaces ↔ name ∈ right.interfaces
  | .interface left, .interface right =>
      AgreeByName Field.name Field.Agrees left.fields right.fields
  | .union left, .union right => ∀ member, member ∈ left.members ↔ member ∈ right.members
  | .enum left, .enum right =>
      ∀ value, value ∈ left.values.map EnumValue.name ↔ value ∈ right.values.map EnumValue.name
  | .inputObject left, .inputObject right =>
      AgreeByName InputValue.name InputValue.Agrees left.fields right.fields
  | .scalar _, .scalar _ => True
  | _, _ => False

namespace Diff

def Trace.IsSilent (trace : Trace) : Prop :=
  trace.failure? = none ∧ ∀ event ∈ trace.events, event.isProgress = true

theorem Trace.IsSilent.breakingCount {trace : Trace} (silent : trace.IsSilent) :
    trace.breakingCount = .ok 0 := by
  refine (breakingCount_eq_ok_zero_iff_events trace).mpr ⟨silent.1, fun event member => ?_⟩
  exact Event.isBreaking_of_isProgress (silent.2 event member)

variable {options : Options} {oldDocument newDocument : Document}

theorem agreeByName_of_kept {α : Type} {name : α → String} {kept agree : α → α → Prop}
    {left right : List α} (forth : KeptByName name kept left right)
    (back : KeptByName name kept right left)
    (agreed : ∀ key leftItem rightItem, (NameMap.index name left).get? key = some leftItem →
      (NameMap.index name right).get? key = some rightItem →
      kept leftItem rightItem → kept rightItem leftItem → agree leftItem rightItem) :
    AgreeByName name agree left right := by
  intro key
  cases leftFound : (NameMap.index name left).get? key with
  | none =>
      cases rightFound : (NameMap.index name right).get? key with
      | none => exact .none
      | some rightItem =>
          obtain ⟨leftItem, found, _⟩ := back key rightItem rightFound
          rw [leftFound] at found
          cases found
  | some leftItem =>
      obtain ⟨rightItem, rightFound, keptForth⟩ := forth key leftItem leftFound
      obtain ⟨other, otherFound, keptBack⟩ := back key rightItem rightFound
      rw [leftFound] at otherFound
      cases otherFound
      rw [rightFound]
      exact .some (agreed key leftItem rightItem leftFound rightFound keptForth keptBack)

def DefaultsStay (old new : List InputValue) : Prop :=
  ∀ key before after, (NameMap.index InputValue.name old).get? key = some before →
    (NameMap.index InputValue.name new).get? key = some after →
    before.defaultValue? = after.defaultValue?

theorem agreeByName_of_keepsInputs {left right : List InputValue}
    (forth : KeepsInputs options left right) (back : KeepsInputs options right left)
    (defaults : DefaultsStay left right) :
    AgreeByName InputValue.name InputValue.Agrees left right := by
  apply agreeByName_of_kept forth.kept back.kept
  intro key leftInput rightInput leftFound rightFound keptForth keptBack
  exact ⟨TypeRef.eq_of_mismatch keptForth.type keptBack.type,
    defaults key leftInput rightInput leftFound rightFound⟩

theorem agreeByName_of_keepsFields {left right : List Field}
    (forth : KeptByName Field.name (KeepsField options) left right)
    (back : KeptByName Field.name (KeepsField options) right left)
    (defaults : ∀ key leftField rightField,
      (NameMap.index Field.name left).get? key = some leftField →
      (NameMap.index Field.name right).get? key = some rightField →
      DefaultsStay leftField.arguments rightField.arguments) :
    AgreeByName Field.name Field.Agrees left right := by
  apply agreeByName_of_kept forth back
  intro key leftField rightField leftFound rightFound keptForth keptBack
  exact ⟨TypeRef.eq_of_mismatch keptForth.type keptBack.type,
    agreeByName_of_keepsInputs keptForth.arguments keptBack.arguments
      (defaults key leftField rightField leftFound rightFound)⟩

theorem value_mem_of_keepsEnum {old new : EnumType} (kept : KeepsEnum options old new)
    {value : String} (member : value ∈ old.values.map EnumValue.name) :
    value ∈ new.values.map EnumValue.name := by
  obtain ⟨oldValue, inOld, rfl⟩ := List.mem_map.mp member
  obtain ⟨found, oldFound⟩ := NameMap.exists_get?_index EnumValue.name inOld
  obtain ⟨newValue, newFound, _⟩ := kept.values _ found oldFound
  exact NameMap.mem_map_of_get?_index newFound

theorem SameRoots.symm (sameRoots : SameRoots oldDocument newDocument) :
    SameRoots newDocument oldDocument :=
  fun operation newRoot oldRoot isNew isOld =>
    (sameRoots operation oldRoot newRoot isOld isNew).symm

section Silent

variable (silent : (diff options oldDocument newDocument).IsSilent)

include silent

theorem defaultValue?_eq_of_silent {oldName newName : String}
    (compared : (oldName, newName) ∈ comparisons options oldDocument newDocument)
    {location : Location} {old new : InputValue}
    (meeting : MeetingInput oldDocument newDocument oldName newName location old new) :
    old.defaultValue? = new.defaultValue? := by
  by_contra changed
  obtain ⟨reason, reported⟩ := dangerous_mem_events silent.breakingCount compared meeting changed
  have progress := silent.2 _ reported
  cases progress

theorem defaultsStay_of_meetingField {oldName newName : String}
    (compared : (oldName, newName) ∈ comparisons options oldDocument newDocument)
    {owner : Owner} {old new : Field}
    (meeting : MeetingField oldDocument newDocument oldName newName owner old new) :
    DefaultsStay old.arguments new.arguments := by
  intro key before after oldHas newHas
  have kept := meeting.keeps (quiet_of_mem_comparisons silent.breakingCount compared)
  exact defaultValue?_eq_of_silent silent compared
    (.argument meeting kept.arguments.kept.size_le oldHas newHas)

/-- Definitions of one name that are compared in silence agree if they keep each other. -/
theorem agrees_of_silent {name : String} {old new : TypeDefinition}
    (compared : (name, name) ∈ comparisons options oldDocument newDocument)
    (notExempt : isExempt name = false) (oldFound : oldDocument.type? name = some old)
    (newFound : newDocument.type? name = some new)
    (forth : KeepsDefinition options oldDocument newDocument old new)
    (oldResolved : ResolvesInterfaces oldDocument old)
    (back : KeepsDefinition options newDocument oldDocument new old)
    (newResolved : ResolvesInterfaces newDocument new) : old.Agrees new := by
  have defaultsOf {owner : Owner} {oldFields newFields : List Field}
      (meeting : MeetingFields oldDocument newDocument name name owner oldFields newFields)
      (key : String) (oldField newField : Field)
      (oldHas : (NameMap.index Field.name oldFields).get? key = some oldField)
      (newHas : (NameMap.index Field.name newFields).get? key = some newField) :
      DefaultsStay oldField.arguments newField.arguments :=
    defaultsStay_of_meetingField silent compared
      ⟨notExempt, oldFields, newFields, key, meeting, oldHas, newHas⟩
  cases old with
  | object oldType =>
      obtain ⟨newType, rfl, keptForth⟩ := forth.of_object
      have keptBack : KeepsObject options newDocument oldDocument newType oldType := back
      refine ⟨?_, fun implemented => ⟨fun inOld => ?_, fun inNew => ?_⟩⟩
      · exact agreeByName_of_keepsFields keptForth.fields keptBack.fields
          (defaultsOf (.object oldFound newFound))
      · obtain ⟨interface, isInterface⟩ := Option.isSome_iff_exists.mp (oldResolved _ inOld)
        exact (keptForth.interfaces _ inOld interface isInterface).1
      · obtain ⟨interface, isInterface⟩ := Option.isSome_iff_exists.mp (newResolved _ inNew)
        exact (keptBack.interfaces _ inNew interface isInterface).1
  | interface oldType =>
      obtain ⟨newType, rfl, keptForth⟩ := forth.of_interface
      have keptBack : KeepsInterface options newType oldType := back
      exact agreeByName_of_keepsFields keptForth.fields keptBack.fields
        (defaultsOf (.interface oldFound newFound))
  | union oldType =>
      obtain ⟨newType, rfl, keptForth⟩ := forth.of_union
      have keptBack : KeepsUnion options newType oldType := back
      exact fun member => ⟨keptForth.members member, keptBack.members member⟩
  | enum oldType =>
      obtain ⟨newType, rfl, keptForth⟩ := forth.of_enum
      have keptBack : KeepsEnum options newType oldType := back
      exact fun value => ⟨value_mem_of_keepsEnum keptForth, value_mem_of_keepsEnum keptBack⟩
  | scalar oldType =>
      obtain ⟨newType, rfl, _⟩ := forth.of_scalar
      trivial
  | inputObject oldType =>
      obtain ⟨newType, rfl, keptForth⟩ := forth.of_inputObject
      have keptBack : KeepsInputObject options newType oldType := back
      apply agreeByName_of_keepsInputs keptForth.fields keptBack.fields
      intro key before after oldHas newHas
      exact defaultValue?_eq_of_silent silent compared
        (.inputField notExempt oldFound newFound oldHas newHas)

end Silent

/-- If both comparisons of two schemas are silent, the schemas offer the same operations, and each
name that can be reached in one can be reached in the other and is defined alike, or nowhere. -/
theorem reachable_agrees_of_silent (options : Options) (left right : Document)
    (sameRoots : SameRoots left right) (forth : (diff options left right).IsSilent)
    (back : (diff options right left).IsSilent) :
    (∀ operation, left.root? operation = right.root? operation) ∧
      ∀ name, left.Reachable name → right.Reachable name ∧
        Option.Rel TypeDefinition.Agrees (left.type? name) (right.type? name) := by
  constructor
  · intro operation
    cases isLeft : left.root? operation with
    | none =>
        cases isRight : right.root? operation with
        | none => rfl
        | some root =>
            have offered := root?_isSome_of_clean back.breakingCount operation (by simp [isRight])
            simp [isLeft] at offered
    | some leftRoot =>
        obtain ⟨rightRoot, isRight⟩ := Option.isSome_iff_exists.mp
          (root?_isSome_of_clean forth.breakingCount operation (by simp [isLeft]))
        rw [isRight, sameRoots operation leftRoot rightRoot isLeft isRight]
  · intro name reachable
    have reachableBack := reachable_of_clean forth.breakingCount sameRoots reachable
    refine ⟨reachableBack, ?_⟩
    have fromRight {definition : TypeDefinition} (found : right.type? name = some definition) :=
      exists_kept_of_reachable back.breakingCount sameRoots.symm reachableBack found
    cases leftFound : left.type? name with
    | none =>
        cases rightFound : right.type? name with
        | none => exact .none
        | some definition =>
            obtain ⟨_, other, otherFound, _⟩ := fromRight rightFound
            rw [leftFound] at otherFound
            cases otherFound
    | some leftType =>
        obtain ⟨leftResolved, rightType, rightFound, keptForth⟩ :=
          exists_kept_of_reachable forth.breakingCount sameRoots reachable leftFound
        obtain ⟨rightResolved, other, otherFound, keptBack⟩ := fromRight rightFound
        rw [leftFound] at otherFound
        cases otherFound
        rw [rightFound]
        exact .some (agrees_of_silent forth
          (mem_comparisons_of_reachable forth.breakingCount sameRoots reachable)
          reachable.isExempt_eq_false leftFound rightFound keptForth leftResolved keptBack
          rightResolved)

def toneField : Field :=
  ⟨"tone", .list (.named "Hue"), [⟨"size", .named "Int", some (.int "3"), []⟩], []⟩

def paintSchema : Document :=
  .rooted [.object ⟨"Root", [⟨"id", .named "ID", [], []⟩, toneField], [], []⟩,
    .enum ⟨"Hue", [⟨"RED", []⟩, ⟨"BLUE", []⟩], []⟩]

def repaintSchema : Document :=
  .rooted [.object ⟨"Root", [toneField, ⟨"id", .named "Int", [], []⟩, ⟨"id", .named "ID", [], []⟩],
      [], []⟩,
    .enum ⟨"Hue", [⟨"BLUE", []⟩, ⟨"RED", []⟩], []⟩, .scalar ⟨"Void", []⟩]

theorem repaint_agrees :
    SameRoots paintSchema repaintSchema ∧ (diff default paintSchema repaintSchema).IsSilent ∧
      (diff default repaintSchema paintSchema).IsSilent ∧
      paintSchema.Reachable "Root" ∧ paintSchema.Reachable "Hue" ∧
      Option.Rel TypeDefinition.Agrees (paintSchema.type? "Root") (repaintSchema.type? "Root") ∧
      Option.Rel TypeDefinition.Agrees (paintSchema.type? "Hue") (repaintSchema.type? "Hue") := by
  have sameRoots : SameRoots paintSchema repaintSchema := by decide
  have forth : (diff default paintSchema repaintSchema).IsSilent := by
    have finished : (diff default paintSchema repaintSchema).failure? = none := by cbv
    have progress : (diff default paintSchema repaintSchema).events.all Event.isProgress = true := by
      cbv
    exact ⟨finished, List.all_eq_true.mp progress⟩
  have back : (diff default repaintSchema paintSchema).IsSilent := by
    have finished : (diff default repaintSchema paintSchema).failure? = none := by cbv
    have progress : (diff default repaintSchema paintSchema).events.all Event.isProgress = true := by
      cbv
    exact ⟨finished, List.all_eq_true.mp progress⟩
  have isRoot : paintSchema.root? .query = some "Root" := rfl
  have root : paintSchema.Reachable "Root" := .root isRoot rfl (by decide)
  have refers : paintSchema.RefersTo "Root" "Hue" :=
    @Document.RefersTo.field _ _ _ "tone" toneField (.object rfl) rfl
  have hue : paintSchema.Reachable "Hue" := .step root refers (by decide)
  have agreed := (reachable_agrees_of_silent default paintSchema repaintSchema sameRoots forth
    back).2
  exact ⟨sameRoots, forth, back, root, hue, (agreed _ root).2, (agreed _ hue).2⟩

end Diff

end SchemaEvolution
