import Mathlib
import SchemaEvolution.Proofs.Diff.RequiredInputs
import SchemaEvolution.Proofs.TypeRef

/-!
Upgrades one after another. What a definition has to keep of an old one it still keeps after a
second upgrade, as long as there are no default values: a new input may be required of nobody
because it has a default, and a later upgrade may take the default away. Whatever can be reached in
the first schema can be reached on the way, so two upgrades without a break make one.
-/

namespace SchemaEvolution

def TypeDefinition.inputs : TypeDefinition → List InputValue
  | object type => type.fields.flatMap Field.arguments
  | interface type => type.fields.flatMap Field.arguments
  | inputObject type => type.fields
  | union _ | enum _ | scalar _ => []

def Document.HasNoDefaults (document : Document) : Prop :=
  ∀ definition ∈ document.types.values, ∀ input ∈ definition.inputs, input.defaultValue? = none

instance (document : Document) : Decidable document.HasNoDefaults :=
  inferInstanceAs (Decidable (∀ definition ∈ document.types.values, ∀ input ∈ definition.inputs,
    input.defaultValue? = none))

namespace Diff

variable {options : Options} {first second third : Document}

theorem KeepsArguments.trans {old middle new : Directive} (toMiddle : KeepsArguments old middle)
    (toNew : KeepsArguments middle new) : KeepsArguments old new := by
  intro argument value found
  obtain ⟨middleValue, middleFound, middleKind⟩ := toMiddle argument value found
  obtain ⟨newValue, newFound, newKind⟩ := toNew argument middleValue middleFound
  exact ⟨newValue, newFound, newKind.trans middleKind⟩

theorem KeepsDirectives.trans {old middle new : List Directive}
    (toMiddle : KeepsDirectives options old middle) (toNew : KeepsDirectives options middle new) :
    KeepsDirectives options old new :=
  fun enforced => (toMiddle enforced).trans (toNew enforced) fun _ _ _ _ _ => KeepsArguments.trans

theorem KeepsInput.trans {old middle new : InputValue} (noDefault : old.defaultValue? = none)
    (toMiddle : KeepsInput options old middle) (toNew : KeepsInput options middle new) :
    KeepsInput options old new where
  type := TypeRef.mismatch_trans toMiddle.type toNew.type
  defaultKind := by
    intro oldValue newValue oldDefault
    rw [noDefault] at oldDefault
    cases oldDefault
  directives := toMiddle.directives.trans toNew.directives

theorem KeepsInputs.trans {old middle new : List InputValue}
    (oldPlain : ∀ input ∈ old, input.defaultValue? = none)
    (middlePlain : ∀ input ∈ middle, input.defaultValue? = none)
    (toMiddle : KeepsInputs options old middle) (toNew : KeepsInputs options middle new) :
    KeepsInputs options old new where
  kept := toMiddle.kept.trans toNew.kept fun oldInput inOld _ _ _ =>
    KeepsInput.trans (oldPlain oldInput inOld)
  added := by
    intro name input found absent
    cases middleFound : (NameMap.index InputValue.name middle).get? name with
    | none => exact toNew.added name input found middleFound
    | some middleInput =>
        have free := toMiddle.added name middleInput middleFound absent
        have plain := middlePlain middleInput (NameMap.mem_of_get?_index middleFound)
        obtain ⟨other, otherFound, kept⟩ := toNew.kept name middleInput middleFound
        rw [found] at otherFound
        cases otherFound
        have nullable : input.type.isNonNull = false := by
          by_contra mark
          have middleMark := TypeRef.isNonNull_of_mismatch kept.type (by simpa using mark)
          simp [InputValue.isRequired, middleMark, plain] at free
        simp [InputValue.isRequired, nullable]

theorem keepsFields_trans {old middle new : List Field}
    (oldPlain : ∀ input ∈ old.flatMap Field.arguments, input.defaultValue? = none)
    (middlePlain : ∀ input ∈ middle.flatMap Field.arguments, input.defaultValue? = none)
    (toMiddle : KeptByName Field.name (KeepsField options) old middle)
    (toNew : KeptByName Field.name (KeepsField options) middle new) :
    KeptByName Field.name (KeepsField options) old new := by
  apply toMiddle.trans toNew
  intro oldField inOld middleField inMiddle newField keptFirst keptThen
  refine ⟨TypeRef.mismatch_trans keptFirst.type keptThen.type, ?_,
    keptFirst.directives.trans keptThen.directives⟩
  apply keptFirst.arguments.trans _ _ keptThen.arguments
  · exact fun input member => oldPlain input (List.mem_flatMap.mpr ⟨oldField, inOld, member⟩)
  · exact fun input member =>
      middlePlain input (List.mem_flatMap.mpr ⟨middleField, inMiddle, member⟩)

theorem KeepsInterface.trans {old middle new : InterfaceType}
    (oldPlain : ∀ input ∈ (TypeDefinition.interface old).inputs, input.defaultValue? = none)
    (middlePlain : ∀ input ∈ (TypeDefinition.interface middle).inputs, input.defaultValue? = none)
    (toMiddle : KeepsInterface options old middle) (toNew : KeepsInterface options middle new) :
    KeepsInterface options old new where
  fields := keepsFields_trans oldPlain middlePlain toMiddle.fields toNew.fields
  directives := toMiddle.directives.trans toNew.directives

theorem noDefaults_of_type? {document : Document} (plain : document.HasNoDefaults) {name : String}
    {definition : TypeDefinition} (found : document.type? name = some definition) :
    ∀ input ∈ definition.inputs, input.defaultValue? = none :=
  plain definition (NameMap.mem_values_of_get? found)

theorem KeepsObject.trans {old middle new : ObjectType} (firstPlain : first.HasNoDefaults)
    (secondPlain : second.HasNoDefaults)
    (oldPlain : ∀ input ∈ (TypeDefinition.object old).inputs, input.defaultValue? = none)
    (middlePlain : ∀ input ∈ (TypeDefinition.object middle).inputs, input.defaultValue? = none)
    (toMiddle : KeepsObject options first second old middle)
    (toNew : KeepsObject options second third middle new) :
    KeepsObject options first third old new where
  fields := keepsFields_trans oldPlain middlePlain toMiddle.fields toNew.fields
  interfaces := by
    intro name inOld oldInterface isOld
    obtain ⟨inMiddle, middleInterface, isMiddle, keptFirst⟩ :=
      toMiddle.interfaces name inOld oldInterface isOld
    obtain ⟨inNew, newInterface, isNew, keptThen⟩ :=
      toNew.interfaces name inMiddle middleInterface isMiddle
    refine ⟨inNew, newInterface, isNew, keptFirst.trans ?_ ?_ keptThen⟩
    · exact noDefaults_of_type? firstPlain ((interface?_eq_some_iff _ _ _).mp isOld)
    · exact noDefaults_of_type? secondPlain ((interface?_eq_some_iff _ _ _).mp isMiddle)
  directives := toMiddle.directives.trans toNew.directives

/-- What two upgrades in a row keep of a definition, they keep together. -/
theorem KeepsDefinition.trans {name : String} {old middle new : TypeDefinition}
    (firstPlain : first.HasNoDefaults) (secondPlain : second.HasNoDefaults)
    (oldFound : first.type? name = some old) (middleFound : second.type? name = some middle)
    (toMiddle : KeepsDefinition options first second old middle)
    (toNew : KeepsDefinition options second third middle new) :
    KeepsDefinition options first third old new := by
  have oldPlain := noDefaults_of_type? firstPlain oldFound
  have middlePlain := noDefaults_of_type? secondPlain middleFound
  cases old <;> cases middle <;> try exact toMiddle.elim
  case object.object old middle =>
    obtain ⟨newType, rfl, keptThen⟩ := toNew.of_object
    exact KeepsObject.trans firstPlain secondPlain oldPlain middlePlain toMiddle keptThen
  case interface.interface old middle =>
    obtain ⟨newType, rfl, keptThen⟩ := toNew.of_interface
    exact KeepsInterface.trans oldPlain middlePlain toMiddle keptThen
  case union.union old middle =>
    obtain ⟨newType, rfl, keptThen⟩ := toNew.of_union
    have keptFirst : KeepsUnion options old middle := toMiddle
    exact ⟨fun member inOld => keptThen.members member (keptFirst.members member inOld),
      keptFirst.directives.trans keptThen.directives⟩
  case enum.enum old middle =>
    obtain ⟨newType, rfl, keptThen⟩ := toNew.of_enum
    have keptFirst : KeepsEnum options old middle := toMiddle
    exact ⟨keptFirst.values.trans keptThen.values fun _ _ _ _ _ => KeepsDirectives.trans,
      keptFirst.directives.trans keptThen.directives⟩
  case inputObject.inputObject old middle =>
    obtain ⟨newType, rfl, keptThen⟩ := toNew.of_inputObject
    have keptFirst : KeepsInputObject options old middle := toMiddle
    exact ⟨keptFirst.fields.trans oldPlain middlePlain keptThen.fields,
      keptFirst.directives.trans keptThen.directives⟩
  case scalar.scalar old middle =>
    obtain ⟨newType, rfl, keptThen⟩ := toNew.of_scalar
    exact KeepsDirectives.trans toMiddle keptThen

theorem SameRoots.trans (toSecond : SameRoots first second) (toThird : SameRoots second third)
    (offered : ∀ operation, (first.root? operation).isSome → (second.root? operation).isSome) :
    SameRoots first third := by
  intro operation firstRoot thirdRoot isFirst isThird
  obtain ⟨secondRoot, isSecond⟩ :=
    Option.isSome_iff_exists.mp (offered operation (by simp [isFirst]))
  exact (toSecond operation firstRoot secondRoot isFirst isSecond).trans
    (toThird operation secondRoot thirdRoot isSecond isThird)

/-- Two upgrades without a break make one, if the first two schemas have no default values. -/
theorem breakingCount_eq_ok_zero_trans (options : Options) (first second third : Document)
    (firstPlain : first.HasNoDefaults) (secondPlain : second.HasNoDefaults)
    (rootsToSecond : SameRoots first second) (rootsToThird : SameRoots second third)
    (toSecond : (diff options first second).breakingCount = .ok 0)
    (toThird : (diff options second third).breakingCount = .ok 0) :
    (diff options first third).breakingCount = .ok 0 := by
  have offered := root?_isSome_of_clean toSecond
  apply breakingCount_eq_ok_zero_of_quiet (rootsToSecond.trans rootsToThird offered)
  · exact fun operation isSome => root?_isSome_of_clean toThird operation (offered operation isSome)
  · intro name reachable
    rw [quiet_script_iff]
    intro old _ oldFound
    obtain ⟨resolved, middle, middleFound, keptFirst⟩ :=
      exists_kept_of_reachable toSecond rootsToSecond reachable oldFound
    have reachableThen := reachable_of_clean toSecond rootsToSecond reachable
    obtain ⟨_, new, newFound, keptThen⟩ :=
      exists_kept_of_reachable toThird rootsToThird reachableThen middleFound
    exact ⟨resolved, new, newFound,
      keptFirst.trans firstPlain secondPlain oldFound middleFound keptThen⟩

def sizeInput : InputValue :=
  ⟨"size", .named "Int", none, []⟩

def shelfSchema (itemType : TypeRef) (inputs : List InputValue) (idType : TypeRef) : Document :=
  .rooted [.object ⟨"Root", [⟨"item", itemType, inputs, []⟩], [], []⟩,
    .object ⟨"Item", [⟨"id", idType, [], []⟩], [], []⟩]

theorem looserShelf_clean :
    let first := shelfSchema (.nonNull (.named "Item")) [] (.nonNull (.named "ID"))
    let second := shelfSchema (.named "Item") [sizeInput] (.nonNull (.named "ID"))
    let third := shelfSchema (.named "Item") [sizeInput] (.named "ID")
    first.HasNoDefaults ∧ second.HasNoDefaults ∧ SameRoots first second ∧ SameRoots second third ∧
      (diff default first second).breakingCount = .ok 0 ∧
      (diff default second third).breakingCount = .ok 0 ∧
      (diff default first third).breakingCount = .ok 0 := by
  intro first second third
  have firstPlain : first.HasNoDefaults := by decide
  have secondPlain : second.HasNoDefaults := by decide
  have rootsToSecond : SameRoots first second := by decide
  have rootsToThird : SameRoots second third := by decide
  have toSecond : (diff default first second).breakingCount = .ok 0 := by cbv
  have toThird : (diff default second third).breakingCount = .ok 0 := by cbv
  exact ⟨firstPlain, secondPlain, rootsToSecond, rootsToThird, toSecond, toThird,
    breakingCount_eq_ok_zero_trans default first second third firstPlain secondPlain rootsToSecond
      rootsToThird toSecond toThird⟩

end Diff

end SchemaEvolution
