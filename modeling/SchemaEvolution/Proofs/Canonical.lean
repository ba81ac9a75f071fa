import Mathlib.Data.List.Basic
import Mathlib.Order.Compare
import SchemaEvolution.Fingerprint.Canonical
import SchemaEvolution.Proofs.JsonText
import SchemaEvolution.Proofs.SortedSet

/-!
What a canonical text tells: the whole canonical form. The orders of forms tell all forms apart, so
that a set holds each form that was put into it, and the JSON of a form leaves out only what can be
told from its absence.
-/

namespace SchemaEvolution

theorem eq_of_compareOn {α β : Type} [Ord β] [Std.LawfulEqOrd β] {read : α → β} {left right : α}
    (equal : compareOn read left right = .eq) : read left = read right :=
  Std.LawfulEqCmp.eq_of_compare equal

instance {α : Type} [Ord α] [Std.TransOrd α] [Std.LawfulEqOrd α] :
    Std.LawfulEqOrd (SortedSet α) where
  eq_of_compare equal := SortedSet.eq_of_elements (eq_of_compareOn equal)

namespace Canonical

attribute [ext] Argument Directive InputValue Field EnumValue TypeForm DocumentForm

instance : Std.LawfulEqOrd Argument where
  eq_of_compare equal := by
    obtain ⟨name, text⟩ := compareLex_eq_eq.mp equal
    exact Argument.ext (eq_of_compareOn name) (eq_of_compareOn text)

instance : Std.LawfulEqOrd Directive where
  eq_of_compare equal := by
    obtain ⟨name, arguments⟩ := compareLex_eq_eq.mp equal
    exact Directive.ext (eq_of_compareOn name) (eq_of_compareOn arguments)

instance : Std.LawfulEqOrd InputValue where
  eq_of_compare equal := by
    obtain ⟨name, behindName⟩ := compareLex_eq_eq.mp equal
    obtain ⟨type, behindType⟩ := compareLex_eq_eq.mp behindName
    obtain ⟨defaultText, directives⟩ := compareLex_eq_eq.mp behindType
    exact InputValue.ext (eq_of_compareOn name) (eq_of_compareOn type)
      (eq_of_compareOn defaultText) (eq_of_compareOn directives)

instance : Std.LawfulEqOrd Field where
  eq_of_compare equal := by
    obtain ⟨name, behindName⟩ := compareLex_eq_eq.mp equal
    obtain ⟨type, behindType⟩ := compareLex_eq_eq.mp behindName
    obtain ⟨arguments, directives⟩ := compareLex_eq_eq.mp behindType
    exact Field.ext (eq_of_compareOn name) (eq_of_compareOn type) (eq_of_compareOn arguments)
      (eq_of_compareOn directives)

instance : Std.LawfulEqOrd EnumValue where
  eq_of_compare equal := by
    obtain ⟨name, directives⟩ := compareLex_eq_eq.mp equal
    exact EnumValue.ext (eq_of_compareOn name) (eq_of_compareOn directives)

instance : Std.LawfulEqOrd TypeForm where
  eq_of_compare equal := by
    obtain ⟨name, behindName⟩ := compareLex_eq_eq.mp equal
    obtain ⟨kind, behindKind⟩ := compareLex_eq_eq.mp behindName
    obtain ⟨fields, behindFields⟩ := compareLex_eq_eq.mp behindKind
    obtain ⟨interfaces, behindInterfaces⟩ := compareLex_eq_eq.mp behindFields
    obtain ⟨members, behindMembers⟩ := compareLex_eq_eq.mp behindInterfaces
    obtain ⟨values, behindValues⟩ := compareLex_eq_eq.mp behindMembers
    obtain ⟨inputFields, directives⟩ := compareLex_eq_eq.mp behindValues
    exact TypeForm.ext (eq_of_compareOn name) (eq_of_compareOn kind) (eq_of_compareOn fields)
      (eq_of_compareOn interfaces) (eq_of_compareOn members) (eq_of_compareOn values)
      (eq_of_compareOn inputFields) (eq_of_compareOn directives)

section Members

variable {α : Type} [Ord α] {encode : α → Json} {leftRest rightRest : List (String × Json)}

def Lacks (name : String) (members : List (String × Json)) : Prop :=
  ∀ member ∈ members, member.1 ≠ name

@[simp]
theorem lacks_nil (name : String) : Lacks name [] :=
  fun _ member => absurd member List.not_mem_nil

@[simp]
theorem lacks_append_iff (name : String) (first second : List (String × Json)) :
    Lacks name (first ++ second) ↔ Lacks name first ∧ Lacks name second := by
  simp only [Lacks, List.mem_append, or_imp, forall_and]

@[simp]
theorem lacks_setMember {name other : String} (different : other ≠ name) (set : SortedSet α) :
    Lacks name (setMember other encode set) := by
  unfold setMember
  split
  · exact lacks_nil name
  · intro member isMember
    cases List.mem_singleton.mp isMember
    exact different

@[simp]
theorem lacks_textMember {name other : String} (different : other ≠ name)
    (text? : Option String) : Lacks name (textMember other text?) := by
  cases text? with
  | none => exact lacks_nil name
  | some text =>
      intro member isMember
      cases List.mem_singleton.mp isMember
      exact different

/-- A set can be told from its member, also from the absence of it, if the members behind it bear
other names. -/
theorem setMember_append_inj (injective : Function.Injective encode) {name : String}
    {left right : SortedSet α} (leftOther : Lacks name leftRest)
    (rightOther : Lacks name rightRest)
    (same : setMember name encode left ++ leftRest = setMember name encode right ++ rightRest) :
    left = right ∧ leftRest = rightRest := by
  obtain ⟨lefts, leftAscend⟩ := left
  obtain ⟨rights, rightAscend⟩ := right
  cases lefts with
  | nil =>
      cases rights with
      | nil => exact ⟨rfl, same⟩
      | cons right rights =>
          change leftRest = (name, _) :: rightRest at same
          exact absurd rfl (leftOther _ (same ▸ List.mem_cons_self))
  | cons left lefts =>
      cases rights with
      | nil =>
          change (name, _) :: leftRest = rightRest at same
          exact absurd rfl (rightOther _ (same ▸ List.mem_cons_self))
      | cons right rights =>
          change (name, Json.ofList encode (left :: lefts)) :: leftRest =
            (name, Json.ofList encode (right :: rights)) :: rightRest at same
          obtain ⟨member, behind⟩ := List.cons.inj same
          simp only [Prod.mk.injEq, true_and, Json.ofList, Json.array.injEq] at member
          exact ⟨SortedSet.eq_of_elements (List.map_injective_iff.mpr injective member), behind⟩

theorem setMember_inj (injective : Function.Injective encode) {name : String}
    {left right : SortedSet α}
    (same : setMember name encode left = setMember name encode right) : left = right :=
  (setMember_append_inj injective (lacks_nil name) (lacks_nil name) (congrArg (· ++ []) same)).1

theorem textMember_append_inj {name : String} {left right : Option String}
    (leftOther : Lacks name leftRest) (rightOther : Lacks name rightRest)
    (same : textMember name left ++ leftRest = textMember name right ++ rightRest) :
    left = right ∧ leftRest = rightRest := by
  cases left with
  | none =>
      cases right with
      | none => exact ⟨rfl, same⟩
      | some right =>
          change leftRest = (name, _) :: rightRest at same
          exact absurd rfl (leftOther _ (same ▸ List.mem_cons_self))
  | some left =>
      cases right with
      | none =>
          change (name, _) :: leftRest = rightRest at same
          exact absurd rfl (rightOther _ (same ▸ List.mem_cons_self))
      | some right =>
          cases same
          exact ⟨rfl, rfl⟩

end Members

theorem json_string_injective : Function.Injective Json.string :=
  fun _ _ same => Json.string.inj same

theorem Directive.toJson_injective : Function.Injective Directive.toJson := by
  have pair_injective : Function.Injective fun argument : Argument =>
      (argument.name, Json.string argument.text) := by
    intro left right same
    simp only [Prod.mk.injEq, Json.string.injEq] at same
    exact Argument.ext same.1 same.2
  rintro ⟨leftName, leftArguments⟩ ⟨rightName, rightArguments⟩ same
  simp only [Directive.toJson, Json.object.injEq, List.cons.injEq, Prod.mk.injEq, true_and,
    Json.string.injEq] at same
  obtain ⟨rfl, behind⟩ := same
  cases leftArguments with
  | nil =>
      cases rightArguments with
      | nil => rfl
      | cons right rights => cases behind
  | cons left lefts =>
      cases rightArguments with
      | nil => cases behind
      | cons right rights =>
          change [("arguments", Json.object ((left :: lefts).map _))] =
            [("arguments", Json.object ((right :: rights).map _))] at behind
          simp only [List.cons.injEq, Prod.mk.injEq, true_and, and_true, Json.object.injEq]
            at behind
          rw [List.map_injective_iff.mpr pair_injective behind]

theorem InputValue.toJson_injective : Function.Injective InputValue.toJson := by
  intro left right same
  -- A default value that is left out cannot be taken for directives, as the names tell them apart.
  simp only [InputValue.toJson, Json.object.injEq, List.cons_append,
    List.nil_append, List.cons.injEq, Prod.mk.injEq, true_and, Json.string.injEq] at same
  obtain ⟨name, type, behindType⟩ := same
  obtain ⟨defaultText, behindDefault⟩ := textMember_append_inj (by simp) (by simp) behindType
  exact InputValue.ext name type defaultText (setMember_inj Directive.toJson_injective behindDefault)

theorem Field.toJson_injective : Function.Injective Field.toJson := by
  intro left right same
  simp only [Field.toJson, Json.object.injEq, List.cons_append,
    List.nil_append, List.cons.injEq, Prod.mk.injEq, true_and, Json.string.injEq] at same
  obtain ⟨name, type, behindType⟩ := same
  obtain ⟨arguments, behindArguments⟩ := setMember_append_inj InputValue.toJson_injective
    (by simp) (by simp) behindType
  exact Field.ext name type arguments (setMember_inj Directive.toJson_injective behindArguments)

theorem EnumValue.toJson_injective : Function.Injective EnumValue.toJson := by
  intro left right same
  simp only [EnumValue.toJson, Json.object.injEq, List.cons_append,
    List.nil_append, List.cons.injEq, Prod.mk.injEq, true_and, Json.string.injEq] at same
  obtain ⟨name, behindName⟩ := same
  exact EnumValue.ext name (setMember_inj Directive.toJson_injective behindName)

theorem TypeForm.toJson_injective : Function.Injective TypeForm.toJson := by
  intro left right same
  simp only [TypeForm.toJson, Json.object.injEq, List.append_assoc, List.cons_append,
    List.nil_append, List.cons.injEq, Prod.mk.injEq, true_and, Json.string.injEq] at same
  obtain ⟨name, kind, behindKind⟩ := same
  obtain ⟨fields, behindFields⟩ := setMember_append_inj Field.toJson_injective
    (by simp) (by simp) behindKind
  obtain ⟨interfaces, behindInterfaces⟩ := setMember_append_inj json_string_injective
    (by simp) (by simp) behindFields
  obtain ⟨members, behindMembers⟩ := setMember_append_inj json_string_injective
    (by simp) (by simp) behindInterfaces
  obtain ⟨values, behindValues⟩ := setMember_append_inj EnumValue.toJson_injective
    (by simp) (by simp) behindMembers
  obtain ⟨inputFields, behindInputFields⟩ := setMember_append_inj InputValue.toJson_injective
    (by simp) (by simp) behindValues
  exact TypeForm.ext name kind fields interfaces members values inputFields
    (setMember_inj Directive.toJson_injective behindInputFields)

theorem DocumentForm.toJson_injective : Function.Injective DocumentForm.toJson := by
  intro left right same
  simp only [DocumentForm.toJson, Json.object.injEq, List.append_assoc] at same
  obtain ⟨queryType, behindQuery⟩ := textMember_append_inj
    (by simp) (by simp) same
  obtain ⟨mutationType, behindMutation⟩ := textMember_append_inj
    (by simp) (by simp) behindQuery
  obtain ⟨subscriptionType, behindSubscription⟩ := textMember_append_inj
    (by simp) (by simp) behindMutation
  exact DocumentForm.ext queryType mutationType subscriptionType
    (setMember_inj TypeForm.toJson_injective behindSubscription)

section Numberless

theorem itemsNumberless_map {α : Type} {encode : α → Json}
    (plain : ∀ item, (encode item).isNumberless = true) (items : List α) :
    Json.itemsNumberless (items.map encode) = true := by
  induction items with
  | nil => rfl
  | cons item rest ih => simp [Json.itemsNumberless, plain, ih]

theorem membersNumberless_append (first second : List (String × Json)) :
    Json.membersNumberless (first ++ second) =
      (Json.membersNumberless first && Json.membersNumberless second) := by
  induction first with
  | nil => rfl
  | cons member rest ih => simp [Json.membersNumberless, ih, Bool.and_assoc]

theorem membersNumberless_setMember {α : Type} [Ord α] {encode : α → Json}
    (plain : ∀ item, (encode item).isNumberless = true) (name : String) (set : SortedSet α) :
    Json.membersNumberless (setMember name encode set) = true := by
  unfold setMember
  split
  · rfl
  · simp [Json.membersNumberless, Json.ofList, Json.isNumberless, itemsNumberless_map plain]

theorem membersNumberless_textMember (name : String) (text? : Option String) :
    Json.membersNumberless (textMember name text?) = true := by
  cases text? <;> rfl

theorem Directive.isNumberless_toJson (directive : Directive) :
    directive.toJson.isNumberless = true := by
  have arguments (items : List Argument) : Json.membersNumberless (items.map fun argument =>
      (argument.name, Json.string argument.text)) = true := by
    induction items with
    | nil => rfl
    | cons item rest ih => simp [Json.membersNumberless, Json.isNumberless, ih]
  unfold toJson
  split <;> simp [Json.isNumberless, Json.membersNumberless, arguments]

theorem InputValue.isNumberless_toJson (input : InputValue) :
    input.toJson.isNumberless = true := by
  simp [toJson, Json.isNumberless, Json.membersNumberless, membersNumberless_append,
    membersNumberless_textMember, membersNumberless_setMember Directive.isNumberless_toJson]

theorem Field.isNumberless_toJson (field : Field) : field.toJson.isNumberless = true := by
  simp [toJson, Json.isNumberless, Json.membersNumberless, membersNumberless_append,
    membersNumberless_setMember InputValue.isNumberless_toJson,
    membersNumberless_setMember Directive.isNumberless_toJson]

theorem EnumValue.isNumberless_toJson (value : EnumValue) : value.toJson.isNumberless = true := by
  simp [toJson, Json.isNumberless, Json.membersNumberless,
    membersNumberless_setMember Directive.isNumberless_toJson]

theorem TypeForm.isNumberless_toJson (type : TypeForm) : type.toJson.isNumberless = true := by
  have names (name : String) (set : SortedSet String) :
      Json.membersNumberless (setMember name Json.string set) = true :=
    membersNumberless_setMember (fun _ => rfl) name set
  simp [toJson, Json.isNumberless, Json.membersNumberless, membersNumberless_append,
    membersNumberless_setMember Field.isNumberless_toJson, names,
    membersNumberless_setMember EnumValue.isNumberless_toJson,
    membersNumberless_setMember InputValue.isNumberless_toJson,
    membersNumberless_setMember Directive.isNumberless_toJson]

theorem DocumentForm.isNumberless_toJson (form : DocumentForm) :
    form.toJson.isNumberless = true := by
  simp [toJson, Json.isNumberless, membersNumberless_append, membersNumberless_textMember,
    membersNumberless_setMember TypeForm.isNumberless_toJson]

end Numberless

end Canonical

theorem TypeKind.text_injective : Function.Injective text := by
  intro left right same
  cases left <;> cases right <;> first | rfl | exact absurd same (by decide)

namespace TypeDefinition

theorem canonical_name (definition : TypeDefinition) :
    definition.canonical.name = definition.name := by
  cases definition <;> rfl

theorem canonical_kind (definition : TypeDefinition) :
    definition.canonical.kind = definition.kind.text := by
  cases definition <;> rfl

theorem kind_eq_of_canonical_eq {left right : TypeDefinition}
    (form : left.canonical = right.canonical) : left.kind = right.kind := by
  apply TypeKind.text_injective
  rw [← canonical_kind, ← canonical_kind, form]

end TypeDefinition

theorem Document.root?_eq_of_canonical_eq {left right : Document}
    (form : left.canonical = right.canonical) (operation : OperationType) :
    left.root? operation = right.root? operation := by
  cases operation with
  | query => exact congrArg Canonical.DocumentForm.queryType? form
  | mutation => exact congrArg Canonical.DocumentForm.mutationType? form
  | subscription => exact congrArg Canonical.DocumentForm.subscriptionType? form

/-- The canonical text tells the whole canonical form. -/
theorem Document.canonical_eq_of_canonicalText {left right : Document}
    (same : left.canonicalText = right.canonicalText) : left.canonical = right.canonical :=
  Canonical.DocumentForm.toJson_injective
    (Json.pretty_inj (Canonical.DocumentForm.isNumberless_toJson _)
      (Canonical.DocumentForm.isNumberless_toJson _) same)

end SchemaEvolution
