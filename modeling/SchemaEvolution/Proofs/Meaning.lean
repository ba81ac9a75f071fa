import Mathlib.Data.List.Forall2
import SchemaEvolution.Fingerprint
import SchemaEvolution.Proofs.Canonical
import SchemaEvolution.Proofs.NameMap
import SchemaEvolution.Proofs.Rearranged
import SchemaEvolution.Proofs.TypeRef
import SchemaEvolution.Proofs.ValueText

/-!
Documents that mean the same. They resolve the same roots and define the same types, and lists of
members hold the same members, whatever their order and however often. For documents whose
references and values are well formed this is just what their canonical texts compare.
-/

namespace SchemaEvolution

/-- Each item of one list is alike to an item of the other one. -/
structure SameItems {α : Type} (alike : α → α → Prop) (left right : List α) : Prop where
  forth : ∀ item ∈ left, ∃ other ∈ right, alike item other
  back : ∀ other ∈ right, ∃ item ∈ left, alike item other

structure InputValue.MeansSame (left right : InputValue) : Prop where
  name : left.name = right.name
  type : left.type = right.type
  defaultValue? : left.defaultValue? = right.defaultValue?
  directives : SameItems Eq left.directives right.directives

structure Field.MeansSame (left right : Field) : Prop where
  name : left.name = right.name
  type : left.type = right.type
  arguments : SameItems InputValue.MeansSame left.arguments right.arguments
  directives : SameItems Eq left.directives right.directives

structure EnumValue.MeansSame (left right : EnumValue) : Prop where
  name : left.name = right.name
  directives : SameItems Eq left.directives right.directives

def TypeDefinition.MembersMeanSame : TypeDefinition → TypeDefinition → Prop
  | object left, object right =>
      SameItems Field.MeansSame left.fields right.fields ∧
        SameItems Eq left.interfaces right.interfaces
  | interface left, interface right => SameItems Field.MeansSame left.fields right.fields
  | union left, union right => SameItems Eq left.members right.members
  | enum left, enum right => SameItems EnumValue.MeansSame left.values right.values
  | scalar _, scalar _ => True
  | inputObject left, inputObject right =>
      SameItems InputValue.MeansSame left.fields right.fields
  | _, _ => False

structure TypeDefinition.MeansSame (left right : TypeDefinition) : Prop where
  name : left.name = right.name
  members : left.MembersMeanSame right
  directives : SameItems Eq left.directives right.directives

structure Document.MeansSame (left right : Document) : Prop where
  roots : ∀ operation, left.root? operation = right.root? operation
  types : ∀ name, Option.Rel TypeDefinition.MeansSame (left.type? name) (right.type? name)

def Directive.IsWellFormed (directive : Directive) : Prop :=
  ∀ argument ∈ directive.arguments.entries, argument.2.Obeys Value.wellFormed

structure InputValue.IsWellFormed (input : InputValue) : Prop where
  type : input.type.IsNamed
  default : ∀ value ∈ input.defaultValue?, value.Obeys Value.wellFormed
  directives : ∀ directive ∈ input.directives, directive.IsWellFormed

structure Field.IsWellFormed (field : Field) : Prop where
  type : field.type.IsNamed
  arguments : ∀ argument ∈ field.arguments, argument.IsWellFormed
  directives : ∀ directive ∈ field.directives, directive.IsWellFormed

def EnumValue.IsWellFormed (value : EnumValue) : Prop :=
  ∀ directive ∈ value.directives, directive.IsWellFormed

def TypeDefinition.MembersWellFormed : TypeDefinition → Prop
  | object type => ∀ field ∈ type.fields, field.IsWellFormed
  | interface type => ∀ field ∈ type.fields, field.IsWellFormed
  | enum type => ∀ value ∈ type.values, value.IsWellFormed
  | inputObject type => ∀ field ∈ type.fields, field.IsWellFormed
  | union _ | scalar _ => True

structure TypeDefinition.IsWellFormed (definition : TypeDefinition) : Prop where
  members : definition.MembersWellFormed
  directives : ∀ directive ∈ definition.directives, directive.IsWellFormed

/-- Types stand under their own names, and all references and values in them are well formed. -/
structure Document.IsWellFormed (document : Document) : Prop where
  keyed : ∀ name definition, document.type? name = some definition → definition.name = name
  types : ∀ name definition, document.type? name = some definition → definition.IsWellFormed

theorem Document.isWellFormed_of_no_types {document : Document} (none : document.types = ∅) :
    document.IsWellFormed := by
  have noType (name : String) : document.type? name = Option.none := by
    rw [type?, none]
    rfl
  constructor
  all_goals
    intro name definition found
    rw [noType] at found
    cases found

theorem Document.IsWellFormed.insert {document : Document} (formed : document.IsWellFormed)
    {definition : TypeDefinition} (typeFormed : definition.IsWellFormed) :
    (document.insert definition).IsWellFormed := by
  have found (name : String) : (document.insert definition).type? name =
      if name = definition.name then some definition else document.type? name :=
    NameMap.get?_insert document.types definition.name name definition
  constructor
  · intro name other isOther
    rw [found] at isOther
    split at isOther
    · rename_i own
      cases isOther
      exact own.symm
    · exact formed.keyed name other isOther
  · intro name other isOther
    rw [found] at isOther
    split at isOther
    · cases isOther
      exact typeFormed
    · exact formed.types name other isOther

/-! ### Forms of lists -/

section Lists

variable {α β : Type} [Ord β] [Std.TransOrd β] [Std.LawfulEqOrd β]

theorem sameItems_eq_iff (left right : List α) :
    SameItems Eq left right ↔ ∀ item, item ∈ left ↔ item ∈ right := by
  constructor
  · intro same item
    constructor
    · intro member
      obtain ⟨other, inRight, rfl⟩ := same.forth item member
      exact inRight
    · intro member
      obtain ⟨other, inLeft, rfl⟩ := same.back item member
      exact inLeft
  · intro same
    exact ⟨fun item member => ⟨item, (same item).mp member, rfl⟩,
      fun item member => ⟨item, (same item).mpr member, rfl⟩⟩

/-- Two lists have one set of forms exactly if their items are alike, when forms tell items apart as
far as they are not alike. -/
theorem ofList_map_eq_iff {form : α → β} {alike : α → α → Prop} {left right : List α}
    (told : ∀ item ∈ left, ∀ other ∈ right, form item = form other ↔ alike item other) :
    SortedSet.ofList (left.map form) = SortedSet.ofList (right.map form) ↔
      SameItems alike left right := by
  rw [SortedSet.ofList_eq_iff]
  constructor
  · intro same
    constructor
    · intro item member
      obtain ⟨other, inRight, sameForm⟩ :=
        List.mem_map.mp ((same _).mp (List.mem_map_of_mem member))
      exact ⟨other, inRight, (told item member other inRight).mp sameForm.symm⟩
    · intro other member
      obtain ⟨item, inLeft, sameForm⟩ :=
        List.mem_map.mp ((same _).mpr (List.mem_map_of_mem member))
      exact ⟨item, inLeft, (told item inLeft other member).mp sameForm⟩
  · intro same element
    constructor
    · intro member
      obtain ⟨item, inLeft, rfl⟩ := List.mem_map.mp member
      obtain ⟨other, inRight, alikeItems⟩ := same.forth item inLeft
      rw [(told item inLeft other inRight).mpr alikeItems]
      exact List.mem_map_of_mem inRight
    · intro member
      obtain ⟨other, inRight, rfl⟩ := List.mem_map.mp member
      obtain ⟨item, inLeft, alikeItems⟩ := same.back other inRight
      rw [← (told item inLeft other inRight).mpr alikeItems]
      exact List.mem_map_of_mem inLeft

theorem ofList_eq_iff_sameItems [Ord α] [Std.TransOrd α] [Std.LawfulEqOrd α] (left right : List α) :
    SortedSet.ofList left = SortedSet.ofList right ↔ SameItems Eq left right := by
  rw [SortedSet.ofList_eq_iff, sameItems_eq_iff]

end Lists

theorem eq_of_map_eq {α β : Type} {form : α → β} {left right : List α}
    (told : ∀ item ∈ left, ∀ other ∈ right, form item = form other → item = other)
    (same : left.map form = right.map form) : left = right := by
  induction left generalizing right with
  | nil => exact (List.map_eq_nil_iff.mp same.symm).symm
  | cons item rest ih =>
      cases right with
      | nil => cases same
      | cons other others =>
          obtain ⟨head, tail⟩ := List.cons.inj same
          obtain rfl := told item List.mem_cons_self other List.mem_cons_self head
          have later := ih (fun first inRest second inOthers =>
            told first (List.mem_cons_of_mem _ inRest) second (List.mem_cons_of_mem _ inOthers)) tail
          rw [later]

theorem Directive.canonical_eq_iff {left right : Directive} (leftFormed : left.IsWellFormed)
    (rightFormed : right.IsWellFormed) : left.canonical = right.canonical ↔ left = right := by
  refine ⟨fun same => ?_, congrArg canonical⟩
  obtain ⟨leftName, ⟨leftEntries, leftAscend⟩⟩ := left
  obtain ⟨rightName, ⟨rightEntries, rightAscend⟩⟩ := right
  obtain ⟨rfl, texts⟩ := Canonical.Directive.mk.inj same
  have entries : leftEntries = rightEntries := by
    refine eq_of_map_eq (fun argument inLeft other inRight sameText => ?_) texts
    obtain ⟨name, text⟩ := Canonical.Argument.mk.inj sameText
    have value := Value.text_inj (leftFormed argument inLeft) (rightFormed other inRight) text
    exact Prod.ext name value
  subst entries
  rfl

theorem canonicalDirectives_eq_iff {left right : List Directive}
    (leftFormed : ∀ directive ∈ left, directive.IsWellFormed)
    (rightFormed : ∀ directive ∈ right, directive.IsWellFormed) :
    canonicalDirectives left = canonicalDirectives right ↔ SameItems Eq left right :=
  ofList_map_eq_iff fun directive inLeft other inRight =>
    Directive.canonical_eq_iff (leftFormed directive inLeft) (rightFormed other inRight)

theorem TypeRef.text_eq_iff {left right : TypeRef} (leftNamed : left.IsNamed)
    (rightNamed : right.IsNamed) : left.text = right.text ↔ left = right :=
  ⟨text_inj leftNamed rightNamed, congrArg text⟩

theorem defaultText_eq_iff {left right : Option Value}
    (leftFormed : ∀ value ∈ left, value.Obeys Value.wellFormed)
    (rightFormed : ∀ value ∈ right, value.Obeys Value.wellFormed) :
    left.map Value.text = right.map Value.text ↔ left = right := by
  refine ⟨fun same => ?_, congrArg _⟩
  cases left with
  | none => exact (Option.map_eq_none_iff.mp same.symm).symm
  | some value =>
      obtain ⟨other, rfl, text⟩ := Option.map_eq_some_iff.mp same.symm
      rw [Value.text_inj (leftFormed value rfl) (rightFormed other rfl) text.symm]

theorem InputValue.canonical_eq_iff {left right : InputValue} (leftFormed : left.IsWellFormed)
    (rightFormed : right.IsWellFormed) :
    left.canonical = right.canonical ↔ left.MeansSame right := by
  have type := TypeRef.text_eq_iff leftFormed.type rightFormed.type
  have default := defaultText_eq_iff leftFormed.default rightFormed.default
  have directives := canonicalDirectives_eq_iff leftFormed.directives rightFormed.directives
  constructor
  · intro same
    obtain ⟨name, sameType, sameDefault, sameDirectives⟩ := Canonical.InputValue.mk.inj same
    exact ⟨name, type.mp sameType, default.mp sameDefault, directives.mp sameDirectives⟩
  · intro same
    exact Canonical.InputValue.ext same.name (type.mpr same.type) (default.mpr same.defaultValue?)
      (directives.mpr same.directives)

theorem inputForms_eq_iff {left right : List InputValue}
    (leftFormed : ∀ input ∈ left, input.IsWellFormed)
    (rightFormed : ∀ input ∈ right, input.IsWellFormed) :
    SortedSet.ofList (left.map InputValue.canonical) =
        SortedSet.ofList (right.map InputValue.canonical) ↔
      SameItems InputValue.MeansSame left right :=
  ofList_map_eq_iff fun input inLeft other inRight =>
    InputValue.canonical_eq_iff (leftFormed input inLeft) (rightFormed other inRight)

theorem Field.canonical_eq_iff {left right : Field} (leftFormed : left.IsWellFormed)
    (rightFormed : right.IsWellFormed) :
    left.canonical = right.canonical ↔ left.MeansSame right := by
  have type := TypeRef.text_eq_iff leftFormed.type rightFormed.type
  have arguments := inputForms_eq_iff leftFormed.arguments rightFormed.arguments
  have directives := canonicalDirectives_eq_iff leftFormed.directives rightFormed.directives
  constructor
  · intro same
    obtain ⟨name, sameType, sameArguments, sameDirectives⟩ := Canonical.Field.mk.inj same
    exact ⟨name, type.mp sameType, arguments.mp sameArguments, directives.mp sameDirectives⟩
  · intro same
    exact Canonical.Field.ext same.name (type.mpr same.type) (arguments.mpr same.arguments)
      (directives.mpr same.directives)

theorem fieldForms_eq_iff {left right : List Field}
    (leftFormed : ∀ field ∈ left, field.IsWellFormed)
    (rightFormed : ∀ field ∈ right, field.IsWellFormed) :
    SortedSet.ofList (left.map Field.canonical) = SortedSet.ofList (right.map Field.canonical) ↔
      SameItems Field.MeansSame left right :=
  ofList_map_eq_iff fun field inLeft other inRight =>
    Field.canonical_eq_iff (leftFormed field inLeft) (rightFormed other inRight)

theorem EnumValue.canonical_eq_iff {left right : EnumValue} (leftFormed : left.IsWellFormed)
    (rightFormed : right.IsWellFormed) :
    left.canonical = right.canonical ↔ left.MeansSame right := by
  have directives := canonicalDirectives_eq_iff leftFormed rightFormed
  constructor
  · intro same
    obtain ⟨name, sameDirectives⟩ := Canonical.EnumValue.mk.inj same
    exact ⟨name, directives.mp sameDirectives⟩
  · intro same
    exact Canonical.EnumValue.ext same.name (directives.mpr same.directives)

theorem enumForms_eq_iff {left right : List EnumValue}
    (leftFormed : ∀ value ∈ left, value.IsWellFormed)
    (rightFormed : ∀ value ∈ right, value.IsWellFormed) :
    SortedSet.ofList (left.map EnumValue.canonical) =
        SortedSet.ofList (right.map EnumValue.canonical) ↔
      SameItems EnumValue.MeansSame left right :=
  ofList_map_eq_iff fun value inLeft other inRight =>
    EnumValue.canonical_eq_iff (leftFormed value inLeft) (rightFormed other inRight)

/-! ### Forms of types and documents -/

namespace TypeDefinition

variable {left right : TypeDefinition}

theorem MeansSame.kind_eq (same : left.MeansSame right) : left.kind = right.kind := by
  have members := same.members
  cases left <;> cases right <;> first | rfl | cases members

/-- Of types of one kind, the forms tell whether their members are the same. -/
theorem membersMeanSame_iff (leftFormed : left.MembersWellFormed)
    (rightFormed : right.MembersWellFormed) (kind : left.kind = right.kind) :
    left.MembersMeanSame right ↔
      left.canonical.fields = right.canonical.fields ∧
        left.canonical.interfaces = right.canonical.interfaces ∧
        left.canonical.members = right.canonical.members ∧
        left.canonical.values = right.canonical.values ∧
        left.canonical.inputFields = right.canonical.inputFields := by
  cases left <;> cases right <;> cases kind
  case object.object.refl left right =>
    simp only [MembersMeanSame, canonical, fieldForms_eq_iff leftFormed rightFormed,
      ofList_eq_iff_sameItems, and_self, and_true]
  case interface.interface.refl left right =>
    simp only [MembersMeanSame, canonical, fieldForms_eq_iff leftFormed rightFormed,
      and_self, and_true]
  case union.union.refl left right =>
    simp only [MembersMeanSame, canonical, ofList_eq_iff_sameItems, and_self, and_true, true_and]
  case enum.enum.refl left right =>
    simp only [MembersMeanSame, canonical, enumForms_eq_iff leftFormed rightFormed, and_true,
      true_and]
  case scalar.scalar.refl left right =>
    simp only [MembersMeanSame, canonical, and_self]
  case inputObject.inputObject.refl left right =>
    simp only [MembersMeanSame, canonical, inputForms_eq_iff leftFormed rightFormed, true_and]

theorem canonical_directives (definition : TypeDefinition) :
    definition.canonical.directives = canonicalDirectives definition.directives := by
  cases definition <;> rfl

theorem canonical_eq_iff (leftFormed : left.IsWellFormed) (rightFormed : right.IsWellFormed) :
    left.canonical = right.canonical ↔ left.MeansSame right := by
  have directives := canonicalDirectives_eq_iff leftFormed.directives rightFormed.directives
  have members := membersMeanSame_iff leftFormed.members rightFormed.members
  constructor
  · intro same
    have sameMembers := (members (kind_eq_of_canonical_eq same)).mpr
    rw [← canonical_directives, ← canonical_directives] at directives
    rw [same] at sameMembers directives
    refine ⟨?_, sameMembers ⟨rfl, rfl, rfl, rfl, rfl⟩, directives.mp rfl⟩
    rw [← canonical_name, same, canonical_name]
  · intro same
    obtain ⟨fields, interfaces, sameMembers, values, inputFields⟩ :=
      (members same.kind_eq).mp same.members
    refine Canonical.TypeForm.ext ?_ ?_ fields interfaces sameMembers values inputFields ?_
    · rw [canonical_name, canonical_name, same.name]
    · rw [canonical_kind, canonical_kind, same.kind_eq]
    · rw [canonical_directives, canonical_directives, directives.mpr same.directives]

end TypeDefinition

namespace Document

variable {left right : Document}

theorem IsWellFormed.mem_values_iff {document : Document} (formed : document.IsWellFormed)
    (definition : TypeDefinition) :
    definition ∈ document.types.values ↔ document.type? definition.name = some definition := by
  constructor
  · intro member
    obtain ⟨name, found⟩ := NameMap.exists_get?_of_mem_values member
    rw [formed.keyed name definition found]
    exact found
  · exact NameMap.mem_values_of_get?

/-- Types under their own names agree name by name exactly if they agree as sets. -/
theorem sameItems_values_iff (leftFormed : left.IsWellFormed) (rightFormed : right.IsWellFormed) :
    SameItems TypeDefinition.MeansSame left.types.values right.types.values ↔
      ∀ name, Option.Rel TypeDefinition.MeansSame (left.type? name) (right.type? name) := by
  constructor
  · intro same name
    cases found : left.type? name with
    | some definition =>
        have inLeft := NameMap.mem_values_of_get? found
        obtain ⟨other, inRight, meansSame⟩ := same.forth definition inLeft
        have otherFound := (rightFormed.mem_values_iff other).mp inRight
        rw [← meansSame.name, leftFormed.keyed name definition found] at otherFound
        rw [otherFound]
        exact .some meansSame
    | none =>
        cases otherFound : right.type? name with
        | none => exact .none
        | some other =>
            have inRight := NameMap.mem_values_of_get? otherFound
            obtain ⟨definition, inLeft, meansSame⟩ := same.back other inRight
            have isFound := (leftFormed.mem_values_iff definition).mp inLeft
            rw [meansSame.name, rightFormed.keyed name other otherFound, found] at isFound
            cases isFound
  · intro same
    constructor
    · intro definition inLeft
      have related := same definition.name
      rw [(leftFormed.mem_values_iff definition).mp inLeft] at related
      cases otherFound : right.type? definition.name with
      | none =>
          rw [otherFound] at related
          cases related
      | some other =>
          rw [otherFound] at related
          cases related with
          | some meansSame => exact ⟨other, NameMap.mem_values_of_get? otherFound, meansSame⟩
    · intro other inRight
      have related := same other.name
      rw [(rightFormed.mem_values_iff other).mp inRight] at related
      cases found : left.type? other.name with
      | none =>
          rw [found] at related
          cases related
      | some definition =>
          rw [found] at related
          cases related with
          | some meansSame => exact ⟨definition, NameMap.mem_values_of_get? found, meansSame⟩

theorem canonical_eq_iff (leftFormed : left.IsWellFormed) (rightFormed : right.IsWellFormed) :
    left.canonical = right.canonical ↔ left.MeansSame right := by
  have types : SortedSet.ofList (left.types.values.map TypeDefinition.canonical) =
      SortedSet.ofList (right.types.values.map TypeDefinition.canonical) ↔
        SameItems TypeDefinition.MeansSame left.types.values right.types.values :=
    ofList_map_eq_iff fun definition inLeft other inRight => by
      obtain ⟨name, found⟩ := NameMap.exists_get?_of_mem_values inLeft
      obtain ⟨otherName, otherFound⟩ := NameMap.exists_get?_of_mem_values inRight
      exact TypeDefinition.canonical_eq_iff (leftFormed.types name definition found)
        (rightFormed.types otherName other otherFound)
  rw [sameItems_values_iff leftFormed rightFormed] at types
  constructor
  · intro same
    exact ⟨root?_eq_of_canonical_eq same, types.mp (congrArg Canonical.DocumentForm.types same)⟩
  · intro same
    exact Canonical.DocumentForm.ext (same.roots .query) (same.roots .mutation)
      (same.roots .subscription) (types.mpr same.types)

end Document

/-! ### Rearranged documents -/

theorem SameItems.of_forall₂ {α : Type} {alike : α → α → Prop} {left right : List α}
    (items : List.Forall₂ alike left right) : SameItems alike left right := by
  induction items with
  | nil => exact ⟨fun _ member => absurd member List.not_mem_nil,
      fun _ member => absurd member List.not_mem_nil⟩
  | @cons item other rest others head _ ih =>
      constructor
      · intro first member
        rcases List.mem_cons.mp member with rfl | later
        · exact ⟨other, List.mem_cons_self, head⟩
        · obtain ⟨second, inOthers, alikeItems⟩ := ih.forth first later
          exact ⟨second, List.mem_cons_of_mem _ inOthers, alikeItems⟩
      · intro second member
        rcases List.mem_cons.mp member with rfl | later
        · exact ⟨item, List.mem_cons_self, head⟩
        · obtain ⟨first, inRest, alikeItems⟩ := ih.back second later
          exact ⟨first, List.mem_cons_of_mem _ inRest, alikeItems⟩

theorem Rearranges.sameItems {α : Type} {name : α → String} {alike means : α → α → Prop}
    {left right : List α} (rearranged : Rearranges name alike left right)
    (same : ∀ item other, alike item other → means item other) : SameItems means left right := by
  obtain ⟨changed, inside, members⟩ := rearranged.mem_iff
  have inOrder := SameItems.of_forall₂ (inside.imp same)
  constructor
  · intro item member
    obtain ⟨other, inChanged, meansSame⟩ := inOrder.forth item member
    exact ⟨other, (members other).mp inChanged, meansSame⟩
  · intro other member
    exact inOrder.back other ((members other).mpr member)

theorem Rearranges.sameDirectives {left right : List Directive}
    (rearranged : Rearranges Directive.name Eq left right) : SameItems Eq left right :=
  rearranged.sameItems fun _ _ same => same

theorem InputValue.Rearranged.meansSame (left right : InputValue) (same : left.Rearranged right) :
    left.MeansSame right :=
  ⟨same.name, same.type, same.defaultValue?, same.directives.sameDirectives⟩

theorem Field.Rearranged.meansSame (left right : Field) (same : left.Rearranged right) :
    left.MeansSame right :=
  ⟨same.name, same.type, same.arguments.sameItems InputValue.Rearranged.meansSame,
    same.directives.sameDirectives⟩

theorem EnumValue.Rearranged.meansSame (left right : EnumValue) (same : left.Rearranged right) :
    left.MeansSame right :=
  ⟨same.name, same.directives.sameDirectives⟩

theorem TypeDefinition.Rearranged.meansSame {left right : TypeDefinition}
    (rearranged : left.Rearranged right) : left.MeansSame right := by
  have names {left right : List String} (perm : left.Perm right) : SameItems Eq left right :=
    (sameItems_eq_iff left right).mpr fun _ => perm.mem_iff
  cases rearranged with
  | object same =>
      have fields := same.fields.sameItems Field.Rearranged.meansSame
      exact ⟨same.name, ⟨fields, names same.interfaces⟩, same.directives.sameDirectives⟩
  | interface same =>
      have fields := same.fields.sameItems Field.Rearranged.meansSame
      exact ⟨same.name, fields, same.directives.sameDirectives⟩
  | union same => exact ⟨same.name, names same.members, same.directives.sameDirectives⟩
  | enum same =>
      have values := same.values.sameItems EnumValue.Rearranged.meansSame
      exact ⟨same.name, values, same.directives.sameDirectives⟩
  | scalar same => exact ⟨same.name, trivial, same.directives.sameDirectives⟩
  | inputObject same =>
      have fields := same.fields.sameItems InputValue.Rearranged.meansSame
      exact ⟨same.name, fields, same.directives.sameDirectives⟩

theorem Document.Rearranged.meansSame {left right : Document} (same : left.Rearranged right) :
    left.MeansSame right where
  roots := same.root?_eq
  types name := by
    have related := same.types name
    generalize left.type? name = definition?, right.type? name = other? at related
    cases related with
    | none => exact .none
    | some rearranged => exact .some rearranged.meansSame

/-! ### Explicit roots -/

/-- The document with all its roots named explicitly, also those it has by convention. -/
def Document.withDeclaredRoots (document : Document) : Document :=
  { document with
    queryType? := document.root? .query
    mutationType? := document.root? .mutation
    subscriptionType? := document.root? .subscription }

theorem Document.declaredRoot?_withDeclaredRoots (document : Document)
    (operation : OperationType) :
    document.withDeclaredRoots.declaredRoot? operation = document.root? operation := by
  cases operation <;> rfl

theorem Document.hasDeclaredRoots_eq_false_iff (document : Document) :
    document.hasDeclaredRoots = false ↔
      ∀ operation, document.declaredRoot? operation = none := by
  have all (operation : OperationType) : operation ∈ OperationType.all := by
    cases operation <;> decide
  simp [hasDeclaredRoots, all]

theorem Document.declaredRoot?_eq_none_of_root?_eq_none {document : Document}
    {operation : OperationType} (noRoot : document.root? operation = none) :
    document.declaredRoot? operation = none := by
  unfold root? at noRoot
  split at noRoot
  · exact noRoot
  · rename_i undeclared
    exact (hasDeclaredRoots_eq_false_iff document).mp (Bool.not_eq_true _ ▸ undeclared) operation

theorem Document.root?_withDeclaredRoots (document : Document) (operation : OperationType) :
    document.withDeclaredRoots.root? operation = document.root? operation := by
  cases declared : document.withDeclaredRoots.hasDeclaredRoots with
  | true => rw [root?, declared, if_pos rfl, declaredRoot?_withDeclaredRoots]
  | false =>
      -- No root is there to be named, so conventional names are looked up as before.
      have noRoots := (hasDeclaredRoots_eq_false_iff _).mp declared
      simp only [declaredRoot?_withDeclaredRoots] at noRoots
      have undeclared : document.hasDeclaredRoots = false :=
        (hasDeclaredRoots_eq_false_iff document).mpr fun other =>
          declaredRoot?_eq_none_of_root?_eq_none (noRoots other)
      unfold root?
      rw [declared, undeclared]
      rfl

theorem Document.canonical_withDeclaredRoots (document : Document) :
    document.withDeclaredRoots.canonical = document.canonical :=
  Canonical.DocumentForm.ext (document.root?_withDeclaredRoots .query)
    (document.root?_withDeclaredRoots .mutation) (document.root?_withDeclaredRoots .subscription)
    rfl

/-- The canonical text tells what a document means, and nothing else of it. -/
theorem Document.canonicalText_eq_iff_meansSame {left right : Document}
    (leftFormed : left.IsWellFormed) (rightFormed : right.IsWellFormed) :
    (left.canonicalText = right.canonicalText ↔ left.MeansSame right) ∧
      (left.Rearranged right → left.fingerprint = right.fingerprint) ∧
      left.withDeclaredRoots.fingerprint = left.fingerprint := by
  have text : left.canonicalText = right.canonicalText ↔ left.MeansSame right := by
    rw [← canonical_eq_iff leftFormed rightFormed]
    exact ⟨canonical_eq_of_canonicalText,
      congrArg fun form : Canonical.DocumentForm => form.toJson.pretty⟩
  refine ⟨text, fun rearranged => ?_, ?_⟩
  · unfold fingerprint
    rw [text.mpr rearranged.meansSame]
  · unfold fingerprint canonicalText
    rw [canonical_withDeclaredRoots]

def itemsField (order : Value) : Field :=
  ⟨"items", .nonNull (.list (.named "Item")), [⟨"by", .named "Order", some order, []⟩], []⟩

def orderSchema (order : Value) (names : List String) : Document :=
  (Document.empty.insert (.object ⟨"Query", [itemsField order], [], []⟩)).insert
    (.enum ⟨"Order", names.map fun name => ⟨name, []⟩, []⟩)

theorem isWellFormed_orderSchema {order : Value} (obeys : order.Obeys Value.wellFormed)
    (names : List String) : (orderSchema order names).IsWellFormed := by
  have noDirectives : ∀ directive ∈ ([] : List Directive), directive.IsWellFormed :=
    fun _ member => absurd member List.not_mem_nil
  have orderNamed : Text.isName "Order".toList = true := by decide
  have itemNamed : Text.isName "Item".toList = true := by decide
  have argument : (⟨"by", .named "Order", some order, []⟩ : InputValue).IsWellFormed :=
    ⟨orderNamed, fun value isDefault => Option.some.inj isDefault ▸ obeys, noDirectives⟩
  have items : (itemsField order).IsWellFormed :=
    ⟨itemNamed, List.forall_mem_singleton.mpr argument, noDirectives⟩
  have query : (TypeDefinition.object ⟨"Query", [itemsField order], [], []⟩).IsWellFormed :=
    ⟨List.forall_mem_singleton.mpr items, noDirectives⟩
  refine ((Document.isWellFormed_of_no_types rfl).insert query).insert ⟨?_, noDirectives⟩
  intro value member
  obtain ⟨name, _, rfl⟩ := List.mem_map.mp member
  exact noDirectives

theorem defaultOrder_eq_of_meansSame {left right : Value} {names : List String}
    (same : (orderSchema left names).MeansSame (orderSchema right names)) : left = right := by
  have query (order : Value) : (orderSchema order names).type? "Query" =
      some (.object ⟨"Query", [itemsField order], [], []⟩) := by
    simp [orderSchema, Document.type?, Document.insert, NameMap.get?_insert, TypeDefinition.name]
  have related := same.types "Query"
  rw [query, query] at related
  cases related with
  | some meansSame =>
      obtain ⟨field, isField, sameField⟩ := meansSame.members.1.forth _ List.mem_cons_self
      rw [List.mem_singleton.mp isField] at sameField
      obtain ⟨argument, isArgument, sameArgument⟩ :=
        sameField.arguments.forth _ List.mem_cons_self
      rw [List.mem_singleton.mp isArgument] at sameArgument
      exact Option.some.inj sameArgument.defaultValue?

def orderBy (key : Value) : Value :=
  .object [("key", key), ("scale", .list [.int "-1", .float "1.5E3"])]

theorem obeys_orderBy {key : Value} (obeys : key.Obeys Value.wellFormed) :
    (orderBy key).Obeys Value.wellFormed := by
  have names : ∀ name ∈ ["key", "scale"], Text.isName name.toList = true := by decide
  have minusOne : IsIntText "-1".toList :=
    ⟨['-'], ['1'], rfl, Or.inr (Or.inl rfl), by decide, List.forall_mem_singleton.mpr rfl⟩
  have scale : IsFloatText "1.5E3".toList :=
    ⟨List.all_eq_true.mp (by decide), ⟨'.', by decide, rfl⟩, by decide⟩
  exact ⟨names, obeys, ⟨minusOne, scale, trivial⟩, trivial⟩

def upward : Value :=
  orderBy (.enum "ASC")

def quotedUpward : Value :=
  orderBy (.string "ASC")

theorem orderSchema_texts_tell_orders :
    (orderSchema upward ["ASC", "DESC"]).canonicalText ≠
        (orderSchema quotedUpward ["ASC", "DESC"]).canonicalText ∧
      (orderSchema upward ["ASC", "DESC"]).fingerprint =
        (orderSchema upward ["DESC", "ASC"]).fingerprint := by
  have isEnum : IsEnumText "ASC".toList := ⟨by decide, by decide, by decide, by decide⟩
  have enumObeys : (Value.enum "ASC").Obeys Value.wellFormed := isEnum
  have stringObeys : (Value.string "ASC").Obeys Value.wellFormed := trivial
  have formed (names : List String) : (orderSchema upward names).IsWellFormed :=
    isWellFormed_orderSchema (obeys_orderBy enumObeys) names
  have quotedFormed : (orderSchema quotedUpward ["ASC", "DESC"]).IsWellFormed :=
    isWellFormed_orderSchema (obeys_orderBy stringObeys) _
  have order : (TypeDefinition.enum ⟨"Order", [⟨"ASC", []⟩, ⟨"DESC", []⟩], []⟩).Rearranged
      (.enum ⟨"Order", [⟨"DESC", []⟩, ⟨"ASC", []⟩], []⟩) :=
    .enum ⟨rfl, rearranges_of_perm EnumValue.Rearranged.refl (.swap ..) (by decide),
      Rearranges.refl Eq.refl []⟩
  constructor
  · intro same
    have meansSame := (Document.canonicalText_eq_iff_meansSame (formed _) quotedFormed).1.mp same
    exact absurd (defaultOrder_eq_of_meansSame meansSame) (by decide)
  · exact (Document.canonicalText_eq_iff_meansSame (formed _) (formed _)).2.1
      ((Document.Rearranged.refl _).insert order)

end SchemaEvolution
