import Mathlib.Data.List.Forall2
import Mathlib.Data.List.Nodup
import SchemaEvolution.Document
import SchemaEvolution.Proofs.NameMap

/-!
Documents that declare the same in another order. A list may be put in another order where its items
bear different names; of namesakes the last counts, so these have to keep their places.
-/

namespace SchemaEvolution

/-- The items of a list, each of them perhaps rearranged inside, and then put in another order if
they bear different names. -/
def Rearranges {α : Type} (name : α → String) (alike : α → α → Prop) (left right : List α) : Prop :=
  ∃ changed, List.Forall₂ alike left changed ∧
    (changed = right ∨ changed.Perm right ∧ (changed.map name).Nodup)

structure InputValue.Rearranged (left right : InputValue) : Prop where
  name : left.name = right.name
  type : left.type = right.type
  defaultValue? : left.defaultValue? = right.defaultValue?
  directives : Rearranges Directive.name Eq left.directives right.directives

structure Field.Rearranged (left right : Field) : Prop where
  name : left.name = right.name
  type : left.type = right.type
  arguments : Rearranges InputValue.name InputValue.Rearranged left.arguments right.arguments
  directives : Rearranges Directive.name Eq left.directives right.directives

structure EnumValue.Rearranged (left right : EnumValue) : Prop where
  name : left.name = right.name
  directives : Rearranges Directive.name Eq left.directives right.directives

structure ObjectType.Rearranged (left right : ObjectType) : Prop where
  name : left.name = right.name
  fields : Rearranges Field.name Field.Rearranged left.fields right.fields
  interfaces : left.interfaces.Perm right.interfaces
  directives : Rearranges Directive.name Eq left.directives right.directives

structure InterfaceType.Rearranged (left right : InterfaceType) : Prop where
  name : left.name = right.name
  fields : Rearranges Field.name Field.Rearranged left.fields right.fields
  directives : Rearranges Directive.name Eq left.directives right.directives

structure UnionType.Rearranged (left right : UnionType) : Prop where
  name : left.name = right.name
  members : left.members.Perm right.members
  directives : Rearranges Directive.name Eq left.directives right.directives

structure EnumType.Rearranged (left right : EnumType) : Prop where
  name : left.name = right.name
  values : Rearranges EnumValue.name EnumValue.Rearranged left.values right.values
  directives : Rearranges Directive.name Eq left.directives right.directives

structure ScalarType.Rearranged (left right : ScalarType) : Prop where
  name : left.name = right.name
  directives : Rearranges Directive.name Eq left.directives right.directives

structure InputObjectType.Rearranged (left right : InputObjectType) : Prop where
  name : left.name = right.name
  fields : Rearranges InputValue.name InputValue.Rearranged left.fields right.fields
  directives : Rearranges Directive.name Eq left.directives right.directives

inductive TypeDefinition.Rearranged : TypeDefinition → TypeDefinition → Prop
  | object {left right : ObjectType} (same : left.Rearranged right) :
      Rearranged (.object left) (.object right)
  | interface {left right : InterfaceType} (same : left.Rearranged right) :
      Rearranged (.interface left) (.interface right)
  | union {left right : UnionType} (same : left.Rearranged right) :
      Rearranged (.union left) (.union right)
  | enum {left right : EnumType} (same : left.Rearranged right) :
      Rearranged (.enum left) (.enum right)
  | scalar {left right : ScalarType} (same : left.Rearranged right) :
      Rearranged (.scalar left) (.scalar right)
  | inputObject {left right : InputObjectType} (same : left.Rearranged right) :
      Rearranged (.inputObject left) (.inputObject right)

/-- The documents name the same roots and have, under each name, the same definition up to order. -/
structure Document.Rearranged (left right : Document) : Prop where
  types : ∀ name, Option.Rel TypeDefinition.Rearranged (left.type? name) (right.type? name)
  declaredRoots : ∀ operation, left.declaredRoot? operation = right.declaredRoot? operation

section Lists

variable {α : Type} {name : α → String} {alike : α → α → Prop} {left right : List α}

theorem Rearranges.refl (refl : ∀ item, alike item item) (items : List α) :
    Rearranges name alike items items :=
  ⟨items, List.forall₂_same.mpr fun item _ => refl item, Or.inl (Eq.refl items)⟩

theorem rearranges_of_perm (refl : ∀ item, alike item item) (perm : left.Perm right)
    (distinct : (left.map name).Nodup) : Rearranges name alike left right :=
  ⟨left, List.forall₂_same.mpr fun item _ => refl item, Or.inr ⟨perm, distinct⟩⟩

theorem Rearranges.mem_iff (rearranged : Rearranges name alike left right) :
    ∃ changed, List.Forall₂ alike left changed ∧ ∀ item, item ∈ changed ↔ item ∈ right := by
  obtain ⟨changed, inside, same | ⟨perm, _⟩⟩ := rearranged
  · exact ⟨changed, inside, fun item => same ▸ Iff.rfl⟩
  · exact ⟨changed, inside, fun item => perm.mem_iff⟩

/-- Something is true of an item of one list exactly if it is true of an item of the other. -/
theorem Rearranges.exists_mem_iff {holds holdsAfter : α → Prop}
    (rearranged : Rearranges name alike left right)
    (kept : ∀ item other, alike item other → (holds item ↔ holdsAfter other)) :
    (∃ item ∈ left, holds item) ↔ ∃ item ∈ right, holdsAfter item := by
  obtain ⟨changed, inside, members⟩ := rearranged.mem_iff
  simp only [← members]
  clear members rearranged
  induction inside with
  | nil => simp
  | cons same _ ih =>
      simp only [List.exists_mem_cons_iff, kept _ _ same]
      exact or_congr_right ih

end Lists

theorem InputValue.Rearranged.refl (input : InputValue) : input.Rearranged input :=
  ⟨rfl, rfl, rfl, Rearranges.refl Eq.refl _⟩

theorem Field.Rearranged.refl (field : Field) : field.Rearranged field :=
  ⟨rfl, rfl, Rearranges.refl InputValue.Rearranged.refl _, Rearranges.refl Eq.refl _⟩

theorem EnumValue.Rearranged.refl (value : EnumValue) : value.Rearranged value :=
  ⟨rfl, Rearranges.refl Eq.refl _⟩

theorem TypeDefinition.Rearranged.refl (definition : TypeDefinition) :
    definition.Rearranged definition := by
  have directives (items : List Directive) : Rearranges Directive.name Eq items items :=
    Rearranges.refl Eq.refl items
  cases definition with
  | object type =>
      exact .object ⟨rfl, Rearranges.refl Field.Rearranged.refl _, .refl _, directives _⟩
  | interface type => exact .interface ⟨rfl, Rearranges.refl Field.Rearranged.refl _, directives _⟩
  | union type => exact .union ⟨rfl, .refl _, directives _⟩
  | enum type => exact .enum ⟨rfl, Rearranges.refl EnumValue.Rearranged.refl _, directives _⟩
  | scalar type => exact .scalar ⟨rfl, directives _⟩
  | inputObject type =>
      exact .inputObject ⟨rfl, Rearranges.refl InputValue.Rearranged.refl _, directives _⟩

theorem TypeDefinition.Rearranged.name_eq {left right : TypeDefinition}
    (same : left.Rearranged right) : left.name = right.name := by
  cases same with
  | object same | interface same | union same | enum same | scalar same | inputObject same =>
      exact same.name

theorem TypeDefinition.Rearranged.kind_eq {left right : TypeDefinition}
    (same : left.Rearranged right) : left.kind = right.kind := by
  cases same <;> rfl

theorem Document.Rearranged.refl (document : Document) : document.Rearranged document where
  types name := by
    cases document.type? name with
    | none => exact .none
    | some definition => exact .some (.refl definition)
  declaredRoots _ := rfl

theorem Document.Rearranged.root?_eq {left right : Document} (same : left.Rearranged right)
    (operation : OperationType) : left.root? operation = right.root? operation := by
  have found := same.types operation.conventionalName
  have declared : left.hasDeclaredRoots = right.hasDeclaredRoots := by
    unfold Document.hasDeclaredRoots
    simp only [same.declaredRoots]
  unfold Document.root?
  rw [declared, same.declaredRoots]
  generalize left.type? operation.conventionalName = type?,
    right.type? operation.conventionalName = other? at found ⊢
  cases found with
  | none => rfl
  | some sameType => cases sameType <;> rfl

theorem Document.Rearranged.insert {left right : Document} (same : left.Rearranged right)
    {definition other : TypeDefinition} (sameDefinition : definition.Rearranged other) :
    (left.insert definition).Rearranged (right.insert other) where
  types name := by
    change Option.Rel _ ((left.types.insert definition.name definition).get? name)
      ((right.types.insert other.name other).get? name)
    rw [NameMap.get?_insert, NameMap.get?_insert, sameDefinition.name_eq]
    split
    · exact .some sameDefinition
    · exact same.types name
  declaredRoots operation := by
    have declared := same.declaredRoots operation
    cases operation <;> exact declared

inductive EntriesAlike {α : Type} (alike : α → α → Prop) :
    List (String × α) → List (String × α) → Prop
  | nil : EntriesAlike alike [] []
  | cons {name : String} {value other : α} {rest others : List (String × α)}
      (head : alike value other) (tail : EntriesAlike alike rest others) :
      EntriesAlike alike ((name, value) :: rest) ((name, other) :: others)

namespace EntriesAlike

variable {α : Type} {alike : α → α → Prop} {left right : List (String × α)}

theorem insertEntry (same : EntriesAlike alike left right) (name : String) {value other : α}
    (alikeValues : alike value other) :
    EntriesAlike alike (SchemaEvolution.insertEntry name value left)
      (SchemaEvolution.insertEntry name other right) := by
  induction same with
  | nil => exact .cons alikeValues .nil
  | cons head tail ih =>
      simp only [SchemaEvolution.insertEntry]
      split
      · exact .cons alikeValues (.cons head tail)
      · split
        · exact .cons head ih
        · exact .cons alikeValues tail

theorem names_eq (same : EntriesAlike alike left right) :
    left.map Prod.fst = right.map Prod.fst := by
  induction same with
  | nil => rfl
  | cons _ _ ih => rw [List.map_cons, List.map_cons, ih]

theorem flatMap_eq {β : Type} (same : EntriesAlike alike left right)
    {items others : String × α → List β}
    (sameItems : ∀ name value other, alike value other →
      items (name, value) = others (name, other)) :
    left.flatMap items = right.flatMap others := by
  induction same with
  | nil => rfl
  | cons head _ ih => rw [List.flatMap_cons, List.flatMap_cons, sameItems _ _ _ head, ih]

theorem lookup (same : EntriesAlike alike left right) (name : String) :
    Option.Rel alike (left.lookup name) (right.lookup name) := by
  induction same with
  | nil => exact .none
  | cons head _ ih =>
      rw [List.lookup_cons, List.lookup_cons]
      split
      · exact .some head
      · exact ih

section Maps

variable {left right : NameMap α}

theorem get?_cases (same : EntriesAlike alike left.entries right.entries) (name : String) :
    (left.get? name = none ∧ right.get? name = none) ∨
      ∃ item other, left.get? name = some item ∧ right.get? name = some other ∧
        alike item other := by
  have found : Option.Rel alike (left.get? name) (right.get? name) := same.lookup name
  generalize left.get? name = item?, right.get? name = other? at found
  cases found with
  | none => exact Or.inl ⟨rfl, rfl⟩
  | some alikeItems => exact Or.inr ⟨_, _, rfl, rfl, alikeItems⟩

theorem contains_eq (same : EntriesAlike alike left.entries right.entries) (name : String) :
    left.contains name = right.contains name := by
  unfold NameMap.contains
  rcases same.get?_cases name with ⟨absent, absentAfter⟩ | ⟨_, _, found, foundAfter, _⟩
  · rw [absent, absentAfter]
  · rw [found, foundAfter]
    rfl

theorem size_eq (same : EntriesAlike alike left.entries right.entries) : left.size = right.size := by
  unfold NameMap.size
  simpa using congrArg List.length same.names_eq

end Maps

end EntriesAlike

section Indexes

variable {α : Type} {name : α → String} {alike : α → α → Prop} {left right : List α}

theorem entriesAlike_index_of_forall₂ (inside : List.Forall₂ alike left right)
    (named : ∀ item other, alike item other → name item = name other) :
    EntriesAlike alike (NameMap.index name left).entries (NameMap.index name right).entries := by
  suffices ∀ sorted others, EntriesAlike alike sorted others →
      EntriesAlike alike
        ((left.map fun item => (name item, item)).foldl
          (fun sorted entry => insertEntry entry.1 entry.2 sorted) sorted)
        ((right.map fun item => (name item, item)).foldl
          (fun sorted entry => insertEntry entry.1 entry.2 sorted) others) from
    this [] [] .nil
  induction inside with
  | nil => exact fun _ _ same => same
  | cons head _ ih =>
      intro sorted others same
      simp only [List.map_cons, List.foldl_cons]
      rw [named _ _ head]
      exact ih _ _ (same.insertEntry _ head)

/-- A list of different names and the list in another order have one index. -/
theorem NameMap.index_eq_of_perm (perm : left.Perm right) (distinct : (left.map name).Nodup) :
    index name left = index name right := by
  have found (items : List α) (distinct : (items.map name).Nodup) (key : String) (item : α) :
      (index name items).get? key = some item ↔ item ∈ items ∧ name item = key := by
    constructor
    · exact fun found => ⟨mem_of_get?_index found, name_of_get?_index found⟩
    · rintro ⟨member, rfl⟩
      obtain ⟨other, isOther⟩ := exists_get?_index name member
      rw [isOther, List.inj_on_of_nodup_map distinct (mem_of_get?_index isOther) member
        (name_of_get?_index isOther)]
  have distinctAfter : (right.map name).Nodup := (perm.map name).nodup_iff.mp distinct
  refine ext_get? fun key => Option.ext fun item => ?_
  rw [found left distinct, found right distinctAfter, perm.mem_iff]

theorem Rearranges.entries (rearranged : Rearranges name alike left right)
    (named : ∀ item other, alike item other → name item = name other) :
    EntriesAlike alike (NameMap.index name left).entries (NameMap.index name right).entries := by
  obtain ⟨changed, inside, rfl | ⟨perm, distinct⟩⟩ := rearranged
  · exact entriesAlike_index_of_forall₂ inside named
  · rw [← NameMap.index_eq_of_perm perm distinct]
    exact entriesAlike_index_of_forall₂ inside named

theorem Rearranges.index_eq (rearranged : Rearranges name Eq left right) :
    NameMap.index name left = NameMap.index name right := by
  obtain ⟨changed, inside, isRight⟩ := rearranged
  rw [List.forall₂_eq_eq_eq] at inside
  subst inside
  rcases isRight with rfl | ⟨perm, distinct⟩
  · rfl
  · exact NameMap.index_eq_of_perm perm distinct

end Indexes

end SchemaEvolution
