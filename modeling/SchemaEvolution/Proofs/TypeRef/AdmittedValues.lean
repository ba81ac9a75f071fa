import SchemaEvolution.Proofs.TypeRefText

/-!
What a reference means for the values that clients exchange: one reference may replace another
exactly if it admits all values of the other. Every difference of two references comes to light in
some value, namely in null, in a leaf, in an empty list, or in lists of one item around such a
value.
-/

namespace SchemaEvolution

/-- A value as it is exchanged: null, a leaf of some named type, or a list. -/
inductive Datum (Leaf : Type) where
  | null
  | leaf (value : Leaf)
  | list (items : List (Datum Leaf))

/-- The leaves of the named types. Every type has a leaf, and no leaf belongs to two types. -/
structure LeafTypes (Leaf : Type) where
  Holds : String → Leaf → Prop
  inhabited : ∀ name, ∃ value, Holds name value
  disjoint : ∀ name other value, Holds name value → Holds other value → name = other

namespace TypeRef

variable {Leaf : Type} {leaves : LeafTypes Leaf}

/-- A position admits null unless it is marked. -/
def Admits (leaves : LeafTypes Leaf) : TypeRef → Datum Leaf → Prop
  | named name, datum => datum = .null ∨ ∃ value, leaves.Holds name value ∧ datum = .leaf value
  | list item, datum =>
      datum = .null ∨ ∃ items, (∀ entry ∈ items, item.Admits leaves entry) ∧ datum = .list items
  | nonNull inner, datum => inner.Admits leaves datum ∧ datum ≠ .null

theorem admits_null_iff (type : TypeRef) : type.Admits leaves .null ↔ type.isNonNull = false := by
  cases type with
  | named name | list item => exact ⟨fun _ => rfl, fun _ => Or.inl rfl⟩
  | nonNull inner => exact ⟨fun admitted => absurd rfl admitted.2, nofun⟩

theorem admits_leaf_named_iff (name : String) (value : Leaf) :
    (named name).Admits leaves (.leaf value) ↔ leaves.Holds name value := by
  constructor
  · rintro (isNull | ⟨other, holds, same⟩)
    · cases isNull
    · cases same
      exact holds
  · exact fun holds => Or.inr ⟨value, holds, rfl⟩

theorem not_admits_leaf_list (item : TypeRef) (value : Leaf) :
    ¬item.list.Admits leaves (.leaf value) := by
  rintro (isNull | ⟨items, _, same⟩)
  · cases isNull
  · cases same

theorem not_admits_list_named (name : String) (items : List (Datum Leaf)) :
    ¬(named name).Admits leaves (.list items) := by
  rintro (isNull | ⟨value, _, same⟩)
  · cases isNull
  · cases same

theorem admits_list_iff (item : TypeRef) (items : List (Datum Leaf)) :
    item.list.Admits leaves (.list items) ↔ ∀ entry ∈ items, item.Admits leaves entry := by
  constructor
  · rintro (isNull | ⟨others, admitted, same⟩)
    · cases isNull
    · cases same
      exact admitted
  · exact fun admitted => Or.inr ⟨items, admitted, rfl⟩

theorem admits_singleton_iff (item : TypeRef) (datum : Datum Leaf) :
    item.list.Admits leaves (.list [datum]) ↔ item.Admits leaves datum := by
  rw [admits_list_iff, List.forall_mem_singleton]

/-- Below a mark, null is the only value that may be new. -/
theorem included_of_included_nonNull {inner new : TypeRef}
    (included : ∀ datum, inner.nonNull.Admits leaves datum → new.Admits leaves datum)
    (nullable : new.isNonNull = false) :
    ∀ datum, inner.Admits leaves datum → new.Admits leaves datum := by
  intro datum admitted
  by_cases isNull : datum = .null
  · rw [isNull]
    exact (admits_null_iff new).mpr nullable
  · exact included datum ⟨admitted, isNull⟩

theorem included_of_layerMismatch {old new : TypeRef} (sameName : old.name = new.name)
    (compatible : old.layerMismatch new = none) :
    ∀ datum, old.Admits leaves datum → new.Admits leaves datum := by
  induction old generalizing new with
  | named name =>
      cases new with
      | named other =>
          have same : name = other := sameName
          exact same ▸ fun _ admitted => admitted
      | list item | nonNull inner => cases compatible
  | list oldItem ih =>
      cases new with
      | named other | nonNull inner => cases compatible
      | list item =>
          have sameItemName : oldItem.name = item.name := sameName
          rintro datum (isNull | ⟨items, admitted, isList⟩)
          · exact Or.inl isNull
          · refine Or.inr ⟨items, fun entry member => ?_, isList⟩
            exact ih sameItemName compatible entry (admitted entry member)
  | nonNull oldInner ih =>
      rintro datum ⟨admitted, notNull⟩
      cases new with
      | named other | list item => exact ih sameName compatible datum admitted
      | nonNull inner =>
          have sameInnerName : oldInner.name = inner.name := sameName
          exact ⟨ih sameInnerName compatible datum admitted, notNull⟩

/-- Each difference of the outermost layers is seen in a value; behind lists on both sides the value
that shows the inner difference is put into a list. -/
theorem compatible_of_included {old new : TypeRef} (marks : new.HasSingleMarks)
    (included : ∀ datum, old.Admits leaves datum → new.Admits leaves datum) :
    old.name = new.name ∧ old.layerMismatch new = none := by
  induction old generalizing new with
  | named name =>
      obtain ⟨value, holds⟩ := leaves.inhabited name
      have leafAdmitted := included (.leaf value) ((admits_leaf_named_iff name value).mpr holds)
      cases new with
      | named other =>
          have otherHolds := (admits_leaf_named_iff other value).mp leafAdmitted
          exact ⟨leaves.disjoint name other value holds otherHolds, rfl⟩
      | list item => exact (not_admits_leaf_list item value leafAdmitted).elim
      | nonNull inner => exact absurd rfl (included .null (Or.inl rfl)).2
  | list oldItem ih =>
      have emptyAdmitted := included (.list [])
        ((admits_list_iff oldItem []).mpr fun _ member => absurd member List.not_mem_nil)
      cases new with
      | named other => exact (not_admits_list_named other [] emptyAdmitted).elim
      | list item =>
          have itemMarks : item.HasSingleMarks := marks
          have itemsIncluded : ∀ datum, oldItem.Admits leaves datum → item.Admits leaves datum := by
            intro datum admitted
            have inList := included (.list [datum])
              ((admits_singleton_iff oldItem datum).mpr admitted)
            exact (admits_singleton_iff item datum).mp inList
          exact ih itemMarks itemsIncluded
      | nonNull inner => exact absurd rfl (included .null (Or.inl rfl)).2
  | nonNull oldInner ih =>
      cases new with
      | named other => exact ih marks (included_of_included_nonNull included rfl)
      | list item => exact ih marks (included_of_included_nonNull included rfl)
      | nonNull inner =>
          obtain ⟨single, innerMarks⟩ := marks
          have innerIncluded : ∀ datum, oldInner.nonNull.Admits leaves datum →
              inner.Admits leaves datum := fun datum admitted => (included datum admitted).1
          exact ih innerMarks (included_of_included_nonNull innerIncluded single)

/-- A reference without marks on marks may replace another exactly if it admits all values of the
other. -/
theorem mismatch_eq_none_iff_included (leaves : LeafTypes Leaf) (old new : TypeRef)
    (marks : new.HasSingleMarks) :
    old.mismatch new = none ↔ ∀ datum, old.Admits leaves datum → new.Admits leaves datum := by
  unfold mismatch
  constructor
  · intro compatible
    split at compatible
    · rename_i sameName
      exact included_of_layerMismatch sameName compatible
    · cases compatible
  · intro included
    obtain ⟨sameName, compatible⟩ := compatible_of_included marks included
    rw [if_pos sameName]
    exact compatible

example : (nonNull (named "Int")).mismatch (nonNull (nonNull (named "Int"))) = some .stricter := by
  decide

def labelledLeaves : LeafTypes (String × Nat) where
  Holds name value := value.1 = name
  inhabited name := ⟨(name, 0), rfl⟩
  disjoint _ _ _ holds otherHolds := holds.symm.trans otherHolds

theorem looserScores_included :
    (list (named "Int")).HasSingleMarks ∧
      (∀ datum, (nonNull (list (nonNull (named "Int")))).Admits labelledLeaves datum →
        (list (named "Int")).Admits labelledLeaves datum) ∧
      ¬∀ datum, (list (list (named "Int"))).Admits labelledLeaves datum →
        (list (named "Int")).Admits labelledLeaves datum := by
  have marks : (list (named "Int")).HasSingleMarks := trivial
  have meaning (old : TypeRef) := mismatch_eq_none_iff_included labelledLeaves old _ marks
  refine ⟨marks, (meaning _).mp (by decide), fun included => ?_⟩
  have deeper : (list (list (named "Int"))).mismatch (list (named "Int")) ≠ none := by decide
  exact deeper ((meaning _).mpr included)

end TypeRef

end SchemaEvolution
