import Mathlib.Data.List.Nodup
import SchemaEvolution.SortedSet

/-!
The elements of a sorted set are those of the list it was made from, each once, and they are all
that there is to know of the set.
-/

namespace SchemaEvolution

theorem mem_insertAscending_iff {α : Type} [Ord α] [Std.LawfulEqOrd α] (item element : α)
    (items : List α) :
    element ∈ insertAscending item items ↔ element = item ∨ element ∈ items := by
  constructor
  · exact mem_insertAscending
  · induction items with
    | nil => simp [insertAscending]
    | cons other rest ih =>
        intro present
        unfold insertAscending
        split
        · simpa using present
        · rename_i equal
          have same : item = other := Std.LawfulEqCmp.eq_of_compare equal
          subst same
          simpa using present
        · rcases present with isItem | inItems
          · exact List.mem_cons_of_mem _ (ih (Or.inl isItem))
          · rcases List.mem_cons.mp inItems with atHead | inRest
            · exact List.mem_cons.mpr (Or.inl atHead)
            · exact List.mem_cons_of_mem _ (ih (Or.inr inRest))

theorem SortedSet.mem_elements_ofList {α : Type} [Ord α] [Std.TransOrd α] [Std.LawfulEqOrd α]
    (element : α) (items : List α) :
    element ∈ (SortedSet.ofList items).elements ↔ element ∈ items := by
  suffices ∀ set : SortedSet α,
      element ∈ (items.foldl SortedSet.insert set).elements ↔
        element ∈ set.elements ∨ element ∈ items by
    rw [SortedSet.ofList, this]
    simp [EmptyCollection.emptyCollection, SortedSet.empty]
  induction items with
  | nil => intro set; simp
  | cons item rest ih =>
      intro set
      rw [List.foldl_cons, ih]
      change element ∈ insertAscending item set.elements ∨ _ ↔ _
      rw [mem_insertAscending_iff, List.mem_cons, or_assoc, or_left_comm]

theorem SortedSet.nodup_elements {α : Type} [Ord α] [Std.ReflOrd α] (set : SortedSet α) :
    set.elements.Nodup := by
  refine set.ascend.imp fun before same => ?_
  rw [same, Std.compare_self] at before
  cases before

theorem SortedSet.eq_of_elements {α : Type} [Ord α] {left right : SortedSet α}
    (same : left.elements = right.elements) : left = right := by
  cases left
  cases right
  cases same
  rfl

/-- Two lists give one set exactly if they have the same items, in whatever order and how often. -/
theorem SortedSet.ofList_eq_iff {α : Type} [Ord α] [Std.TransOrd α] [Std.LawfulEqOrd α]
    (left right : List α) : ofList left = ofList right ↔ ∀ item, item ∈ left ↔ item ∈ right := by
  constructor
  · intro same item
    rw [← mem_elements_ofList, same, mem_elements_ofList]
  · intro same
    have members (item : α) : item ∈ (ofList left).elements ↔ item ∈ (ofList right).elements := by
      rw [mem_elements_ofList, mem_elements_ofList, same]
    have perm : (ofList left).elements.Perm (ofList right).elements :=
      (List.perm_ext_iff_of_nodup (nodup_elements _) (nodup_elements _)).mpr members
    refine eq_of_elements (perm.eq_of_pairwise (fun item other _ _ before after => ?_)
      (ofList left).ascend (ofList right).ascend)
    rw [Std.OrientedCmp.gt_of_lt before] at after
    cases after

theorem SortedSet.ofList_eq_of_perm {α : Type} [Ord α] [Std.TransOrd α] [Std.LawfulEqOrd α]
    {left right : List α} (perm : left.Perm right) : ofList left = ofList right :=
  (ofList_eq_iff left right).mpr fun _ => perm.mem_iff

end SchemaEvolution
