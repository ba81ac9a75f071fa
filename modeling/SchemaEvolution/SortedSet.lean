/-!
Finite sets of an ordered type, held as a list in strictly ascending order.
-/

namespace SchemaEvolution

def insertAscending {α : Type} [Ord α] (item : α) : List α → List α
  | [] => [item]
  | other :: rest =>
      match compare item other with
      | .lt => item :: other :: rest
      | .eq => other :: rest
      | .gt => other :: insertAscending item rest

theorem mem_insertAscending {α : Type} [Ord α] {item element : α} {items : List α}
    (member : element ∈ insertAscending item items) : element = item ∨ element ∈ items := by
  induction items with
  | nil => simpa [insertAscending] using member
  | cons other rest ih =>
      unfold insertAscending at member
      split at member
      · simpa using member
      · exact Or.inr member
      · rcases List.mem_cons.mp member with atHead | inRest
        · exact Or.inr (by simp [atHead])
        · rcases ih inRest with inserted | kept
          · exact Or.inl inserted
          · exact Or.inr (List.mem_cons_of_mem _ kept)

theorem pairwise_insertAscending {α : Type} [Ord α] [Std.TransOrd α] {items : List α}
    (ascend : items.Pairwise fun earlier later => compare earlier later = .lt) (item : α) :
    (insertAscending item items).Pairwise fun earlier later => compare earlier later = .lt := by
  induction items with
  | nil => simp [insertAscending]
  | cons other rest ih =>
      have ⟨headFirst, restAscend⟩ := List.pairwise_cons.mp ascend
      unfold insertAscending
      split
      · rename_i before
        refine List.pairwise_cons.mpr ⟨fun element member => ?_, ascend⟩
        rcases List.mem_cons.mp member with atHead | inRest
        · simpa [atHead] using before
        · exact Std.TransCmp.lt_trans before (headFirst element inRest)
      · exact ascend
      · rename_i after
        refine List.pairwise_cons.mpr ⟨fun element member => ?_, ih restAscend⟩
        rcases mem_insertAscending member with inserted | kept
        · simpa [inserted] using Std.OrientedCmp.lt_of_gt after
        · exact headFirst element kept

/-- A set of an ordered type, as its elements in ascending order. -/
structure SortedSet (α : Type) [Ord α] where
  elements : List α
  ascend : elements.Pairwise fun earlier later => compare earlier later = .lt

namespace SortedSet

variable {α : Type} [Ord α]

def empty : SortedSet α :=
  ⟨[], List.Pairwise.nil⟩

instance : EmptyCollection (SortedSet α) :=
  ⟨empty⟩

def isEmpty (set : SortedSet α) : Bool :=
  set.elements.isEmpty

variable [Std.TransOrd α]

def insert (set : SortedSet α) (item : α) : SortedSet α :=
  ⟨insertAscending item set.elements, pairwise_insertAscending set.ascend item⟩

def ofList (items : List α) : SortedSet α :=
  items.foldl SortedSet.insert ∅

end SortedSet

end SchemaEvolution
