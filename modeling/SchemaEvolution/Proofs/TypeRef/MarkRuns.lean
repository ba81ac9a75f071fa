import SchemaEvolution.TypeRef.Compatibility

/-!
What decides the comparison of two references. From the outside in, the layers of a reference are
runs of marks, which may be empty, with a list between each run and the next. The outermost run at
which something is wrong decides alone: the new run is longer, or else only one of the references
goes on with a list.
-/

namespace SchemaEvolution.TypeRef

def depth (type : TypeRef) : Nat :=
  type.wrappers.count .list

/-- The lengths of the runs of marks from the outside in. The lists stand between the runs. -/
def markRuns (type : TypeRef) : List Nat :=
  (type.wrappers.reverse.splitOn .list).map List.length

example : (nonNull (nonNull (list (list (nonNull (named "Id")))))).markRuns = [2, 0, 1] := by decide

theorem markRuns_named (name : String) : (named name).markRuns = [0] :=
  rfl

theorem markRuns_list (item : TypeRef) : item.list.markRuns = 0 :: item.markRuns := by
  unfold markRuns
  rw [wrappers, List.reverse_append, List.reverse_singleton, List.singleton_append,
    List.splitOn_cons_eq_if_modifyHead, if_pos (by decide), List.map_cons, List.length_nil]

theorem markRuns_nonNull (inner : TypeRef) :
    inner.nonNull.markRuns = inner.markRuns.modifyHead (· + 1) := by
  unfold markRuns
  rw [wrappers, List.reverse_append, List.reverse_singleton, List.singleton_append,
    List.splitOn_cons_eq_if_modifyHead, if_neg (by decide)]
  cases inner.wrappers.reverse.splitOn .list <;> rfl

theorem markRuns_ne_nil (type : TypeRef) : type.markRuns ≠ [] :=
  fun empty => List.splitOn_ne_nil _ _ (List.map_eq_nil_iff.mp empty)

theorem exists_markRuns_eq_cons (type : TypeRef) : ∃ run runs, type.markRuns = run :: runs :=
  List.exists_cons_of_ne_nil type.markRuns_ne_nil

theorem length_markRuns (type : TypeRef) : type.markRuns.length = type.depth + 1 := by
  induction type with
  | named name => rfl
  | list item ih => simp [markRuns_list, ih, depth, wrappers]
  | nonNull inner ih =>
      rw [markRuns_nonNull, List.length_modifyHead, ih]
      simp [depth, wrappers]

variable {old new : List Nat} {oldRun newRun : Nat} {category : Category}

/-- What is wrong at one run: it has become longer, or it has not and it is the last one on one side
only. -/
inductive FaultAt (old new : List Nat) (index : Nat) : Category → Prop
  | longer {oldRun newRun : Nat} :
      old[index]? = some oldRun → new[index]? = some newRun → oldRun < newRun →
      FaultAt old new index .stricter
  | ending {oldRun newRun : Nat} :
      old[index]? = some oldRun → new[index]? = some newRun → newRun ≤ oldRun →
      (index + 1 = old.length ↔ index + 1 ≠ new.length) →
      FaultAt old new index .invalid

def FirstFault (old new : List Nat) (category : Category) : Prop :=
  ∃ index, FaultAt old new index category ∧
    ∀ earlier < index, ∀ other, ¬FaultAt old new earlier other

theorem faultAt_zero_iff :
    FaultAt (oldRun :: old) (newRun :: new) 0 category ↔
      (oldRun < newRun ∧ category = .stricter) ∨
        (newRun ≤ oldRun ∧ (old = [] ↔ new ≠ []) ∧ category = .invalid) := by
  constructor
  · intro fault
    cases fault with
    | longer atOld atNew longer =>
        cases atOld
        cases atNew
        exact Or.inl ⟨longer, rfl⟩
    | ending atOld atNew notLonger ends =>
        cases atOld
        cases atNew
        refine Or.inr ⟨notLonger, ?_, rfl⟩
        simpa [eq_comm, List.length_eq_zero_iff] using ends
  · rintro (⟨longer, rfl⟩ | ⟨notLonger, ends, rfl⟩)
    · exact .longer rfl rfl longer
    · refine .ending rfl rfl notLonger ?_
      simpa [eq_comm, List.length_eq_zero_iff] using ends

theorem faultAt_succ_iff (index : Nat) :
    FaultAt (oldRun :: old) (newRun :: new) (index + 1) category ↔
      FaultAt old new index category := by
  have ends : (index + 1 + 1 = (oldRun :: old).length ↔ index + 1 + 1 ≠ (newRun :: new).length) ↔
      (index + 1 = old.length ↔ index + 1 ≠ new.length) := by
    rw [List.length_cons, List.length_cons, Nat.add_right_cancel_iff, Ne, Nat.add_right_cancel_iff]
  constructor
  · intro fault
    cases fault with
    | longer atOld atNew longer => exact .longer atOld atNew longer
    | ending atOld atNew notLonger atEnd => exact .ending atOld atNew notLonger (ends.mp atEnd)
  · intro fault
    cases fault with
    | longer atOld atNew longer => exact .longer atOld atNew longer
    | ending atOld atNew notLonger atEnd => exact .ending atOld atNew notLonger (ends.mpr atEnd)

theorem firstFault_cons_iff :
    FirstFault (oldRun :: old) (newRun :: new) category ↔
      FaultAt (oldRun :: old) (newRun :: new) 0 category ∨
        (∀ other, ¬FaultAt (oldRun :: old) (newRun :: new) 0 other) ∧
          FirstFault old new category := by
  constructor
  · rintro ⟨index, fault, first⟩
    cases index with
    | zero => exact Or.inl fault
    | succ index =>
        refine Or.inr ⟨first 0 (Nat.succ_pos index), index, (faultAt_succ_iff index).mp fault, ?_⟩
        intro earlier before other faultBefore
        exact first (earlier + 1) (Nat.succ_lt_succ before) other
          ((faultAt_succ_iff earlier).mpr faultBefore)
  · rintro (atHead | ⟨headPasses, index, fault, first⟩)
    · exact ⟨0, atHead, fun earlier before => absurd before (Nat.not_lt_zero earlier)⟩
    · refine ⟨index + 1, (faultAt_succ_iff index).mpr fault, ?_⟩
      intro earlier before other faultBefore
      cases earlier with
      | zero => exact headPasses other faultBefore
      | succ earlier =>
          exact first earlier (Nat.lt_of_succ_lt_succ before) other
            ((faultAt_succ_iff earlier).mp faultBefore)

theorem not_firstFault_nil : ¬FirstFault [] new category := by
  rintro ⟨index, fault, _⟩
  cases fault with
  | longer atOld _ _ | ending atOld _ _ _ => cases atOld

/-- Where there is a fault, there is an outermost one. -/
theorem exists_firstFault {index : Nat} (fault : FaultAt old new index category) :
    ∃ verdict, FirstFault old new verdict := by
  induction index using Nat.strongRecOn generalizing category with
  | ind index ih =>
      by_cases isFirst : ∀ earlier < index, ∀ other, ¬FaultAt old new earlier other
      · exact ⟨category, index, fault, isFirst⟩
      · simp only [Classical.not_forall, Classical.not_not] at isFirst
        obtain ⟨earlier, before, other, faultBefore⟩ := isFirst
        exact ih earlier before faultBefore

theorem forall_not_faultAt_iff (hasOld : old ≠ []) (hasNew : new ≠ []) :
    (∀ index category, ¬FaultAt old new index category) ↔
      old.length = new.length ∧ ∀ (index oldRun newRun : Nat), old[index]? = some oldRun →
        new[index]? = some newRun → newRun ≤ oldRun := by
  constructor
  · intro passes
    have notLonger (index oldRun newRun : Nat) (atOld : old[index]? = some oldRun)
        (atNew : new[index]? = some newRun) : newRun ≤ oldRun :=
      Nat.le_of_not_lt fun longer => passes index .stricter (.longer atOld atNew longer)
    refine ⟨?_, notLonger⟩
    have oldPos := List.length_pos_iff.mpr hasOld
    have newPos := List.length_pos_iff.mpr hasNew
    let index := min old.length new.length - 1
    have inOld : index < old.length := by omega
    have inNew : index < new.length := by omega
    have atOld := List.getElem?_eq_getElem inOld
    have atNew := List.getElem?_eq_getElem inNew
    have notEnding : ¬(index + 1 = old.length ↔ index + 1 ≠ new.length) := fun ends =>
      passes index .invalid (.ending atOld atNew (notLonger _ _ _ atOld atNew) ends)
    omega
  · rintro ⟨sameLength, notLonger⟩ index category fault
    cases fault with
    | longer atOld atNew longer => exact Nat.not_lt.mpr (notLonger _ _ _ atOld atNew) longer
    | ending _ _ _ ends =>
        rw [sameLength] at ends
        exact iff_not_self ends

theorem firstFault_of_longer (longer : oldRun < newRun) :
    FirstFault (oldRun :: old) (newRun :: new) category ↔ category = .stricter := by
  have notShorter : ¬newRun ≤ oldRun := Nat.not_le.mpr longer
  simp only [firstFault_cons_iff, faultAt_zero_iff, longer, notShorter, true_and, false_and,
    or_false, forall_eq]

theorem firstFault_of_ending (notLonger : newRun ≤ oldRun) (ends : old = [] ↔ new ≠ []) :
    FirstFault (oldRun :: old) (newRun :: new) category ↔ category = .invalid := by
  have notShorter : ¬oldRun < newRun := Nat.not_lt.mpr notLonger
  simp only [firstFault_cons_iff, faultAt_zero_iff, notLonger, notShorter, ends, true_and,
    false_and, false_or, or_false, forall_eq]

theorem firstFault_of_passed (notLonger : newRun ≤ oldRun) (goesOn : old = [] ↔ new = []) :
    FirstFault (oldRun :: old) (newRun :: new) category ↔ FirstFault old new category := by
  have notShorter : ¬oldRun < newRun := Nat.not_lt.mpr notLonger
  have notEnding : ¬(old = [] ↔ new ≠ []) := by
    rw [goesOn]
    exact iff_not_self
  simp only [firstFault_cons_iff, faultAt_zero_iff, notShorter, notEnding, false_and, and_false,
    or_false, false_or, not_false_eq_true, implies_true, true_and]

/-- Of the first two runs it matters only which one is longer. -/
theorem firstFault_congr_head {otherOld otherNew : Nat}
    (alike : oldRun < newRun ↔ otherOld < otherNew) :
    FirstFault (oldRun :: old) (newRun :: new) category ↔
      FirstFault (otherOld :: old) (otherNew :: new) category := by
  have shorter : newRun ≤ oldRun ↔ otherNew ≤ otherOld := by omega
  simp only [firstFault_cons_iff, faultAt_zero_iff, alike, shorter]

theorem firstFault_nonNull_iff (inner : TypeRef) :
    FirstFault (0 :: old) inner.nonNull.markRuns category ↔ category = .stricter := by
  obtain ⟨run, runs, innerRuns⟩ := exists_markRuns_eq_cons inner
  rw [markRuns_nonNull, innerRuns, List.modifyHead_cons]
  exact firstFault_of_longer (Nat.succ_pos run)

theorem layerMismatch_eq_some_iff (old new : TypeRef) (category : Category) :
    old.layerMismatch new = some category ↔ FirstFault old.markRuns new.markRuns category := by
  have decided (verdict : Category) : some verdict = some category ↔ category = verdict :=
    Option.some_inj.trans eq_comm
  induction old generalizing new with
  | named name =>
      rw [markRuns_named]
      cases new with
      | named other =>
          rw [markRuns_named, firstFault_of_passed (Nat.le_refl 0) Iff.rfl]
          exact ⟨nofun, fun first => (not_firstFault_nil first).elim⟩
      | list item =>
          rw [markRuns_list, firstFault_of_ending (Nat.le_refl 0) (by simp [markRuns_ne_nil])]
          exact decided .invalid
      | nonNull inner =>
          rw [firstFault_nonNull_iff]
          exact decided .stricter
  | list oldItem ih =>
      rw [markRuns_list]
      cases new with
      | named other =>
          rw [markRuns_named, firstFault_of_ending (Nat.le_refl 0) (by simp [markRuns_ne_nil])]
          exact decided .invalid
      | list item =>
          rw [markRuns_list, firstFault_of_passed (Nat.le_refl 0) (by simp [markRuns_ne_nil])]
          exact ih item
      | nonNull inner =>
          rw [firstFault_nonNull_iff]
          exact decided .stricter
  | nonNull oldInner ih =>
      -- The old mark is taken off, and with it a mark of the new reference if there is one.
      obtain ⟨oldRun, oldRuns, oldInnerRuns⟩ := exists_markRuns_eq_cons oldInner
      rw [markRuns_nonNull, oldInnerRuns, List.modifyHead_cons]
      have neverLonger : oldRun + 1 < 0 ↔ oldRun < 0 := by omega
      cases new with
      | named other =>
          rw [markRuns_named, firstFault_congr_head neverLonger, ← oldInnerRuns]
          exact ih (named other)
      | list item =>
          rw [markRuns_list, firstFault_congr_head neverLonger, ← oldInnerRuns, ← markRuns_list]
          exact ih item.list
      | nonNull inner =>
          obtain ⟨run, runs, innerRuns⟩ := exists_markRuns_eq_cons inner
          rw [markRuns_nonNull, innerRuns, List.modifyHead_cons,
            firstFault_congr_head Nat.succ_lt_succ_iff, ← oldInnerRuns, ← innerRuns]
          exact ih inner

theorem layerMismatch_eq_none_iff (old new : TypeRef) :
    old.layerMismatch new = none ↔
      ∀ index category, ¬FaultAt old.markRuns new.markRuns index category := by
  rw [Option.eq_none_iff_forall_ne_some]
  constructor
  · intro undecided index category fault
    obtain ⟨verdict, first⟩ := exists_firstFault fault
    exact undecided verdict ((layerMismatch_eq_some_iff old new verdict).mpr first)
  · intro passes category decided
    obtain ⟨index, fault, _⟩ := (layerMismatch_eq_some_iff old new category).mp decided
    exact passes index category fault

/-- Other names are invalid; otherwise the outermost fault alone decides, also where marks stand on
marks. Without a fault the lists nest equally deep, and no run of marks has become longer. -/
theorem mismatch_decided_by_firstFault (old new : TypeRef) :
    (old.name ≠ new.name ∧ old.mismatch new = some .invalid) ∨
      (old.name = new.name ∧
        (∀ category, old.mismatch new = some category ↔
          FirstFault old.markRuns new.markRuns category) ∧
        (old.mismatch new = none ↔
          ∀ index category, ¬FaultAt old.markRuns new.markRuns index category) ∧
        (old.mismatch new = none ↔
          old.depth = new.depth ∧ ∀ (index oldRun newRun : Nat),
            old.markRuns[index]? = some oldRun → new.markRuns[index]? = some newRun →
              newRun ≤ oldRun)) := by
  by_cases sameName : old.name = new.name
  · have layers : old.mismatch new = old.layerMismatch new := if_pos sameName
    have passes := layerMismatch_eq_none_iff old new
    refine Or.inr ⟨sameName, ?_, ?_, ?_⟩
    · rw [layers]
      exact layerMismatch_eq_some_iff old new
    · rw [layers]
      exact passes
    · rw [layers, passes, forall_not_faultAt_iff old.markRuns_ne_nil new.markRuns_ne_nil,
        length_markRuns, length_markRuns, Nat.add_right_cancel_iff]
  · exact Or.inl ⟨sameName, if_neg sameName⟩

example : (list (list (named "Id"))).mismatch (nonNull (list (named "Id"))) = some .stricter := by
  decide

end SchemaEvolution.TypeRef
