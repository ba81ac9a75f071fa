import Mathlib.Data.List.Perm.Basic
import SchemaEvolution.Diff.Result
import SchemaEvolution.Proofs.Diff.Steps

/-!
The pairs of types that a walk compares. A walk that does not give up reports what is on its agenda
and what the scripts of these pairs report, no more and no less. Every name that the agenda or one
of the scripts leads to is compared, each once, with the new name it was first led to.
-/

namespace SchemaEvolution.Diff

section Walk

variable (options : Options) (oldDocument newDocument : Document)

/-- The old and new names that a walk compares, in the order in which it turns to them. A step that
gives up is passed over, so that the pairs do not depend on where a walk ends. -/
def visits (unexamined : List String) (agenda : List Step) : List (String × String) :=
  match agenda with
  | [] => []
  | .report _ :: rest => visits unexamined rest
  | .giveUp _ :: rest => visits unexamined rest
  | .follow oldName newName :: rest =>
      if _new : oldName ∈ unexamined then
        (oldName, newName) :: visits (withoutName oldName unexamined)
          (script options oldDocument newDocument oldName newName ++ rest)
      else visits unexamined rest
termination_by (unexamined.length, agenda.length)
decreasing_by
  · exact Prod.Lex.right _ (by simp)
  · exact Prod.Lex.right _ (by simp)
  · exact Prod.Lex.left _ _ (length_withoutName_lt _new)
  · exact Prod.Lex.right _ (by simp)

variable {options oldDocument newDocument} {unexamined : List String} {agenda : List Step}

theorem mem_withoutName_iff (name other : String) (names : List String) :
    other ∈ withoutName name names ↔ other ∈ names ∧ other ≠ name := by
  simp [withoutName]

/-- What holds of the pairs on the agenda, and is handed on from a compared pair to those that its
script follows, holds of all compared pairs. -/
theorem visits_induction (holds : String → String → Prop)
    (onAgenda : ∀ oldName newName, .follow oldName newName ∈ agenda → holds oldName newName)
    (handedOn : ∀ oldName newName,
      (oldName, newName) ∈ visits options oldDocument newDocument unexamined agenda →
      holds oldName newName → ∀ nextOld nextNew,
        .follow nextOld nextNew ∈ script options oldDocument newDocument oldName newName →
        holds nextOld nextNew) :
    ∀ oldName newName,
      (oldName, newName) ∈ visits options oldDocument newDocument unexamined agenda →
      holds oldName newName := by
  fun_induction visits options oldDocument newDocument unexamined agenda with
  | case1 unexamined => intro oldName newName member; cases member
  | case2 unexamined event rest ih =>
      exact ih (fun _ _ member => onAgenda _ _ (List.mem_cons_of_mem _ member)) handedOn
  | case3 unexamined error rest ih =>
      exact ih (fun _ _ member => onAgenda _ _ (List.mem_cons_of_mem _ member)) handedOn
  | case4 unexamined firstOld firstNew rest isNew ih =>
      have first : holds firstOld firstNew := onAgenda _ _ List.mem_cons_self
      have later := ih
        (fun nextOld nextNew member => (List.mem_append.mp member).elim
          (handedOn firstOld firstNew List.mem_cons_self first nextOld nextNew)
          (fun inRest => onAgenda _ _ (List.mem_cons_of_mem _ inRest)))
        (fun oldName newName member => handedOn oldName newName (List.mem_cons_of_mem _ member))
      intro oldName newName member
      rcases List.mem_cons.mp member with same | behind
      · cases same
        exact first
      · exact later oldName newName behind
  | case5 unexamined firstOld firstNew rest notNew ih =>
      exact ih (fun _ _ member => onAgenda _ _ (List.mem_cons_of_mem _ member)) handedOn

theorem origin_of_mem_visits {oldName newName : String}
    (member : (oldName, newName) ∈ visits options oldDocument newDocument unexamined agenda) :
    .follow oldName newName ∈ agenda ∨
      ∃ pair ∈ visits options oldDocument newDocument unexamined agenda,
        .follow oldName newName ∈ script options oldDocument newDocument pair.1 pair.2 :=
  visits_induction
    (fun laterOld laterNew => .follow laterOld laterNew ∈ agenda ∨
      ∃ pair ∈ visits options oldDocument newDocument unexamined agenda,
        .follow laterOld laterNew ∈ script options oldDocument newDocument pair.1 pair.2)
    (fun _ _ onAgenda => Or.inl onAgenda)
    (fun firstOld firstNew visited _ _ _ follows =>
      Or.inr ⟨(firstOld, firstNew), visited, follows⟩)
    oldName newName member

theorem exists_visit_of_mem_agenda {oldName newName : String}
    (follows : .follow oldName newName ∈ agenda) (unseen : oldName ∈ unexamined) :
    ∃ other, (oldName, other) ∈ visits options oldDocument newDocument unexamined agenda := by
  fun_induction visits options oldDocument newDocument unexamined agenda with
  | case1 unexamined => cases follows
  | case2 unexamined event rest ih => exact ih (by simpa using follows) unseen
  | case3 unexamined error rest ih => exact ih (by simpa using follows) unseen
  | case4 unexamined firstOld firstNew rest isNew ih =>
      by_cases same : oldName = firstOld
      · exact ⟨firstNew, by simp [same]⟩
      · have inRest : .follow oldName newName ∈ rest := by simpa [same] using follows
        obtain ⟨other, visited⟩ := ih (List.mem_append_right _ inRest)
          ((mem_withoutName_iff firstOld oldName unexamined).mpr ⟨unseen, same⟩)
        exact ⟨other, List.mem_cons_of_mem _ visited⟩
  | case5 unexamined firstOld firstNew rest notNew ih =>
      have different : oldName ≠ firstOld := fun same => notNew (same ▸ unseen)
      exact ih (by simpa [different] using follows) unseen

/-- What the script of a compared pair leads to is compared as well. -/
theorem exists_visit_of_mem_script {oldName newName nextOld nextNew : String}
    (visited : (oldName, newName) ∈ visits options oldDocument newDocument unexamined agenda)
    (follows : .follow nextOld nextNew ∈ script options oldDocument newDocument oldName newName)
    (unseen : nextOld ∈ unexamined) :
    ∃ other, (nextOld, other) ∈ visits options oldDocument newDocument unexamined agenda := by
  fun_induction visits options oldDocument newDocument unexamined agenda with
  | case1 unexamined => cases visited
  | case2 unexamined event rest ih => exact ih visited unseen
  | case3 unexamined error rest ih => exact ih visited unseen
  | case4 unexamined firstOld firstNew rest isNew ih =>
      by_cases same : nextOld = firstOld
      · exact ⟨firstNew, by simp [same]⟩
      · have stillUnseen : nextOld ∈ withoutName firstOld unexamined :=
          (mem_withoutName_iff firstOld nextOld unexamined).mpr ⟨unseen, same⟩
        rcases List.mem_cons.mp visited with atHead | behind
        · cases atHead
          obtain ⟨other, found⟩ :=
            exists_visit_of_mem_agenda (List.mem_append_left _ follows) stillUnseen
          exact ⟨other, List.mem_cons_of_mem _ found⟩
        · obtain ⟨other, found⟩ := ih behind stillUnseen
          exact ⟨other, List.mem_cons_of_mem _ found⟩
  | case5 unexamined firstOld firstNew rest notNew ih => exact ih visited unseen

theorem mem_unexamined_of_mem_visits {oldName : String}
    (visited : oldName ∈ (visits options oldDocument newDocument unexamined agenda).map Prod.fst) :
    oldName ∈ unexamined := by
  fun_induction visits options oldDocument newDocument unexamined agenda with
  | case1 unexamined => cases visited
  | case2 unexamined event rest ih => exact ih visited
  | case3 unexamined error rest ih => exact ih visited
  | case4 unexamined firstOld firstNew rest isNew ih =>
      rcases List.mem_cons.mp visited with atHead | behind
      · exact atHead ▸ isNew
      · exact ((mem_withoutName_iff firstOld oldName unexamined).mp (ih behind)).1
  | case5 unexamined firstOld firstNew rest notNew ih => exact ih visited

/-- No old name is turned to twice. -/
theorem nodup_visits :
    ((visits options oldDocument newDocument unexamined agenda).map Prod.fst).Nodup := by
  fun_induction visits options oldDocument newDocument unexamined agenda with
  | case1 unexamined => exact List.nodup_nil
  | case2 unexamined event rest ih => exact ih
  | case3 unexamined error rest ih => exact ih
  | case4 unexamined firstOld firstNew rest isNew ih =>
      refine List.nodup_cons.mpr ⟨fun again => ?_, ih⟩
      have stillUnseen := mem_unexamined_of_mem_visits again
      exact ((mem_withoutName_iff firstOld firstOld unexamined).mp stillUnseen).2 rfl
  | case5 unexamined firstOld firstNew rest notNew ih => exact ih

theorem walk_failure?_eq_none_iff :
    (walk options oldDocument newDocument unexamined agenda).failure? = none ↔
      GoesOn agenda ∧ ∀ pair ∈ visits options oldDocument newDocument unexamined agenda,
        GoesOn (script options oldDocument newDocument pair.1 pair.2) := by
  fun_induction visits options oldDocument newDocument unexamined agenda with
  | case1 unexamined => simp [walk, Trace.finished, GoesOn]
  | case2 unexamined event rest ih =>
      rw [walk, goesOn_cons_report]
      exact ih
  | case3 unexamined error rest ih =>
      rw [walk]
      constructor
      · intro impossible
        cases impossible
      · rintro ⟨goesOn, _⟩
        exact absurd List.mem_cons_self (goesOn error)
  | case4 unexamined firstOld firstNew rest isNew ih =>
      rw [walk, dif_pos isNew, ih, goesOn_append, goesOn_cons_follow, List.forall_mem_cons,
        and_assoc, and_left_comm]
  | case5 unexamined firstOld firstNew rest notNew ih =>
      rw [walk, dif_neg notNew, goesOn_cons_follow]
      exact ih

/-- A walk that comes to its end has reported the agenda and the scripts of all compared pairs,
each event as often as it stands there. -/
theorem walk_events_perm
    (finished : (walk options oldDocument newDocument unexamined agenda).failure? = none) :
    (walk options oldDocument newDocument unexamined agenda).events.Perm
      (reported agenda ++
        (visits options oldDocument newDocument unexamined agenda).flatMap fun pair =>
          reported (script options oldDocument newDocument pair.1 pair.2)) := by
  fun_induction visits options oldDocument newDocument unexamined agenda with
  | case1 unexamined => simp [walk, Trace.finished, reported]
  | case2 unexamined event rest ih =>
      rw [walk] at finished ⊢
      exact (ih finished).cons event
  | case3 unexamined error rest ih =>
      rw [walk] at finished
      cases finished
  | case4 unexamined firstOld firstNew rest isNew ih =>
      rw [walk, dif_pos isNew] at finished ⊢
      have later := ih finished
      rw [reported_append, List.append_assoc] at later
      rw [List.flatMap_cons]
      exact later.trans (List.perm_append_comm_assoc _ _ _)
  | case5 unexamined firstOld firstNew rest notNew ih =>
      rw [walk, dif_neg notNew] at finished ⊢
      exact ih finished

/-- A walk that gives up has reported nothing else either. -/
theorem mem_of_mem_walk_events {event : Event}
    (member : event ∈ (walk options oldDocument newDocument unexamined agenda).events) :
    event ∈ reported agenda ∨
      ∃ pair ∈ visits options oldDocument newDocument unexamined agenda,
        event ∈ reported (script options oldDocument newDocument pair.1 pair.2) := by
  fun_induction visits options oldDocument newDocument unexamined agenda with
  | case1 unexamined =>
      rw [walk] at member
      cases member
  | case2 unexamined first rest ih =>
      rw [walk] at member
      rcases List.mem_cons.mp member with atHead | later
      · exact Or.inl (atHead ▸ List.mem_cons_self)
      · exact (ih later).imp_left (List.mem_cons_of_mem _)
  | case3 unexamined error rest ih =>
      rw [walk] at member
      cases member
  | case4 unexamined firstOld firstNew rest isNew ih =>
      rw [walk, dif_pos isNew] at member
      rcases ih member with onAgenda | ⟨pair, visited, inScript⟩
      · rw [reported_append] at onAgenda
        rcases List.mem_append.mp onAgenda with inScript | inRest
        · exact Or.inr ⟨_, List.mem_cons_self, inScript⟩
        · exact Or.inl inRest
      · exact Or.inr ⟨pair, List.mem_cons_of_mem _ visited, inScript⟩
  | case5 unexamined firstOld firstNew rest notNew ih =>
      rw [walk, dif_neg notNew] at member
      exact ih member

end Walk

def operationsScript (oldDocument newDocument : Document) : List Step :=
  OperationType.all.flatMap (operationScript oldDocument newDocument)

/-- The old and new names that a comparison looks up together, in the order in which it turns to
them. -/
def comparisons (options : Options) (oldDocument newDocument : Document) :
    List (String × String) :=
  visits options oldDocument newDocument oldDocument.mentions
    (operationsScript oldDocument newDocument)

def comparedNames (options : Options) (oldDocument newDocument : Document) : List String :=
  (comparisons options oldDocument newDocument).map Prod.fst

theorem mem_comparedNames_iff {options : Options} {oldDocument newDocument : Document}
    (name : String) :
    name ∈ comparedNames options oldDocument newDocument ↔
      ∃ newName, (name, newName) ∈ comparisons options oldDocument newDocument := by
  simp [comparedNames]

theorem nodup_comparedNames (options : Options) (oldDocument newDocument : Document) :
    (comparedNames options oldDocument newDocument).Nodup :=
  nodup_visits

theorem mem_allOperations (operation : OperationType) : operation ∈ OperationType.all := by
  cases operation <;> decide

theorem mem_operationsScript_iff (oldDocument newDocument : Document) (step : Step) :
    step ∈ operationsScript oldDocument newDocument ↔
      ∃ operation, step ∈ operationScript oldDocument newDocument operation := by
  simp only [operationsScript, List.mem_flatMap, mem_allOperations, true_and]

theorem follow_mem_operationsScript_iff (oldDocument newDocument : Document)
    (oldName newName : String) :
    .follow oldName newName ∈ operationsScript oldDocument newDocument ↔
      ∃ operation, oldDocument.root? operation = some oldName ∧
        newDocument.root? operation = some newName ∧ (oldDocument.type? oldName).isSome := by
  rw [mem_operationsScript_iff]
  refine exists_congr fun operation => ?_
  unfold operationScript
  cases oldDocument.root? operation with
  | none => simp
  | some oldRoot =>
      cases newDocument.root? operation with
      | none => simp
      | some newRoot =>
          simp only [Option.some.injEq]
          constructor
          · intro member
            split at member
            · cases member
            · rename_i defined
              cases List.mem_singleton.mp member
              exact ⟨rfl, rfl, by simpa [Option.isSome_iff_ne_none] using defined⟩
          · rintro ⟨rfl, rfl, defined⟩
            rw [if_neg (by simpa [Option.isSome_iff_ne_none] using defined)]
            exact List.mem_singleton_self _

theorem quiet_operationsScript_iff (oldDocument newDocument : Document) :
    Quiet (operationsScript oldDocument newDocument) ↔
      ∀ operation, (oldDocument.root? operation).isSome → (newDocument.root? operation).isSome := by
  have perOperation (operation : OperationType) :
      Quiet (operationScript oldDocument newDocument operation) ↔
        ((oldDocument.root? operation).isSome → (newDocument.root? operation).isSome) := by
    unfold operationScript Quiet
    cases oldDocument.root? operation with
    | none => simp
    | some oldRoot =>
        cases newDocument.root? operation with
        | none => simp [Step.IsQuiet, Event.breaking, Event.isBreaking]
        | some newRoot => cases oldDocument.type? oldRoot <;> simp [Step.IsQuiet]
  constructor
  · intro quiet operation
    refine (perOperation operation).mp fun step member => quiet step ?_
    exact (mem_operationsScript_iff oldDocument newDocument step).mpr ⟨operation, member⟩
  · intro kept step member
    obtain ⟨operation, inScript⟩ := (mem_operationsScript_iff oldDocument newDocument step).mp member
    exact (perOperation operation).mpr (kept operation) step inScript

theorem diff_failure?_eq_none_iff (options : Options) (oldDocument newDocument : Document) :
    (diff options oldDocument newDocument).failure? = none ↔
      GoesOn (operationsScript oldDocument newDocument) ∧
        ∀ pair ∈ comparisons options oldDocument newDocument,
          GoesOn (script options oldDocument newDocument pair.1 pair.2) :=
  walk_failure?_eq_none_iff

theorem mem_diff_events_iff {options : Options} {oldDocument newDocument : Document}
    (finished : (diff options oldDocument newDocument).failure? = none) (event : Event) :
    event ∈ (diff options oldDocument newDocument).events ↔
      event ∈ reported (operationsScript oldDocument newDocument) ∨
        ∃ pair ∈ comparisons options oldDocument newDocument,
          event ∈ reported (script options oldDocument newDocument pair.1 pair.2) := by
  have permuted := walk_events_perm finished
  change event ∈ (walk options oldDocument newDocument _ _).events ↔ _
  rw [permuted.mem_iff, List.mem_append, List.mem_flatMap]
  rfl

theorem mem_diff_events_of_mem_script {options : Options} {oldDocument newDocument : Document}
    {oldName newName : String} {event : Event}
    (finished : (diff options oldDocument newDocument).failure? = none)
    (compared : (oldName, newName) ∈ comparisons options oldDocument newDocument)
    (inScript : .report event ∈ script options oldDocument newDocument oldName newName) :
    event ∈ (diff options oldDocument newDocument).events := by
  rw [mem_diff_events_iff finished]
  exact Or.inr ⟨_, compared, (mem_reported_iff event _).mpr inScript⟩

theorem breakingCount_eq_ok_zero_iff_events (trace : Trace) :
    trace.breakingCount = .ok 0 ↔
      trace.failure? = none ∧ ∀ event ∈ trace.events, event.isBreaking = false := by
  unfold Trace.breakingCount
  cases trace.failure? with
  | none => simp [List.countP_eq_zero]
  | some error => simp

/-- A comparison finds no break exactly if all scripts that it carries out are quiet. -/
theorem breakingCount_eq_ok_zero_iff_quiet (options : Options)
    (oldDocument newDocument : Document) :
    (diff options oldDocument newDocument).breakingCount = .ok 0 ↔
      Quiet (operationsScript oldDocument newDocument) ∧
        ∀ pair ∈ comparisons options oldDocument newDocument,
          Quiet (script options oldDocument newDocument pair.1 pair.2) := by
  rw [breakingCount_eq_ok_zero_iff_events]
  simp only [quiet_iff]
  constructor
  · rintro ⟨finished, harmless⟩
    obtain ⟨start, later⟩ := (diff_failure?_eq_none_iff _ _ _).mp finished
    refine ⟨⟨start, fun event member => ?_⟩, fun pair compared =>
      ⟨later pair compared, fun event member => ?_⟩⟩
    · exact harmless event ((mem_diff_events_iff finished event).mpr (Or.inl member))
    · exact harmless event
        ((mem_diff_events_iff finished event).mpr (Or.inr ⟨pair, compared, member⟩))
  · rintro ⟨⟨start, startHarmless⟩, later⟩
    have finished := (diff_failure?_eq_none_iff options oldDocument newDocument).mpr
      ⟨start, fun pair compared => (later pair compared).1⟩
    refine ⟨finished, fun event member => ?_⟩
    rcases (mem_diff_events_iff finished event).mp member with atStart | ⟨pair, compared, inScript⟩
    · exact startHarmless event atStart
    · exact (later pair compared).2 event inScript

end SchemaEvolution.Diff
