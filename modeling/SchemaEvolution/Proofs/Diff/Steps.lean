import SchemaEvolution.Diff.Script
import SchemaEvolution.Proofs.NameMap

/-!
Lists of steps: the events among them, whether one of them gives up, and when they are quiet, that
is, neither give up nor report a break.
-/

namespace SchemaEvolution

theorem Event.isBreaking_of_isProgress {event : Event} (progress : event.isProgress = true) :
    event.isBreaking = false := by
  obtain ⟨location, finding, reason⟩ := event
  cases finding with
  | progress => rfl
  | breaking _ _ | dangerous _ _ => cases progress

namespace Diff

def Step.event? : Step → Option Event
  | .report event => some event
  | .follow _ _ | .giveUp _ => none

def reported (steps : List Step) : List Event :=
  steps.filterMap Step.event?

theorem reported_append (first second : List Step) :
    reported (first ++ second) = reported first ++ reported second :=
  List.filterMap_append

theorem reported_cons_report (event : Event) (steps : List Step) :
    reported (.report event :: steps) = event :: reported steps :=
  rfl

theorem mem_reported_iff (event : Event) (steps : List Step) :
    event ∈ reported steps ↔ Step.report event ∈ steps := by
  unfold reported
  rw [List.mem_filterMap]
  constructor
  · rintro ⟨step, member, isEvent⟩
    cases step with
    | report other =>
        cases isEvent
        exact member
    | follow oldName newName => cases isEvent
    | giveUp error => cases isEvent
  · intro member
    exact ⟨.report event, member, rfl⟩

def GoesOn (steps : List Step) : Prop :=
  ∀ error, Step.giveUp error ∉ steps

theorem goesOn_append (first second : List Step) :
    GoesOn (first ++ second) ↔ GoesOn first ∧ GoesOn second := by
  simp only [GoesOn, List.mem_append, not_or, forall_and]

theorem goesOn_cons_report (event : Event) (steps : List Step) :
    GoesOn (.report event :: steps) ↔ GoesOn steps := by
  simp [GoesOn]

theorem goesOn_cons_follow (oldName newName : String) (steps : List Step) :
    GoesOn (.follow oldName newName :: steps) ↔ GoesOn steps := by
  simp [GoesOn]

/-- A step that neither gives up nor reports a break. -/
def Step.IsQuiet : Step → Prop
  | .report event => event.isBreaking = false
  | .follow _ _ => True
  | .giveUp _ => False

def Quiet (steps : List Step) : Prop :=
  ∀ step ∈ steps, step.IsQuiet

@[simp]
theorem quiet_nil : Quiet [] :=
  fun _ member => absurd member List.not_mem_nil

@[simp]
theorem quiet_cons (step : Step) (steps : List Step) :
    Quiet (step :: steps) ↔ step.IsQuiet ∧ Quiet steps :=
  List.forall_mem_cons

@[simp]
theorem quiet_append (first second : List Step) :
    Quiet (first ++ second) ↔ Quiet first ∧ Quiet second :=
  List.forall_mem_append

@[simp]
theorem isQuiet_progress (location : Location) (reason : String) :
    (Step.report (.progress location reason)).IsQuiet :=
  rfl

@[simp]
theorem not_isQuiet_breaking (category : Category) (location : Location)
    (components : List String) (reason : String) :
    ¬(Step.report (.breaking category location components reason)).IsQuiet :=
  Bool.noConfusion

@[simp]
theorem isQuiet_dangerous (category : Category) (location : Location)
    (components : List String) (reason : String) :
    (Step.report (.dangerous category location components reason)).IsQuiet :=
  rfl

@[simp]
theorem isQuiet_follow (oldName newName : String) : (Step.follow oldName newName).IsQuiet :=
  trivial

@[simp]
theorem not_isQuiet_giveUp (error : UnresolvedInterface) : ¬(Step.giveUp error).IsQuiet :=
  id

theorem Quiet.mono {smaller larger : List Step} (quiet : Quiet larger) (subset : smaller ⊆ larger) :
    Quiet smaller :=
  fun step member => quiet step (subset member)

theorem quiet_map_iff {α : Type} (items : List α) (step : α → Step) :
    Quiet (items.map step) ↔ ∀ item ∈ items, (step item).IsQuiet :=
  List.forall_mem_map

theorem quiet_flatMap_iff {α : Type} (items : List α) (steps : α → List Step) :
    Quiet (items.flatMap steps) ↔ ∀ item ∈ items, Quiet (steps item) := by
  constructor
  · intro quiet item member step inSteps
    exact quiet step (List.mem_flatMap.mpr ⟨item, member, inSteps⟩)
  · intro quiet step member
    obtain ⟨item, inItems, inSteps⟩ := List.mem_flatMap.mp member
    exact quiet item inItems step inSteps

theorem quiet_flatMap_entries_iff {α : Type} (map : NameMap α) (steps : String × α → List Step) :
    Quiet (map.entries.flatMap steps) ↔
      ∀ name value, map.get? name = some value → Quiet (steps (name, value)) := by
  rw [quiet_flatMap_iff]
  simp only [Prod.forall, NameMap.mem_entries_iff]

theorem quiet_iff (steps : List Step) :
    Quiet steps ↔
      GoesOn steps ∧ ∀ event ∈ reported steps, event.isBreaking = false := by
  constructor
  · intro quiet
    refine ⟨fun error member => quiet _ member, fun event member => ?_⟩
    exact quiet _ ((mem_reported_iff event steps).mp member)
  · rintro ⟨goesOn, harmless⟩ step member
    cases step with
    | report event => exact harmless event ((mem_reported_iff event steps).mpr member)
    | follow oldName newName => trivial
    | giveUp error => exact goesOn error member

end Diff

end SchemaEvolution
