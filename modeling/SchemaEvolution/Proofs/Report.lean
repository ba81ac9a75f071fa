import Mathlib
import SchemaEvolution.Proofs.Diff.Reachable
import SchemaEvolution.Proofs.Diff.Reports
import SchemaEvolution.Report

/-!
What sinks get to know of a comparison, and how the counts of a result hang together. All sinks of a
chain are sent the same signals, the end among them only if the comparison came to its end. Each
level has categories of its own, so that the counts of the categories add up to those of the levels.
-/

namespace SchemaEvolution

def Signal.isBreaking : Signal → Bool
  | event found => found.isBreaking
  | finished => false

section Chains

variable {σ : Type} [SignalReceiver σ]

theorem CountedChain.receiveAll_eq (chain : CountedChain σ) (signals : List Signal) :
    chain.receiveAll signals =
      { breakingCount := chain.breakingCount + signals.countP Signal.isBreaking
        sinks := chain.sinks.map fun sink => SignalReceiver.receiveAll sink signals } := by
  unfold receiveAll
  induction signals generalizing chain with
  | nil => simp [SignalReceiver.receiveAll]
  | cons signal rest ih =>
      change SignalReceiver.receiveAll (chain.receive signal) rest = _
      rw [ih, List.countP_cons]
      congr 1
      · cases signal with
        | event event =>
            simp only [receive, Signal.isBreaking]
            rw [Nat.add_assoc, Nat.add_comm (rest.countP _)]
            rfl
        | finished => simp [receive, Signal.isBreaking]
      · exact List.map_map

theorem Diff.Trace.countP_signals (trace : Diff.Trace) :
    trace.signals.countP Signal.isBreaking = trace.events.countP Event.isBreaking := by
  have ofEnd : (if trace.failure?.isNone then [Signal.finished] else []).countP
      Signal.isBreaking = 0 := by
    split <;> rfl
  rw [Diff.Trace.signals, List.countP_append, ofEnd, List.countP_map, Nat.add_zero]
  rfl

theorem Diff.report_of_finished {options : Diff.Options} {old new : Document}
    (finished : (diff options old new).failure? = none) (sinks : List σ) :
    Diff.report options old new sinks =
      (.ok ((diff options old new).events.countP Event.isBreaking),
        sinks.map fun sink => SignalReceiver.receiveAll sink
          ((diff options old new).events.map Signal.event ++ [.finished])) := by
  unfold Diff.report
  simp only [finished, CountedChain.receiveAll_eq, CountedChain.start, Diff.Trace.countP_signals,
    Nat.zero_add]
  simp only [Diff.Trace.signals, finished, Option.isNone_none, if_true]

theorem Diff.report_of_failed {options : Diff.Options} {old new : Document}
    {error : Diff.UnresolvedInterface}
    (failed : (diff options old new).failure? = some error) (sinks : List σ) :
    Diff.report options old new sinks =
      (.error error, sinks.map fun sink => SignalReceiver.receiveAll sink
        ((diff options old new).events.map Signal.event)) := by
  unfold Diff.report
  simp only [failed, CountedChain.receiveAll_eq, CountedChain.start]
  simp [Diff.Trace.signals, failed]

theorem Diff.report_fst (options : Diff.Options) (old new : Document) (sinks : List σ) :
    (Diff.report options old new sinks).1 = (diff options old new).breakingCount := by
  unfold Diff.Trace.breakingCount
  cases ended : (diff options old new).failure? with
  | none => rw [Diff.report_of_finished ended]
  | some error => rw [Diff.report_of_failed ended]

end Chains

theorem TypeRef.stricter_or_invalid_of_layerMismatch (old new : TypeRef) (category : Category)
    (mismatched : old.layerMismatch new = some category) :
    category = .stricter ∨ category = .invalid := by
  fun_induction layerMismatch old new with
  | case1 old new ih => exact ih mismatched
  | case2 old new _ ih => exact ih mismatched
  | case3 =>
      cases mismatched
      exact Or.inl rfl
  | case4 old new ih => exact ih mismatched
  | case5 => cases mismatched
  | case6 =>
      cases mismatched
      exact Or.inr rfl

theorem TypeRef.stricter_or_invalid_of_mismatch {old new : TypeRef} {category : Category}
    (mismatched : old.mismatch new = some category) :
    category = .stricter ∨ category = .invalid := by
  unfold mismatch at mismatched
  split at mismatched
  · exact stricter_or_invalid_of_layerMismatch old new category mismatched
  · cases mismatched
    exact Or.inr rfl

/-- The event has a category that its level allows. -/
structure Event.FitsLevel (event : Event) : Prop where
  progress : event.isProgress = true → event.category? = none ∧ event.finding.components = []
  breaking : event.isBreaking = true → event.category? = some .missing ∨
    event.category? = some .stricter ∨ event.category? = some .invalid
  dangerous : event.isDangerous = true →
    event.category? = some .addition ∨ event.category? = some .different

theorem Event.fitsLevel_progress (location : Location) (reason : String) :
    (Event.progress location reason).FitsLevel :=
  ⟨fun _ => ⟨rfl, rfl⟩, Bool.noConfusion, Bool.noConfusion⟩

theorem Event.fitsLevel_breaking {category : Category}
    (allowed : category = .missing ∨ category = .stricter ∨ category = .invalid)
    (location : Location) (components : List String) (reason : String) :
    (Event.breaking category location components reason).FitsLevel :=
  ⟨Bool.noConfusion, fun _ => by simpa [category?, breaking, Finding.category?] using allowed,
    Bool.noConfusion⟩

theorem Event.fitsLevel_dangerous {category : Category}
    (allowed : category = .addition ∨ category = .different)
    (location : Location) (components : List String) (reason : String) :
    (Event.dangerous category location components reason).FitsLevel :=
  ⟨Bool.noConfusion, Bool.noConfusion,
    fun _ => by simpa [category?, dangerous, Finding.category?] using allowed⟩

namespace Diff

section Levels

variable {options : Options} {oldDocument newDocument : Document} {event : Event}

theorem DirectiveReport.fitsLevel {location : Location} {old new : List Directive}
    (report : DirectiveReport location old new event) : event.FitsLevel := by
  cases report with
  | lost | fewerArguments | argumentLost => exact Event.fitsLevel_breaking (Or.inl rfl) _ _ _
  | argumentReformed => exact Event.fitsLevel_breaking (Or.inr (Or.inr rfl)) _ _ _

theorem InputReport.fitsLevel {location : Location} {old new : InputValue}
    (report : InputReport options location old new event) : event.FitsLevel := by
  cases report with
  | retyped mismatched =>
      exact Event.fitsLevel_breaking
        (Or.inr (TypeRef.stricter_or_invalid_of_mismatch mismatched)) _ _ _
  | defaultReformed => exact Event.fitsLevel_breaking (Or.inr (Or.inr rfl)) _ _ _
  | defaultChanged => exact Event.fitsLevel_dangerous (Or.inr rfl) _ _ _
  | directive _ report => exact report.fitsLevel

theorem FieldReport.fitsLevel {owner : Owner} {old new : Field}
    (report : FieldReport options owner old new event) : event.FitsLevel := by
  cases report with
  | retyped mismatched =>
      exact Event.fitsLevel_breaking
        (Or.inr (TypeRef.stricter_or_invalid_of_mismatch mismatched)) _ _ _
  | fewerArguments | argumentLost => exact Event.fitsLevel_breaking (Or.inl rfl) _ _ _
  | argument => exact Event.fitsLevel_progress _ _
  | argumentKept _ _ report => exact report.fitsLevel
  | argumentDemanded => exact Event.fitsLevel_breaking (Or.inr (Or.inl rfl)) _ _ _
  | directive _ report => exact report.fitsLevel

theorem FieldsReport.fitsLevel {owner : Owner} {old new : List Field}
    (report : FieldsReport options owner old new event) : event.FitsLevel := by
  cases report with
  | field => exact Event.fitsLevel_progress _ _
  | lost => exact Event.fitsLevel_breaking (Or.inl rfl) _ _ _
  | kept _ _ report => exact report.fitsLevel

theorem InterfaceReport.fitsLevel {old new : InterfaceType}
    (report : InterfaceReport options old new event) : event.FitsLevel := by
  cases report with
  | fields report => exact report.fitsLevel
  | directive _ report => exact report.fitsLevel

theorem DefinitionReport.fitsLevel {name : String} {old new : TypeDefinition}
    (report : DefinitionReport options oldDocument newDocument name old new event) :
    event.FitsLevel := by
  cases report with
  | rekinded => exact Event.fitsLevel_breaking (Or.inr (Or.inr rfl)) _ _ _
  | fields report => exact report.fitsLevel
  | interface report | implemented _ _ _ _ report => exact report.fitsLevel
  | interfaceLost | memberLost | valueLost | inputFieldLost =>
      exact Event.fitsLevel_breaking (Or.inl rfl) _ _ _
  | memberAdded | valueAdded => exact Event.fitsLevel_dangerous (Or.inl rfl) _ _ _
  | inputFieldKept _ _ report => exact report.fitsLevel
  | inputFieldDemanded => exact Event.fitsLevel_breaking (Or.inr (Or.inl rfl)) _ _ _
  | valueKept _ _ _ report | directive _ _ report => exact report.fitsLevel

theorem fitsLevel_of_mem_diff_events
    (member : event ∈ (diff options oldDocument newDocument).events) : event.FitsLevel := by
  rcases report_of_mem_diff_events member with ⟨_, _⟩ | ⟨pair, _, report⟩
  · exact Event.fitsLevel_breaking (Or.inl rfl) _ _ _
  · cases report with
    | undefined | examined => exact Event.fitsLevel_progress _ _
    | lost => exact Event.fitsLevel_breaking (Or.inl rfl) _ _ _
    | definition _ _ _ report => exact report.fitsLevel

end Levels

end Diff

theorem Category.id_injective : Function.Injective Category.id := by
  intro left right same
  have found := congrArg Category.ofId? same
  rw [Category.ofId?_id, Category.ofId?_id] at found
  exact Option.some.inj found

namespace Diff

/-- How often a category occurs according to a summary; one that is not listed does not occur. -/
def Result.countOf (result : Result) (category : Category) : Nat :=
  (result.summary.get? category.id).getD 0

private theorem lookup_counts (count : Category → Nat) (category : Category)
    (categories : List Category) :
    ((categories.filterMap fun other =>
        match count other with
        | 0 => none
        | occurrences + 1 => some (other.id, occurrences + 1)).lookup category.id).getD 0 =
      if category ∈ categories then count category else 0 := by
  induction categories with
  | nil => rfl
  | cons first rest ih =>
      rw [List.filterMap_cons]
      by_cases own : first = category
      · subst own
        cases none_or_more : count first with
        | zero => simpa [none_or_more] using ih
        | succ occurrences => simp
      · have otherId : category.id ≠ first.id := fun same => own (Category.id_injective same).symm
        have present : category ∈ first :: rest ↔ category ∈ rest := by simp [Ne.symm own]
        simp only [present, ← ih]
        cases count first with
        | zero => rfl
        | succ occurrences => simp [List.lookup_cons, beq_eq_decide, otherId]

theorem countOf_ofEvents (events : List Event) (category : Category) :
    (Result.ofEvents events).countOf category =
      events.countP fun event => event.category? = some category := by
  have listed : category ∈ Category.all.reverse := by cases category <;> decide
  have counted := lookup_counts
    (fun other => events.countP fun event => event.category? = some other) category
    Category.all.reverse
  rw [if_pos listed] at counted
  rw [← counted, Result.countOf]
  change ((sortEntries _).lookup _).getD 0 = _
  rw [lookup_sortEntries]
  exact congrArg (fun entries => (List.lookup category.id entries).getD 0)
    List.filterMap_reverse.symm

/-- The levels split events by their categories: the first three are those of breaking events, the
last two those of dangerous ones. -/
theorem Result.levels_eq_sums {events : List Event} (fit : ∀ event ∈ events, event.FitsLevel) :
    (ofEvents events).breakingCount =
        (ofEvents events).countOf .missing + (ofEvents events).countOf .stricter +
          (ofEvents events).countOf .invalid ∧
      (ofEvents events).dangerousCount =
        (ofEvents events).countOf .addition + (ofEvents events).countOf .different := by
  simp only [countOf_ofEvents]
  change events.countP Event.isBreaking = _ ∧ events.countP Event.isDangerous = _
  induction events with
  | nil => exact ⟨rfl, rfl⟩
  | cons event rest ih =>
      have later := ih fun event member => fit event (List.mem_cons_of_mem _ member)
      obtain ⟨ofBreaking, ofDangerous⟩ := later
      obtain ⟨_, breaking, dangerous⟩ := fit event List.mem_cons_self
      simp only [List.countP_cons, ofBreaking, ofDangerous]
      obtain ⟨location, finding, reason⟩ := event
      cases finding with
      | progress => exact ⟨rfl, rfl⟩
      | breaking category components =>
          rcases breaking rfl with own | own | own <;> cases own <;>
            simp [Event.isBreaking, Event.isDangerous, Event.category?, Finding.category?] <;> omega
      | dangerous category components =>
          rcases dangerous rfl with own | own <;> cases own <;>
            simp [Event.isBreaking, Event.isDangerous, Event.category?, Finding.category?] <;> omega

/-- All sinks of a report are sent the events of the comparison in its order, and the end behind
them only if there is one. The count, the levels and the categories then agree with each other. -/
theorem report_consistent {σ : Type} [SignalReceiver σ] (options : Options) (old new : Document)
    (sinks : List σ) :
    (∀ count, (report options old new sinks).1 = .ok count →
      (report options old new sinks).2 = sinks.map (fun sink => SignalReceiver.receiveAll sink
        ((diff options old new).events.map Signal.event ++ [.finished])) ∧
      count = (diff options old new).events.countP Event.isBreaking ∧
      ∃ outcome, result options old new = .ok outcome ∧
        outcome.events = (diff options old new).events ∧
        outcome.breakingCount = count ∧
        (outcome.isBreaking = true ↔ 0 < outcome.breakingCount) ∧
        outcome.breakingCount =
          outcome.countOf .missing + outcome.countOf .stricter + outcome.countOf .invalid ∧
        outcome.dangerousCount = outcome.countOf .addition + outcome.countOf .different) ∧
    (∀ error, (report options old new sinks).1 = .error error →
      (report options old new sinks).2 = sinks.map (fun sink => SignalReceiver.receiveAll sink
        ((diff options old new).events.map Signal.event))) ∧
    ∀ event ∈ (diff options old new).events, event.FitsLevel := by
  have fit : ∀ event ∈ (diff options old new).events, event.FitsLevel :=
    fun _ member => fitsLevel_of_mem_diff_events member
  refine ⟨fun count succeeded => ?_, fun error failed => ?_, fit⟩
  · cases ended : (diff options old new).failure? with
    | some error =>
        rw [report_of_failed ended] at succeeded
        cases succeeded
    | none =>
        rw [report_of_finished ended] at succeeded ⊢
        cases succeeded
        obtain ⟨ofBreaking, ofDangerous⟩ := Result.levels_eq_sums fit
        refine ⟨rfl, rfl, .ofEvents (diff options old new).events, ?_, rfl, rfl, ?_, ofBreaking,
          ofDangerous⟩
        · simp only [result, ended]
        · exact decide_eq_true_iff
  · cases ended : (diff options old new).failure? with
    | some other => rw [report_of_failed ended]
    | none =>
        rw [report_of_finished ended] at failed
        cases failed

def memberSchema : Document :=
  .rooted [.object ⟨"Root", [⟨"user", .named "User", [], []⟩], [], []⟩,
    .object ⟨"User", [⟨"name", .named "String", [], []⟩, ⟨"role", .named "Role", [], []⟩], [], []⟩,
    .enum ⟨"Role", [⟨"SELF", []⟩], []⟩]

def namelessMemberSchema : Document :=
  .rooted [.object ⟨"Root", [⟨"user", .named "User", [], []⟩], [], []⟩,
    .object ⟨"User", [⟨"role", .named "Role", [], []⟩], [], []⟩,
    .enum ⟨"Role", [⟨"SELF", []⟩, ⟨"TEAM", []⟩], []⟩]

def danglingSchema : Document :=
  .rooted [.object ⟨"Root", [⟨"id", .named "ID", [], []⟩], ["Node"], []⟩]

def captureAndPrinter : List Sink :=
  [.capture .start, .printer .start]

theorem lostName_counted :
    (report default memberSchema namelessMemberSchema captureAndPrinter).1 = .ok 1 ∧
      (∃ outcome, result default memberSchema namelessMemberSchema = .ok outcome ∧
        outcome.breakingCount = 1 ∧ outcome.countOf .missing + outcome.countOf .stricter +
          outcome.countOf .invalid = 1) ∧
      (report default danglingSchema danglingSchema captureAndPrinter).1 =
        .error ⟨"Root", "Node"⟩ ∧
      (report default danglingSchema danglingSchema captureAndPrinter).2 =
        captureAndPrinter.map fun sink => SignalReceiver.receiveAll sink
          ((diff default danglingSchema danglingSchema).events.map Signal.event) := by
  have counted :
      (report default memberSchema namelessMemberSchema captureAndPrinter).1 = .ok 1 := by
    rw [report_fst]
    cbv
  have gaveUp : (report default danglingSchema danglingSchema captureAndPrinter).1 =
      .error ⟨"Root", "Node"⟩ := by
    rw [report_fst]
    cbv
  obtain ⟨_, _, outcome, succeeded, _, breaking, _, ofBreaking, _⟩ :=
    (report_consistent default memberSchema namelessMemberSchema captureAndPrinter).1 1 counted
  have sent := (report_consistent default danglingSchema danglingSchema captureAndPrinter).2.1
    _ gaveUp
  exact ⟨counted, ⟨outcome, succeeded, breaking, ofBreaking ▸ breaking⟩, gaveUp, sent⟩

end Diff

end SchemaEvolution
