import Mathlib
import SchemaEvolution.Proofs.Diff.Reachable
import SchemaEvolution.Proofs.Diff.Reports

/-!
The comparison as a recursion: a step that follows two names calls the comparison of their types
unless the old name is marked, and marks it. Nothing here bounds the marks or the depth of the
calls. All calls are on names that the old schema mentions, so each one that is not cut off leaves
fewer of these unmarked; therefore the recursion ends, and with what the walk computes.
-/

namespace SchemaEvolution

def Document.unmarked (document : Document) (marked : List String) : List String :=
  document.mentions.filter fun name => name ∉ marked

namespace Document

variable {document : Document} {marked : List String} {name : String}

theorem mem_unmarked_iff :
    name ∈ document.unmarked marked ↔ name ∈ document.mentions ∧ name ∉ marked := by
  simp [unmarked]

theorem unmarked_cons :
    document.unmarked (name :: marked) = Diff.withoutName name (document.unmarked marked) := by
  unfold unmarked Diff.withoutName
  rw [List.filter_filter]
  refine List.filter_congr fun other _ => ?_
  simp [not_or]

theorem length_unmarked_cons_lt (mentioned : name ∈ document.mentions) (fresh : name ∉ marked) :
    (document.unmarked (name :: marked)).length < (document.unmarked marked).length := by
  rw [unmarked_cons]
  exact Diff.length_withoutName_lt (mem_unmarked_iff.mpr ⟨mentioned, fresh⟩)

theorem length_unmarked_le {more : List String} (subset : marked ⊆ more) :
    (document.unmarked more).length ≤ (document.unmarked marked).length := by
  refine (List.monotone_filter_right _ fun other unmarked => ?_).length_le
  simp only [decide_eq_true_eq] at unmarked ⊢
  exact fun isMarked => unmarked (subset isMarked)

end Document

namespace Diff

section Recursion

variable (options : Options) (oldDocument newDocument : Document)

/-- Carrying out steps under marks: what is reported, which names are marked behind it, and the
error if a step gave up. A step that follows a marked name is cut off; any other one marks the name
and has the script of the two types carried out before the steps behind it. -/
inductive CarriesOut :
    List String → List Step → List Event → List String → Option UnresolvedInterface → Prop
  | done {marked : List String} : CarriesOut marked [] [] marked none
  | report {marked later : List String} {event : Event} {rest : List Step} {events : List Event}
      {failure? : Option UnresolvedInterface} :
      CarriesOut marked rest events later failure? →
      CarriesOut marked (.report event :: rest) (event :: events) later failure?
  | giveUp {marked : List String} {error : UnresolvedInterface} {rest : List Step} :
      CarriesOut marked (.giveUp error :: rest) [] marked (some error)
  | cutOff {marked later : List String} {oldName newName : String} {rest : List Step}
      {events : List Event} {failure? : Option UnresolvedInterface} :
      oldName ∈ marked → CarriesOut marked rest events later failure? →
      CarriesOut marked (.follow oldName newName :: rest) events later failure?
  | enter {marked between later : List String} {oldName newName : String} {rest : List Step}
      {inner events : List Event} {failure? : Option UnresolvedInterface} :
      oldName ∉ marked →
      CarriesOut (oldName :: marked) (script options oldDocument newDocument oldName newName)
        inner between none →
      CarriesOut between rest events later failure? →
      CarriesOut marked (.follow oldName newName :: rest) (inner ++ events) later failure?
  | enterFails {marked later : List String} {oldName newName : String} {rest : List Step}
      {inner : List Event} {error : UnresolvedInterface} :
      oldName ∉ marked →
      CarriesOut (oldName :: marked) (script options oldDocument newDocument oldName newName)
        inner later (some error) →
      CarriesOut marked (.follow oldName newName :: rest) inner later (some error)

/-- A call of the comparison of two types, with the names that are marked when it is made. -/
structure Call where
  marked : List String
  oldName : String
  newName : String

def Call.marking (call : Call) : List String :=
  call.oldName :: call.marked

/-- The call is let through, and makes the other one itself. -/
def Call.Makes (outer inner : Call) : Prop :=
  outer.oldName ∉ outer.marked ∧ ∃ before behind events,
    script options oldDocument newDocument outer.oldName outer.newName =
      before ++ .follow inner.oldName inner.newName :: behind ∧
    CarriesOut options oldDocument newDocument outer.marking before events inner.marked none

inductive Made : Call → Prop
  | start {call : Call} {before behind : List Step} {events : List Event} :
      operationsScript oldDocument newDocument =
        before ++ .follow call.oldName call.newName :: behind →
      CarriesOut options oldDocument newDocument [] before events call.marked none → Made call
  | nested {outer inner : Call} :
      Made outer → outer.Makes options oldDocument newDocument inner → Made inner

variable {options oldDocument newDocument}
variable {marked later : List String} {steps : List Step} {events : List Event}
variable {failure? : Option UnresolvedInterface}

theorem CarriesOut.marked_subset
    (run : CarriesOut options oldDocument newDocument marked steps events later failure?) :
    marked ⊆ later := by
  induction run with
  | done | giveUp => exact List.Subset.refl _
  | report _ ih | cutOff _ _ ih => exact ih
  | enter _ _ _ ihInner ihRest =>
      exact fun name member => ihRest (ihInner (List.mem_cons_of_mem _ member))
  | enterFails _ _ ih => exact fun name member => ih (List.mem_cons_of_mem _ member)

def FollowsMentioned (document : Document) (steps : List Step) : Prop :=
  ∀ oldName newName, .follow oldName newName ∈ steps → oldName ∈ document.mentions

theorem followsMentioned_script (oldName newName : String) :
    FollowsMentioned oldDocument
      (script options oldDocument newDocument oldName newName) :=
  fun _ _ follows => (follow_mem_script_iff.mp follows).mem_mentions

theorem followsMentioned_operationsScript :
    FollowsMentioned oldDocument (operationsScript oldDocument newDocument) := by
  intro oldName newName follows
  obtain ⟨_, isRoot, _⟩ := (follow_mem_operationsScript_iff _ _ _ _).mp follows
  exact mem_mentions_of_root? isRoot

theorem FollowsMentioned.tail {document : Document} {step : Step}
    (mentioned : FollowsMentioned document (step :: steps)) : FollowsMentioned document steps :=
  fun _ _ follows => mentioned _ _ (List.mem_cons_of_mem _ follows)

theorem Made.mem_mentions {call : Call} (made : Made options oldDocument newDocument call) :
    call.oldName ∈ oldDocument.mentions := by
  cases made with
  | start split _ =>
      have mentioned : FollowsMentioned oldDocument (operationsScript oldDocument newDocument) :=
        followsMentioned_operationsScript
      apply mentioned _ call.newName
      rw [split]
      exact List.mem_append_right _ List.mem_cons_self
  | nested _ makes =>
      obtain ⟨_, before, behind, events, split, _⟩ := makes
      apply followsMentioned_script _ _ _ call.newName
      rw [split]
      exact List.mem_append_right _ List.mem_cons_self

theorem Call.Makes.length_unmarked_lt {outer inner : Call}
    (mentioned : outer.oldName ∈ oldDocument.mentions)
    (makes : outer.Makes options oldDocument newDocument inner) :
    (oldDocument.unmarked inner.marked).length < (oldDocument.unmarked outer.marked).length := by
  obtain ⟨fresh, before, behind, events, _, run⟩ := makes
  calc (oldDocument.unmarked inner.marked).length
      ≤ (oldDocument.unmarked outer.marking).length :=
        Document.length_unmarked_le run.marked_subset
    _ < (oldDocument.unmarked outer.marked).length :=
        Document.length_unmarked_cons_lt mentioned fresh

/-! ### The recursion ends -/

theorem exists_carriesOut (bound : Nat) :
    ∀ marked steps, (oldDocument.unmarked marked).length ≤ bound →
      FollowsMentioned oldDocument steps →
      ∃ events later failure?,
        CarriesOut options oldDocument newDocument marked steps events later failure? := by
  -- A call is carried out because fewer names are unmarked in it, and the steps behind it because
  -- they are fewer.
  induction bound using Nat.strong_induction_on with
  | h bound deeper =>
      intro marked steps
      induction steps generalizing marked with
      | nil => exact fun _ _ => ⟨[], marked, none, .done⟩
      | cons step rest ih =>
          intro bounded mentioned
          cases step with
          | report event =>
              obtain ⟨events, later, failure?, run⟩ := ih marked bounded mentioned.tail
              exact ⟨event :: events, later, failure?, .report run⟩
          | giveUp error => exact ⟨[], marked, some error, .giveUp⟩
          | follow oldName newName =>
              by_cases isMarked : oldName ∈ marked
              · obtain ⟨events, later, failure?, run⟩ := ih marked bounded mentioned.tail
                exact ⟨events, later, failure?, .cutOff isMarked run⟩
              · have fewer := Document.length_unmarked_cons_lt
                  (mentioned oldName newName List.mem_cons_self) isMarked
                obtain ⟨inner, between, innerFailure?, innerRun⟩ := deeper _
                  (Nat.lt_of_lt_of_le fewer bounded) (oldName :: marked)
                  (script options oldDocument newDocument oldName newName) (Nat.le_refl _)
                  (followsMentioned_script oldName newName)
                cases innerFailure? with
                | some error => exact ⟨inner, between, some error, .enterFails isMarked innerRun⟩
                | none =>
                    have stillBounded : (oldDocument.unmarked between).length ≤ bound := by
                      have fewerBetween : (oldDocument.unmarked between).length ≤
                          (oldDocument.unmarked (oldName :: marked)).length :=
                        Document.length_unmarked_le innerRun.marked_subset
                      omega
                    obtain ⟨events, later, failure?, run⟩ :=
                      ih between stillBounded mentioned.tail
                    exact ⟨inner ++ events, later, failure?, .enter isMarked innerRun run⟩

/-- One trace, and if it did not give up, another one behind it. -/
def Trace.andThen (first second : Trace) : Trace :=
  match first.failure? with
  | some _ => first
  | none => ⟨first.events ++ second.events, second.failure?⟩

/-- The walk with the unmarked names does what carrying out the steps does, and then goes on with
the rest of its agenda. -/
theorem CarriesOut.walk_eq
    (run : CarriesOut options oldDocument newDocument marked steps events later failure?)
    (mentioned : FollowsMentioned oldDocument steps) (rest : List Step) :
    walk options oldDocument newDocument (oldDocument.unmarked marked) (steps ++ rest) =
      Trace.andThen ⟨events, failure?⟩
        (walk options oldDocument newDocument (oldDocument.unmarked later) rest) := by
  induction run generalizing rest with
  | done => rfl
  | @report marked later event steps events failure? _ ih =>
      rw [List.cons_append, walk, ih mentioned.tail]
      cases failure? with
      | none => rfl
      | some error => rfl
  | giveUp =>
      rw [List.cons_append, walk]
      rfl
  | cutOff isMarked _ ih =>
      rw [List.cons_append, walk, dif_neg (fun unseen =>
        (Document.mem_unmarked_iff.mp unseen).2 isMarked)]
      exact ih mentioned.tail rest
  | @enter marked between later oldName newName steps inner events failure? fresh _ _ ihInner ihRest =>
      have unseen := Document.mem_unmarked_iff.mpr
        ⟨mentioned oldName newName List.mem_cons_self, fresh⟩
      rw [List.cons_append, walk, dif_pos unseen, ← Document.unmarked_cons,
        ihInner (followsMentioned_script oldName newName), ihRest mentioned.tail]
      cases failure? with
      | none => simp [Trace.andThen]
      | some error => rfl
  | @enterFails marked later oldName newName steps inner error fresh _ ih =>
      have unseen := Document.mem_unmarked_iff.mpr
        ⟨mentioned oldName newName List.mem_cons_self, fresh⟩
      rw [List.cons_append, walk, dif_pos unseen, ← Document.unmarked_cons,
        ih (followsMentioned_script oldName newName)]
      rfl

theorem CarriesOut.eq_diff
    (run : CarriesOut options oldDocument newDocument [] (operationsScript oldDocument newDocument)
      events later failure?) :
    diff options oldDocument newDocument = ⟨events, failure?⟩ := by
  have walked := run.walk_eq followsMentioned_operationsScript []
  have unmarkedNil : oldDocument.unmarked [] = oldDocument.mentions := by simp [Document.unmarked]
  rw [List.append_nil, unmarkedNil] at walked
  change walk options oldDocument newDocument _ (operationsScript oldDocument newDocument) = _
  rw [walked, walk]
  cases failure? with
  | none => simp [Trace.andThen, Trace.finished]
  | some error => rfl

end Recursion

end Diff

/-! ### Types are examined once -/

namespace Event

def examines (name : String) (event : Event) : Bool :=
  event.isProgress && event.reason == s!"Examining type '{name}' ..."

def misses (name : String) (event : Event) : Bool :=
  event.isProgress && event.reason == s!"Type '{name}' is missing"

def opens (name : String) (event : Event) : Bool :=
  event.examines name || event.misses name

variable {name : String}

theorem examines_examined (location : Location) (other : String) :
    (progress location s!"Examining type '{other}' ...").examines name = decide (other = name) := by
  simp [examines, progress, isProgress, toString, beq_eq_decide]

theorem misses_examined (location : Location) (other : String) :
    (progress location s!"Examining type '{other}' ...").misses name = false := by
  simp [misses, progress, isProgress, toString, ← String.toList_inj]

theorem examines_missing (location : Location) (other : String) :
    (progress location s!"Type '{other}' is missing").examines name = false := by
  simp [examines, progress, isProgress, toString, ← String.toList_inj]

theorem misses_missing (location : Location) (other : String) :
    (progress location s!"Type '{other}' is missing").misses name = decide (other = name) := by
  simp [misses, progress, isProgress, toString, beq_eq_decide]

theorem opens_field (location : Location) (text : String) :
    (progress location ("field" ++ text)).opens name = false := by
  simp [opens, examines, misses, progress, isProgress, toString, ← String.toList_inj]

theorem opens_of_not_progress {event : Event} (isFinding : event.isProgress = false) :
    event.opens name = false := by
  simp [opens, examines, misses, isFinding]

end Event

namespace Diff

section Once

variable {options : Options} {oldDocument newDocument : Document} {name : String} {event : Event}

theorem DirectiveReport.isProgress_eq_false {location : Location} {old new : List Directive}
    (report : DirectiveReport location old new event) : event.isProgress = false := by
  cases report <;> rfl

theorem InputReport.isProgress_eq_false {location : Location} {old new : InputValue}
    (report : InputReport options location old new event) : event.isProgress = false := by
  cases report with
  | retyped | defaultReformed | defaultChanged => rfl
  | directive _ report => exact report.isProgress_eq_false

theorem FieldReport.opens_eq_false {owner : Owner} {old new : Field}
    (report : FieldReport options owner old new event) : event.opens name = false := by
  cases report with
  | retyped | fewerArguments | argumentLost | argumentDemanded => rfl
  | @argument key argument _ => exact Event.opens_field _ (" argument '" ++ key ++ "' ...")
  | argumentKept _ _ report => exact Event.opens_of_not_progress report.isProgress_eq_false
  | directive _ report => exact Event.opens_of_not_progress report.isProgress_eq_false

theorem FieldsReport.opens_eq_false {owner : Owner} {old new : List Field}
    (report : FieldsReport options owner old new event) : event.opens name = false := by
  cases report with
  | @field key field _ => exact Event.opens_field _ (" '" ++ key ++ "' ...")
  | lost => rfl
  | kept _ _ report => exact report.opens_eq_false

theorem InterfaceReport.opens_eq_false {old new : InterfaceType}
    (report : InterfaceReport options old new event) : event.opens name = false := by
  cases report with
  | fields report => exact report.opens_eq_false
  | directive _ report => exact Event.opens_of_not_progress report.isProgress_eq_false

theorem DefinitionReport.opens_eq_false {oldName : String} {old new : TypeDefinition}
    (report : DefinitionReport options oldDocument newDocument oldName old new event) :
    event.opens name = false := by
  cases report with
  | rekinded | interfaceLost | memberLost | memberAdded | valueLost | valueAdded | inputFieldLost
  | inputFieldDemanded => rfl
  | fields report => exact report.opens_eq_false
  | interface report | implemented _ _ _ _ report => exact report.opens_eq_false
  | inputFieldKept _ _ report => exact Event.opens_of_not_progress report.isProgress_eq_false
  | valueKept _ _ _ report | directive _ _ report =>
      exact Event.opens_of_not_progress report.isProgress_eq_false

variable (options oldDocument newDocument name)

theorem countP_opens_script_le (oldName newName : String) :
    (reported (script options oldDocument newDocument oldName newName)).countP (Event.opens name) ≤
      if oldName = name then 1 else 0 := by
  unfold script
  split
  · exact Nat.zero_le _
  · split
    · simp [reported, Step.event?, Event.opens, Event.examines_missing, Event.misses_missing,
        List.countP_cons]
    · rename_i old oldFound
      dsimp only
      rw [reported_cons_report, List.countP_cons, List.countP_eq_zero.mpr]
      · simp [Event.opens, Event.examines_examined, Event.misses_examined]
      · intro event member
        have inScript := (mem_reported_iff event _).mp member
        rw [Bool.not_eq_true]
        split at inScript
        · cases List.mem_singleton.mp inScript
          rfl
        · exact (definitionReport_of_mem inScript).opens_eq_false

/-- A walk has as many such events as its agenda, and one more at most, if it has not yet examined
the name. -/
theorem countP_opens_walk_le (unexamined : List String) (agenda : List Step) :
    (walk options oldDocument newDocument unexamined agenda).events.countP (Event.opens name) ≤
      (reported agenda).countP (Event.opens name) + if name ∈ unexamined then 1 else 0 := by
  fun_induction walk options oldDocument newDocument unexamined agenda with
  | case1 | case2 => exact Nat.zero_le _
  | case3 unexamined event rest ih =>
      rw [reported_cons_report, Trace.after, List.countP_cons, List.countP_cons]
      omega
  | case4 unexamined oldName newName rest fresh ih =>
      have inScript := countP_opens_script_le options oldDocument newDocument name oldName newName
      rw [reported_append, List.countP_append] at ih
      change _ ≤ (reported rest).countP _ + _
      by_cases own : oldName = name
      · subst own
        simp only [mem_withoutName_iff, ne_eq, not_true_eq_false, and_false, if_false] at ih
        simp only [fresh, if_true] at inScript ⊢
        omega
      · have different : name ≠ oldName := fun same => own same.symm
        simp only [mem_withoutName_iff, different, ne_eq, not_false_eq_true, and_true] at ih
        simp only [own, if_false] at inScript
        omega
  | case5 unexamined oldName newName rest seen ih => exact ih

/-- No type is examined twice, and none is examined that is told to be missing. -/
theorem countP_opens_diff_le :
    (diff options oldDocument newDocument).events.countP (Event.opens name) ≤ 1 := by
  have atStart : (reported (operationsScript oldDocument newDocument)).countP
      (Event.opens name) = 0 := by
    rw [List.countP_eq_zero]
    intro event member
    cases operationReport_of_mem ((mem_reported_iff event _).mp member)
    exact Bool.false_ne_true
  have bounded := countP_opens_walk_le options oldDocument newDocument name oldDocument.mentions
    (operationsScript oldDocument newDocument)
  rw [atStart, Nat.zero_add] at bounded
  refine bounded.trans ?_
  split
  · exact Nat.le_refl _
  · exact Nat.zero_le _

end Once

/-! ### How a comparison runs -/

theorem Made.of_transGen {options : Options} {oldDocument newDocument : Document}
    {outer inner : Call} (made : Made options oldDocument newDocument outer)
    (chain : Relation.TransGen (Call.Makes options oldDocument newDocument) outer inner) :
    Made options oldDocument newDocument inner := by
  induction chain with
  | single makes => exact made.nested makes
  | tail _ makes ih => exact ih.nested makes

/-- A comparison ends: it carries out a finite recursion, each call of which marks a name that the
old schema mentions or is cut off, so that the unmarked ones get fewer along every chain of calls.
No type is told of twice, be it that it is examined or that it is missing. -/
theorem diff_ends_opening_once (options : Options) (oldDocument newDocument : Document) :
    (∃ marked, CarriesOut options oldDocument newDocument []
      (operationsScript oldDocument newDocument) (diff options oldDocument newDocument).events
      marked (diff options oldDocument newDocument).failure?) ∧
    (∀ call, Made options oldDocument newDocument call → call.oldName ∉ call.marked →
      call.oldName ∈ oldDocument.unmarked call.marked ∧
      (oldDocument.unmarked call.marking).length < (oldDocument.unmarked call.marked).length) ∧
    (∀ outer inner, Made options oldDocument newDocument outer →
      Relation.TransGen (Call.Makes options oldDocument newDocument) outer inner →
      (oldDocument.unmarked inner.marked).length < (oldDocument.unmarked outer.marked).length) ∧
    ∀ name, (diff options oldDocument newDocument).events.countP (Event.opens name) ≤ 1 := by
  refine ⟨?_, fun call made fresh => ?_, fun outer inner made chain => ?_,
    countP_opens_diff_le options oldDocument newDocument⟩
  · obtain ⟨events, marked, failure?, run⟩ := exists_carriesOut _ []
      (operationsScript oldDocument newDocument) (Nat.le_refl _)
      followsMentioned_operationsScript
    refine ⟨marked, ?_⟩
    rw [run.eq_diff]
    exact run
  · exact ⟨Document.mem_unmarked_iff.mpr ⟨made.mem_mentions, fresh⟩,
      Document.length_unmarked_cons_lt made.mem_mentions fresh⟩
  · induction chain with
    | single makes => exact makes.length_unmarked_lt made.mem_mentions
    | tail chain makes ih =>
        exact (makes.length_unmarked_lt (made.of_transGen chain).mem_mentions).trans ih

def nodeSchema : Document :=
  .rooted [.object ⟨"Root", [⟨"user", .named "User", [], []⟩], [], []⟩,
    .object ⟨"User", [], ["Node"], []⟩,
    .interface ⟨"Node", [⟨"friend", .named "User", [], []⟩], []⟩]

theorem nodeFriend_cutOff :
    ∃ user friend : Call, Made default nodeSchema nodeSchema user ∧
      user.Makes default nodeSchema nodeSchema friend ∧
      user.oldName = "User" ∧ user.oldName ∉ user.marked ∧
      friend.oldName = "User" ∧ friend.oldName ∈ friend.marked ∧
      (nodeSchema.unmarked user.marking).length < (nodeSchema.unmarked user.marked).length ∧
      (nodeSchema.unmarked friend.marked).length < (nodeSchema.unmarked user.marked).length := by
  have start : operationsScript nodeSchema nodeSchema = [] ++ [.follow "Root" "Root"] := by cbv
  have ofRoot : script default nodeSchema nodeSchema "Root" "Root" =
      [.report (.progress ⟨"Root", none, some .object⟩ "Examining type 'Root' ..."),
        .report (.progress ⟨"Root", some "user", some .object⟩ "field 'user' ...")] ++
      [.follow "User" "User"] := by cbv
  have ofUser : script default nodeSchema nodeSchema "User" "User" =
      [.report (.progress ⟨"User", none, some .object⟩ "Examining type 'User' ..."),
        .report (.progress ⟨"Node", some "friend", some .interface⟩ "field 'friend' ...")] ++
      [.follow "User" "User"] := by cbv
  have root : Made default nodeSchema nodeSchema ⟨[], "Root", "Root"⟩ := .start start .done
  have user : Made default nodeSchema nodeSchema ⟨["Root"], "User", "User"⟩ :=
    root.nested ⟨List.not_mem_nil, _, _, _, ofRoot, .report (.report .done)⟩
  have makesFriend : Call.Makes default nodeSchema nodeSchema ⟨["Root"], "User", "User"⟩
      ⟨["User", "Root"], "User", "User"⟩ :=
    ⟨by decide, _, _, _, ofUser, .report (.report .done)⟩
  obtain ⟨_, marks, shrinks, _⟩ := diff_ends_opening_once default nodeSchema nodeSchema
  exact ⟨_, _, user, makesFriend, rfl, by decide, rfl, by decide, (marks _ user (by decide)).2,
    shrinks _ _ user (.single makesFriend)⟩

end Diff

end SchemaEvolution
