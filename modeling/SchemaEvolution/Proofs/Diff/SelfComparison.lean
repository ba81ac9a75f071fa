import Mathlib
import SchemaEvolution.Proofs.Diff.Recursion
import SchemaEvolution.Proofs.Diff.Unresolved
import SchemaEvolution.Proofs.TypeRef

/-!
The comparison of a schema with itself. It compares each name that can be reached with itself, finds
no difference whatever is written twice or over itself, and gives up only where an object that can
be reached implements what is no interface.
-/

namespace SchemaEvolution.Diff

variable {options : Options} {document : Document} {name next : String} {event : Event}

theorem MeetingFields.eq_self {owner : Owner} {oldFields newFields : List Field}
    (meeting : MeetingFields document document name name owner oldFields newFields) :
    oldFields = newFields := by
  cases meeting with
  | object oldFound newFound | interface oldFound newFound =>
      rw [oldFound] at newFound
      cases newFound
      rfl
  | implemented _ _ _ oldIs _ newIs =>
      rw [oldIs] at newIs
      cases newIs
      rfl

theorem MeetingField.eq_self {owner : Owner} {old new : Field}
    (meeting : MeetingField document document name name owner old new) : old = new := by
  obtain ⟨_, oldFields, newFields, key, inFields, oldFound, newFound⟩ := meeting
  cases inFields.eq_self
  rw [oldFound] at newFound
  exact Option.some.inj newFound

theorem MeetingInput.eq_self {location : Location} {old new : InputValue}
    (meeting : MeetingInput document document name name location old new) : old = new := by
  cases meeting with
  | argument inField _ oldHas newHas =>
      cases inField.eq_self
      rw [oldHas] at newHas
      exact Option.some.inj newHas
  | inputField _ oldFound newFound oldHas newHas =>
      rw [oldFound] at newFound
      cases newFound
      rw [oldHas] at newHas
      exact Option.some.inj newHas

theorem LeadsTo.eq_self {nextNew : String}
    (leads : LeadsTo document document name name next nextNew) : next = nextNew := by
  cases leads with
  | field meeting => rw [meeting.eq_self]
  | input meeting _ => rw [meeting.eq_self]
  | member _ _ _ _ _ => rfl

theorem exists_meetingField_self (compared : isExempt name = false) {fields : List Field}
    (offers : document.OffersFields name fields) {key : String} {field : Field}
    (found : (NameMap.index Field.name fields).get? key = some field) :
    ∃ owner, MeetingField document document name name owner field field := by
  cases offers with
  | object typeFound =>
      exact ⟨_, compared, _, _, key, .object typeFound typeFound, found, found⟩
  | interface typeFound =>
      exact ⟨_, compared, _, _, key, .interface typeFound typeFound, found, found⟩
  | implemented typeFound listed isInterface =>
      exact ⟨_, compared, _, _, key,
        .implemented typeFound typeFound listed isInterface listed isInterface, found, found⟩

theorem leadsTo_self_of_refersTo (compared : isExempt name = false)
    (refers : document.RefersTo name next) : LeadsTo document document name name next next := by
  cases refers with
  | field offers found =>
      obtain ⟨owner, meeting⟩ := exists_meetingField_self compared offers found
      exact .field meeting
  | argument offers found has =>
      obtain ⟨owner, meeting⟩ := exists_meetingField_self compared offers found
      exact .input (.argument meeting (Nat.le_refl _) has has) (TypeRef.mismatch_self _)
  | inputField found has =>
      exact .input (.inputField compared found found has has) (TypeRef.mismatch_self _)
  | member found listed => exact .member compared found found listed listed

theorem eq_of_mem_comparisons_self {oldName newName : String}
    (compared : (oldName, newName) ∈ comparisons options document document) :
    oldName = newName :=
  (SameRoots.self document).eq_of_leadsTo (fun _ _ _ _ leads => leads.eq_self) compared

theorem mem_comparisons_self_of_reachable (reachable : document.Reachable name) :
    (name, name) ∈ comparisons options document document := by
  have withItself {first : String}
      (found : ∃ other, (first, other) ∈ comparisons options document document) :
      (first, first) ∈ comparisons options document document := by
    obtain ⟨other, compared⟩ := found
    have same := eq_of_mem_comparisons_self compared
    subst same
    exact compared
  induction reachable with
  | root isRoot defined _ =>
      exact withItself (exists_comparison_of_roots isRoot isRoot defined)
  | step earlier refers _ ih =>
      have leads := leadsTo_self_of_refersTo earlier.isExempt_eq_false refers
      exact withItself (exists_comparison_of_leadsTo ih leads)

theorem reachable_iff_mem_comparisons_self (options : Options) :
    document.Reachable name ↔
      (name, name) ∈ comparisons options document document ∧ isExempt name = false :=
  ⟨fun reachable => ⟨mem_comparisons_self_of_reachable reachable, reachable.isExempt_eq_false⟩,
    fun compared => reachable_of_mem_comparisons compared.1 compared.2⟩

theorem DirectiveReport.not_self {location : Location} {directives : List Directive} :
    ¬DirectiveReport location directives directives event := by
  intro report
  cases report with
  | lost oldFound newFound =>
      rw [oldFound] at newFound
      cases newFound
  | fewerArguments oldFound newFound fewer =>
      rw [oldFound] at newFound
      cases newFound
      exact Nat.lt_irrefl _ fewer
  | argumentLost oldFound newFound has lacks =>
      rw [oldFound] at newFound
      cases newFound
      rw [has] at lacks
      cases lacks
  | argumentReformed oldFound newFound oldHas newHas different =>
      rw [oldFound] at newFound
      cases newFound
      rw [oldHas] at newHas
      cases newHas
      exact different rfl

theorem InputReport.not_self {location : Location} {input : InputValue} :
    ¬InputReport options location input input event := by
  intro report
  cases report with
  | retyped mismatched =>
      rw [TypeRef.mismatch_self] at mismatched
      cases mismatched
  | defaultReformed had has different =>
      rw [had] at has
      cases has
      exact different rfl
  | defaultChanged different => exact different rfl
  | directive _ report => exact report.not_self

theorem FieldReport.isProgress_self {owner : Owner} {field : Field}
    (report : FieldReport options owner field field event) : event.isProgress = true := by
  cases report with
  | retyped mismatched =>
      rw [TypeRef.mismatch_self] at mismatched
      cases mismatched
  | fewerArguments fewer => exact absurd fewer (Nat.lt_irrefl _)
  | argument => rfl
  | argumentLost has lacks | argumentDemanded has lacks =>
      rw [has] at lacks
      cases lacks
  | argumentKept oldHas newHas report =>
      rw [oldHas] at newHas
      cases newHas
      exact absurd report InputReport.not_self
  | directive _ report => exact absurd report DirectiveReport.not_self

theorem FieldsReport.isProgress_self {owner : Owner} {fields : List Field}
    (report : FieldsReport options owner fields fields event) : event.isProgress = true := by
  cases report with
  | field => rfl
  | lost has lacks =>
      rw [has] at lacks
      cases lacks
  | kept oldHas newHas report =>
      rw [oldHas] at newHas
      cases newHas
      exact report.isProgress_self

theorem InterfaceReport.isProgress_self {type : InterfaceType}
    (report : InterfaceReport options type type event) : event.isProgress = true := by
  cases report with
  | fields report => exact report.isProgress_self
  | directive _ report => exact absurd report DirectiveReport.not_self

theorem DefinitionReport.isProgress_self {definition : TypeDefinition}
    (report : DefinitionReport options document document name definition definition event) :
    event.isProgress = true := by
  cases report with
  | rekinded different => exact absurd rfl different
  | fields report => exact report.isProgress_self
  | interface report => exact report.isProgress_self
  | implemented _ oldIs _ newIs report =>
      rw [oldIs] at newIs
      cases newIs
      exact report.isProgress_self
  | interfaceLost listed isInterface lost =>
      have isNone := lost listed
      rw [isInterface] at isNone
      cases isNone
  | memberLost listed lacks | memberAdded listed lacks => exact absurd listed lacks
  | valueLost has lacks | valueAdded has lacks | inputFieldLost has lacks
  | inputFieldDemanded has lacks =>
      rw [has] at lacks
      cases lacks
  | valueKept oldHas newHas _ report =>
      rw [oldHas] at newHas
      cases newHas
      exact absurd report DirectiveReport.not_self
  | inputFieldKept oldHas newHas report =>
      rw [oldHas] at newHas
      cases newHas
      exact absurd report InputReport.not_self
  | directive _ _ report => exact absurd report DirectiveReport.not_self

theorem isProgress_of_mem_self
    (member : event ∈ (diff options document document).events) : event.isProgress = true := by
  rcases report_of_mem_diff_events member with ⟨isOld, isNew⟩ | ⟨⟨oldName, newName⟩, compared, report⟩
  · rw [isOld] at isNew
    cases isNew
  · have same := eq_of_mem_comparisons_self compared
    subst same
    cases report with
    | undefined | examined => rfl
    | lost _ oldFound newFound =>
        rw [oldFound] at newFound
        cases newFound
    | definition _ oldFound newFound report =>
        rw [oldFound] at newFound
        cases newFound
        exact report.isProgress_self

/-- Any comparison examines only types that are defined and that it turns to. -/
theorem compared_of_examines {oldDocument newDocument : Document}
    (member : event ∈ (diff options oldDocument newDocument).events)
    (examines : event.examines name = true) :
    isExempt name = false ∧ (oldDocument.type? name).isSome ∧
      ∃ newName, (name, newName) ∈ comparisons options oldDocument newDocument := by
  rcases report_of_mem_diff_events member with ⟨_, _⟩ | ⟨⟨oldName, newName⟩, compared, report⟩
  · cases examines
  · cases report with
    | undefined =>
        rw [Event.examines_missing] at examines
        cases examines
    | examined notExempt found =>
        rw [Event.examines_examined, decide_eq_true_eq] at examines
        subst examines
        exact ⟨notExempt, Option.isSome_of_eq_some found, newName, compared⟩
    | lost => cases examines
    | definition _ _ _ report =>
        have opens : event.opens name = true := by simp [Event.opens, examines]
        rw [report.opens_eq_false] at opens
        cases opens

theorem countP_examines_le_one (options : Options) (oldDocument newDocument : Document)
    (name : String) :
    (diff options oldDocument newDocument).events.countP (Event.examines name) ≤ 1 := by
  refine Nat.le_trans ?_ (countP_opens_diff_le options oldDocument newDocument name)
  exact List.countP_mono_left fun event _ examines => by simp [Event.opens, examines]

/-- A comparison that comes to its end examines each defined type that it turns to. -/
theorem countP_examines_eq_one {oldDocument newDocument : Document} {newName : String}
    (finished : (diff options oldDocument newDocument).failure? = none)
    (compared : (name, newName) ∈ comparisons options oldDocument newDocument)
    (notExempt : isExempt name = false) (defined : (oldDocument.type? name).isSome) :
    (diff options oldDocument newDocument).events.countP (Event.examines name) = 1 := by
  obtain ⟨definition, found⟩ := Option.isSome_iff_exists.mp defined
  have inScript : .report (.progress ⟨name, none, some definition.kind⟩
      s!"Examining type '{name}' ...") ∈ script options oldDocument newDocument name newName := by
    unfold script
    simp only [notExempt, Bool.false_eq_true, if_false, found]
    exact List.mem_cons_self
  have reportedOnce := mem_diff_events_of_mem_script finished compared inScript
  have positive : 0 < (diff options oldDocument newDocument).events.countP
      (Event.examines name) := by
    rw [List.countP_pos_iff]
    refine ⟨_, reportedOnce, ?_⟩
    rw [Event.examines_examined, decide_eq_true_eq]
  have bounded := countP_examines_le_one options oldDocument newDocument name
  omega

theorem failure?_eq_none_iff_self :
    (diff options document document).failure? = none ↔
      ∀ name type, document.Reachable name → document.type? name = some (.object type) →
        ∀ implemented ∈ type.interfaces, (document.interface? implemented).isSome := by
  rw [diff_failure?_eq_none_iff_resolved]
  constructor
  · intro resolved name type reachable found
    exact resolved (name, name) (mem_comparisons_self_of_reachable reachable) type type
      reachable.isExempt_eq_false found found
  · rintro resolved ⟨oldName, newName⟩ compared type _ notExempt found _
    exact resolved oldName type (reachable_of_mem_comparisons compared notExempt) found

/-- A schema compared with itself: the comparison gives up exactly if an object that can be reached
implements what is no interface. If not, it finds nothing, and examines each defined type that can
be reached once and no other one. -/
theorem diff_self (options : Options) (document : Document) :
    ((∃ error, (diff options document document).breakingCount = .error error) ↔
      ∃ name type implemented, document.Reachable name ∧
        document.type? name = some (.object type) ∧ implemented ∈ type.interfaces ∧
        document.interface? implemented = none) ∧
    ((∀ error, (diff options document document).breakingCount ≠ .error error) →
      (diff options document document).breakingCount = .ok 0 ∧
      (∀ event ∈ (diff options document document).events, event.isProgress = true) ∧
      (∀ name, document.Reachable name → (document.type? name).isSome →
        (diff options document document).events.countP (Event.examines name) = 1) ∧
      ∀ name, ¬(document.Reachable name ∧ (document.type? name).isSome) →
        (diff options document document).events.countP (Event.examines name) = 0) := by
  have error_iff : (∃ error, (diff options document document).breakingCount = .error error) ↔
      (diff options document document).failure? ≠ none := by
    unfold Trace.breakingCount
    cases (diff options document document).failure? <;> simp
  refine ⟨?_, fun succeeded => ?_⟩
  · rw [error_iff, Ne, failure?_eq_none_iff_self]
    push Not
    simp only [Option.not_isSome_iff_eq_none, exists_and_left]
  · have finished : (diff options document document).failure? = none := by
      by_contra failed
      obtain ⟨error, given⟩ := error_iff.mpr failed
      exact succeeded error given
    refine ⟨?_, fun event => isProgress_of_mem_self, ?_, ?_⟩
    · refine (breakingCount_eq_ok_zero_iff_events _).mpr ⟨finished, fun event member => ?_⟩
      exact Event.isBreaking_of_isProgress (isProgress_of_mem_self member)
    · intro name reachable defined
      exact countP_examines_eq_one finished (mem_comparisons_self_of_reachable reachable)
        reachable.isExempt_eq_false defined
    · intro name unreached
      rw [List.countP_eq_zero]
      intro event member examines
      obtain ⟨notExempt, defined, newName, compared⟩ := compared_of_examines member examines
      exact unreached ⟨reachable_of_mem_comparisons compared notExempt, defined⟩

theorem nodeSchema_examined_once :
    (∀ error, (diff default nodeSchema nodeSchema).breakingCount ≠ .error error) ∧
      nodeSchema.Reachable "User" ∧ (nodeSchema.type? "User").isSome ∧
      (diff default nodeSchema nodeSchema).events.countP (Event.examines "User") = 1 ∧
      ¬(nodeSchema.Reachable "Node" ∧ (nodeSchema.type? "Node").isSome) ∧
      (diff default nodeSchema nodeSchema).events.countP (Event.examines "Node") = 0 := by
  have succeeds : (diff default nodeSchema nodeSchema).breakingCount = .ok 0 := by cbv
  have compared : comparisons default nodeSchema nodeSchema =
      [("Root", "Root"), ("User", "User")] := by cbv
  have reachable : nodeSchema.Reachable "User" := by
    rw [reachable_iff_mem_comparisons_self default, compared]
    decide
  have unreached : ¬nodeSchema.Reachable "Node" := by
    rw [reachable_iff_mem_comparisons_self default, compared]
    decide
  have noError : ∀ error, (diff default nodeSchema nodeSchema).breakingCount ≠ .error error := by
    simp [succeeds]
  obtain ⟨_, _, once, never⟩ := (diff_self default nodeSchema).2 noError
  exact ⟨noError, reachable, rfl, once "User" reachable rfl, fun both => unreached both.1,
    never "Node" fun both => unreached both.1⟩

end SchemaEvolution.Diff
