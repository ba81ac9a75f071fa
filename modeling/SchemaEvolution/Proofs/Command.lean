import Mathlib
import SchemaEvolution.Command.Run
import SchemaEvolution.Proofs.Diff.SameForm

/-!
The exit codes of the commands that compare two schemas. The comparison with a verdict trusts equal
fingerprints and does not look at the documents then; it still exits as the comparison that lists
all events does.
-/

namespace SchemaEvolution

theorem Diff.breakingCount_eq_ok_zero_iff_result (options : Options) (old new : Document) :
    (diff options old new).breakingCount = .ok 0 ↔
      ∃ found, result options old new = .ok found ∧ found.isBreaking = false := by
  unfold Trace.breakingCount result
  cases failed : (diff options old new).failure? with
  | none => simp [failed, Result.ofEvents, Result.isBreaking]
  | some error => simp [failed]

namespace Schema

theorem verdict_of_same {old new : Schema} (same : old.fingerprint = new.fingerprint) :
    old.verdict new = .ok .green :=
  if_pos same

theorem verdict_of_different {old new : Schema} (different : old.fingerprint ≠ new.fingerprint) :
    old.verdict new = (Diff.result default old.document new.document).map
      fun found => if found.isBreaking then .red else .yellow := by
  unfold verdict
  rw [if_neg different]
  cases Diff.result default old.document new.document <;> rfl

theorem verdict_eq_green_iff (old new : Schema) :
    old.verdict new = .ok .green ↔ old.fingerprint = new.fingerprint := by
  refine ⟨fun green => ?_, verdict_of_same⟩
  by_contra different
  rw [verdict_of_different different] at green
  obtain ⟨found, _, isGreen⟩ := ok_of_map_ok green
  split at isGreen <;> cases isGreen

end Schema

namespace Command

theorem exitCode_completed_eq_one_iff (isBroken : Bool) (printed : String) :
    (Outcome.completed isBroken printed).exitCode = 1 ↔ isBroken = true := by
  cases isBroken <;> simp [Outcome.completed]

theorem diffOutcome_exitCode_eq_one_iff (options : Diff.Options) (old new : Document)
    (format : OutputFormat) :
    (diffOutcome options old new format).exitCode = 1 ↔
      (diff options old new).breakingCount ≠ .ok 0 := by
  cases format with
  | text =>
      unfold diffOutcome Diff.Trace.breakingCount
      cases failed : (diff options old new).failure? with
      | none => simp [failed, exitCode_completed_eq_one_iff]
      | some error => simp [failed, Outcome.failed]
  | json =>
      rw [Ne, Diff.breakingCount_eq_ok_zero_iff_result]
      unfold diffOutcome
      cases Diff.result options old new with
      | error error => simp [Outcome.failed]
      | ok found => simp [exitCode_completed_eq_one_iff]

theorem compareOutcome_of_green {old new : Schema} (green : old.verdict new = .ok .green) :
    compareOutcome old new false = .completed false (verdictLine .green) := by
  unfold compareOutcome
  rw [green]
  rfl

/-- With equal fingerprints the command answers without a comparison, so these have to promise that
there is no break. -/
theorem compareOutcome_exitCode_eq_one_iff {old new : Schema}
    (trusted : old.fingerprint = new.fingerprint →
      (diff default old.document new.document).breakingCount = .ok 0) (detailed : Bool) :
    (compareOutcome old new detailed).exitCode = 1 ↔
      (diff default old.document new.document).breakingCount ≠ .ok 0 := by
  rw [Ne, Diff.breakingCount_eq_ok_zero_iff_result]
  unfold compareOutcome
  by_cases same : old.fingerprint = new.fingerprint
  · obtain ⟨found, isResult, unbroken⟩ :=
      (Diff.breakingCount_eq_ok_zero_iff_result _ _ _).mp (trusted same)
    rw [Schema.verdict_of_same same, isResult]
    cases detailed <;> simp [exitCode_completed_eq_one_iff, unbroken]
  · rw [Schema.verdict_of_different same]
    cases Diff.result default old.document new.document with
    | error error => simp [Except.map, Outcome.failed]
    | ok found =>
        cases detailed <;> cases found.isBreaking <;>
          simp [Except.map, exitCode_completed_eq_one_iff]

def runOn (files : String → Option String) (request : Request) : Outcome :=
  Id.run (run files request)

theorem load_file_of_accepted {files : String → Option String} {path : String} {payload : Json}
    {document : Document} (file : (files path).bind Json.parse? = some payload)
    (accepted : Document.ofIntrospection payload = .ok document) :
    Id.run ((SchemaLocation.file path).load files) = .ok document := by
  obtain ⟨text, isText, isPayload⟩ := Option.bind_eq_some_iff.mp file
  have isDocument : Document.ofIntrospectionText text = .ok document := by
    simp only [Document.ofIntrospectionText, isPayload, accepted]
  simp only [SchemaLocation.load, isText]
  exact congrArg (Except.mapError (LoadError.invalid path)) isDocument

/-- The digest is taken to tell the two canonical texts apart if they differ. Where no two members
of one name are written differently in the old schema, equal fingerprints promise rightly that there
is no break, and the command that asks for a verdict exits with one exactly if the command that
lists all events does. -/
theorem compare_agrees_with_diff {oldPayload newPayload : Json} {old new : Document}
    (oldAccepted : Document.ofIntrospection oldPayload = .ok old)
    (newAccepted : Document.ofIntrospection newPayload = .ok new)
    (toldApart : old.fingerprint = new.fingerprint → old.canonicalText = new.canonicalText)
    (alike : old.MembersAlike) :
    ((Schema.ofDocument old).verdict (.ofDocument new) = .ok .green →
      ∃ found, Diff.result default old new = .ok found ∧ found.isBreaking = false) ∧
    ∀ (files : String → Option String) (oldPath newPath : String) (detailed : Bool)
        (format : OutputFormat),
      (files oldPath).bind Json.parse? = some oldPayload →
      (files newPath).bind Json.parse? = some newPayload →
      ((runOn files (.compare (.file oldPath) (.file newPath) detailed)).exitCode = 1 ↔
        (runOn files (.diff (.file oldPath) (.file newPath) format false none)).exitCode = 1) := by
  have trusted (same : old.fingerprint = new.fingerprint) :
      (diff default old new).breakingCount = .ok 0 :=
    Diff.breakingCount_of_same_form (Document.isConverted_of_ofIntrospection oldAccepted)
      (Document.isConverted_of_ofIntrospection newAccepted)
      (Document.canonical_eq_of_canonicalText (toldApart same)) alike
  refine ⟨fun green => ?_, ?_⟩
  · have same := (Schema.verdict_eq_green_iff _ _).mp green
    exact (Diff.breakingCount_eq_ok_zero_iff_result _ _ _).mp (trusted same)
  · intro files oldPath newPath detailed format oldFile newFile
    have oldLoaded := load_file_of_accepted oldFile oldAccepted
    have newLoaded := load_file_of_accepted newFile newAccepted
    have compared : runOn files (.compare (.file oldPath) (.file newPath) detailed) =
        compareOutcome (.ofDocument old) (.ofDocument new) detailed := by
      simp only [runOn, run, Id.run_bind, Id.run_pure, oldLoaded, newLoaded]
    have listed : runOn files (.diff (.file oldPath) (.file newPath) format false none) =
        diffOutcome default old new format := by
      simp only [runOn, run, loadOptions, Id.run_bind, Id.run_pure, oldLoaded, newLoaded,
        Bool.false_eq_true, if_false]
    have verdictCode : (compareOutcome (.ofDocument old) (.ofDocument new) detailed).exitCode = 1 ↔
        (diff default old new).breakingCount ≠ .ok 0 :=
      compareOutcome_exitCode_eq_one_iff trusted detailed
    rw [compared, listed, verdictCode, diffOutcome_exitCode_eq_one_iff]

def queryAnswer (fields : List (String × String)) : Json :=
  let fieldAnswer (name typeName : String) : Json :=
    .object [("name", .string name), ("description", .null), ("args", .array []),
      ("type", .object [("kind", .string "SCALAR"), ("name", .string typeName), ("ofType", .null)]),
      ("isDeprecated", .bool false), ("deprecationReason", .null)]
  let query : Json :=
    .object [("kind", .string "OBJECT"), ("name", .string "Query"), ("description", .null),
      ("fields", .array (fields.map fun (name, typeName) => fieldAnswer name typeName)),
      ("inputFields", .null), ("interfaces", .array []), ("enumValues", .null),
      ("possibleTypes", .null)]
  .object [("__schema", .object [("queryType", .object [("name", .string "Query")]),
    ("mutationType", .null), ("subscriptionType", .null), ("types", .array [query]),
    ("directives", .array [])])]

def querySchema (fields : List (String × String)) : Document :=
  { types := NameMap.ofList [("Query", .object
      ⟨"Query", fields.map fun (name, typeName) => ⟨name, .named typeName, [], []⟩, [], []⟩)]
    queryType? := some "Query"
    mutationType? := none
    subscriptionType? := none }

theorem reordered_fields_green :
    let old := querySchema [("name", "String"), ("age", "Int")]
    let new := querySchema [("age", "Int"), ("name", "String")]
    Document.ofIntrospection (queryAnswer [("name", "String"), ("age", "Int")]) = .ok old ∧
      Document.ofIntrospection (queryAnswer [("age", "Int"), ("name", "String")]) = .ok new ∧
      (Schema.ofDocument old).verdict (.ofDocument new) = .ok .green ∧
      ∃ found, Diff.result default old new = .ok found ∧ found.isBreaking = false := by
  intro old new
  have oldAccepted :
      Document.ofIntrospection (queryAnswer [("name", "String"), ("age", "Int")]) = .ok old := by
    cbv
  have newAccepted :
      Document.ofIntrospection (queryAnswer [("age", "Int"), ("name", "String")]) = .ok new := by
    cbv
  have sameForm : old.canonical.toJson = new.canonical.toJson := by cbv
  have sameText : old.canonicalText = new.canonicalText := congrArg Json.pretty sameForm
  have alike : old.MembersAlike := by
    intro definition member
    cases List.mem_singleton.mp member
    refine ⟨namesakesAlike_of_nodup (by decide) fun _ => ⟨rfl, rfl⟩, fun field inFields => ?_⟩
    obtain ⟨⟨name, typeName⟩, _, rfl⟩ := List.mem_map.mp inFields
    exact fun _ noArgument => absurd noArgument List.not_mem_nil
  have green : (Schema.ofDocument old).verdict (.ofDocument new) = .ok .green :=
    Schema.verdict_of_same (congrArg Sha256.hex sameText)
  have agreed := compare_agrees_with_diff oldAccepted newAccepted (fun _ => sameText) alike
  exact ⟨oldAccepted, newAccepted, green, agreed.1 green⟩

/-- A field that is written twice, with two types: the canonical form has both, whichever comes
last, and the comparison has the last one only. -/
theorem repeated_field_green_though_broken :
    let old := querySchema [("id", "String"), ("id", "Int")]
    let new := querySchema [("id", "Int"), ("id", "String")]
    Document.ofIntrospection (queryAnswer [("id", "String"), ("id", "Int")]) = .ok old ∧
      Document.ofIntrospection (queryAnswer [("id", "Int"), ("id", "String")]) = .ok new ∧
      (Schema.ofDocument old).verdict (.ofDocument new) = .ok .green ∧
      (diff default old new).breakingCount = .ok 1 ∧
      (compareOutcome (.ofDocument old) (.ofDocument new) false).exitCode = 0 ∧
      (diffOutcome default old new .text).exitCode = 1 := by
  intro old new
  have sameForm : old.canonical.toJson = new.canonical.toJson := by cbv
  have sameText : old.canonicalText = new.canonicalText := congrArg Json.pretty sameForm
  have green : (Schema.ofDocument old).verdict (.ofDocument new) = .ok .green :=
    Schema.verdict_of_same (congrArg Sha256.hex sameText)
  have broken : (diff default old new).breakingCount = .ok 1 := by cbv
  refine ⟨by cbv, by cbv, green, broken, ?_, ?_⟩
  · rw [compareOutcome_of_green green]
    rfl
  · rw [diffOutcome_exitCode_eq_one_iff, broken]
    exact fun same => absurd (Except.ok.inj same) (by decide)

end Command

end SchemaEvolution
