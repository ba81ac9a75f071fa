import SchemaEvolution.Command.Arguments
import SchemaEvolution.Diff.Configuration
import SchemaEvolution.Diff.JsonForm
import SchemaEvolution.Report
import SchemaEvolution.Schema

/-!
What the commands do: which schemas they load in which order, what they print and with which code
they exit. The exit code is one for a broken upgrade and for an error, and two for misused
arguments.
-/

namespace SchemaEvolution.Command

/-- How a run ends. An error has a message, which does not belong to the printed text. -/
structure Outcome where
  exitCode : Nat
  printed : String
  message? : Option String
  deriving DecidableEq, Repr

namespace Outcome

def completed (isBroken : Bool) (printed : String) : Outcome :=
  ⟨if isBroken then 1 else 0, printed, none⟩

def failed (printed message : String) : Outcome :=
  ⟨1, printed, some message⟩

def misused : Outcome :=
  ⟨2, "", none⟩

end Outcome

def versionText : String :=
  "graphql-sign 0.1.0\n"

def helpText : String :=
  "Check GraphQL schema compatibility and generate semantic fingerprints\n\n" ++
  "Usage: graphql-sign [--log-level <LOG_LEVEL>] <COMMAND>\n\n" ++
  "Commands:\n" ++
  "  compare      Compare two schemas for compatibility\n" ++
  "  fingerprint  Generate semantic fingerprint for a schema\n" ++
  "  diff         Report every difference between two schemas\n"

def verdictLine (verdict : Verdict) : String :=
  s!"{verdict.name}: {verdict.sentence}\n"

def detailText (result : Diff.Result) : String :=
  s!"Detailed analysis: {result.breakingCount} breaking changes, {result.dangerousCount} dangerous changes found\n" ++
    String.join ((result.breakages ++ result.dangers).map fun event => s!"  - {event.text}\n")

/-- The lines of a summary: how often each level and category occur together, in the order of their
texts. -/
def summaryLines (events : List Event) : List String :=
  ["BREAKING", "DANGEROUS"].flatMap fun level =>
    ((NameMap.ofList (Category.all.map fun category => (category.id, category))).entries.filterMap
      fun (id, category) =>
        match events.countP fun event =>
            event.finding.level = level && event.category? = some category with
        | 0 => none
        | count + 1 => some s!"  {level} {id}: {count + 1}\n")

def summaryText (events : List Event) : String :=
  match summaryLines events with
  | [] => "No differences detected.\n"
  | lines => "Summary:\n" ++ String.join lines

def traceText (trace : Diff.Trace) : String :=
  let chain := (CountedChain.start [Sink.printer .start]).receiveAll trace.signals
  chain.written ++ (if trace.failure?.isNone then summaryText trace.events else "")

def compareOutcome (old new : Schema) (detailed : Bool) : Outcome :=
  match old.verdict new with
  | .error error => .failed "" error.message
  | .ok verdict =>
      if detailed then
        match Diff.result default old.document new.document with
        | .error error => .failed (verdictLine verdict) error.message
        | .ok result => .completed (verdict = .red) (verdictLine verdict ++ detailText result)
      else .completed (verdict = .red) (verdictLine verdict)

def diffOutcome (options : Diff.Options) (old new : Document) : OutputFormat → Outcome
  | .text =>
      let trace := diff options old new
      match trace.failure? with
      | some error => .failed (traceText trace) error.message
      | none => .completed (trace.events.any Event.isBreaking) (traceText trace)
  | .json =>
      match Diff.result options old new with
      | .error error => .failed "" error.message
      | .ok result => .completed result.isBreaking (result.toJson.pretty ++ "\n")

/-- The options that a configuration file holds, the default ones without such a file, or the
message of a failure to load it. -/
def loadOptions {m : Type → Type} [Monad m] (readText : String → m (Option String)) :
    Option String → m (Except String Diff.Options)
  | none => return .ok default
  | some path => do
      match (← readText path).bind Diff.Options.ofYaml? with
      | some options => return .ok options
      | none => return .error s!"Failed to load configuration '{path}'"

/-- Runs a request that may read files. The configuration is read first, then the old schema, then
the new one; the first failure ends the run. -/
def run {m : Type → Type} [Monad m] (readText : String → m (Option String)) :
    Request → m Outcome
  | .version => return .completed false versionText
  | .help => return .completed false helpText
  | .fingerprint location => do
      match ← location.load readText with
      | .error error => return .failed "" error.message
      | .ok document => return .completed false (document.fingerprint ++ "\n")
  | .compare oldLocation newLocation detailed => do
      match ← oldLocation.load readText with
      | .error error => return .failed "" error.message
      | .ok old =>
          match ← newLocation.load readText with
          | .error error => return .failed "" error.message
          | .ok new => return compareOutcome (.ofDocument old) (.ofDocument new) detailed
  | .diff oldLocation newLocation format enforceDirectives configuration? => do
      match ← loadOptions readText configuration? with
      | .error message => return .failed "" message
      | .ok options =>
          let options := if enforceDirectives then Diff.Options.enforcing else options
          match ← oldLocation.load readText with
          | .error error => return .failed "" error.message
          | .ok old =>
              match ← newLocation.load readText with
              | .error error => return .failed "" error.message
              | .ok new => return diffOutcome options old new format

def runArguments {m : Type → Type} [Monad m] (readText : String → m (Option String))
    (arguments : List String) : m Outcome :=
  match parse? arguments with
  | some request => run readText request
  | none => return .misused

end SchemaEvolution.Command
