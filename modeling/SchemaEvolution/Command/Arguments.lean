import SchemaEvolution.SchemaSource

/-!
The arguments of the command line. An option stands anywhere behind its command, with its value as
the next argument or behind an equals sign, and at most once; behind a double dash nothing is an
option.
-/

namespace SchemaEvolution.Command

inductive OutputFormat where
  | text
  | json
  deriving DecidableEq, Repr

inductive Request where
  | compare (old new : SchemaLocation) (detailed : Bool)
  | fingerprint (schema : SchemaLocation)
  | diff (old new : SchemaLocation) (format : OutputFormat) (enforceDirectives : Bool)
      (configuration? : Option String)
  | version
  | help
  deriving DecidableEq, Repr

inductive Refusal where
  | misused
  /-- Help was asked for before anything was wrong. -/
  | helpWanted
  deriving DecidableEq, Repr

/-- What a command takes: how many positional arguments at most, the options without a value, and
those with one, each with the test that its value has to pass. -/
structure Signature where
  positionals : Nat
  flags : List String
  valued : List (String × (String → Bool))

structure Given where
  positionals : List String
  flags : List String
  values : List (String × String)

def splitOption (argument : String) : String × Option String :=
  let chars := argument.toList.drop 2
  let name := chars.takeWhile (· != '=')
  (String.ofList name,
    if name.length < chars.length then some (String.ofList (chars.drop (name.length + 1)))
    else none)

/-- Arguments that start with a dash are options, a lone dash excepted. -/
def looksLikeOption (argument : String) : Bool :=
  argument.startsWith "-" && argument ≠ "-"

namespace Given

def empty : Given :=
  ⟨[], [], []⟩

def addPositional (signature : Signature) (given : Given) (text : String) : Except Refusal Given :=
  if given.positionals.length < signature.positionals then
    .ok { given with positionals := given.positionals ++ [text] }
  else .error .misused

def addFlag (given : Given) (name : String) : Except Refusal Given :=
  if given.flags.contains name then .error .misused
  else .ok { given with flags := name :: given.flags }

def addValue (signature : Signature) (given : Given) (name value : String) : Except Refusal Given :=
  match signature.valued.lookup name, given.values.lookup name with
  | some admits, none =>
      if admits value then .ok { given with values := (name, value) :: given.values }
      else .error .misused
  | _, _ => .error .misused

/-- Reads arguments in their order; the first that is wrong or asks for help ends the reading. -/
def read (signature : Signature) (given : Given) : List String → Except Refusal Given
  | [] => .ok given
  | argument :: rest =>
      if argument = "--" then rest.foldlM (addPositional signature) given
      else if argument.startsWith "--" then
        match splitOption argument with
        | (name, some value) => do read signature (← addValue signature given name value) rest
        | (name, none) =>
            if name = "help" then .error .helpWanted
            else if signature.flags.contains name then do
              read signature (← given.addFlag name) rest
            else
              match rest with
              | value :: others =>
                  if looksLikeOption value then .error .misused
                  else do read signature (← addValue signature given name value) others
              | [] => .error .misused
      else if argument.startsWith "-h" then .error .helpWanted
      else if looksLikeOption argument then .error .misused
      else do read signature (← addPositional signature given argument) rest

end Given

/-- The option that every command knows; its value sets what is logged and has no other effect. -/
def logLevel : String :=
  "log-level"

def readCompare (arguments : List String) : Except Refusal Request := do
  let given ← Given.empty.read ⟨2, ["detailed"], [(logLevel, fun _ => true)]⟩ arguments
  match given.positionals with
  | [old, new] => return .compare (.parse old) (.parse new) (given.flags.contains "detailed")
  | _ => throw .misused

def readFingerprint (arguments : List String) : Except Refusal Request := do
  let given ← Given.empty.read ⟨1, [], [(logLevel, fun _ => true)]⟩ arguments
  match given.positionals with
  | [schema] => return .fingerprint (.parse schema)
  | _ => throw .misused

def OutputFormat.ofName? : String → Option OutputFormat
  | "text" => some .text
  | "json" => some .json
  | _ => none

/-- The path of a configuration may not be empty, and text is the usual format. -/
def readDiff (arguments : List String) : Except Refusal Request := do
  let given ← Given.empty.read
    ⟨2, ["enforce-directives"],
      [(logLevel, fun _ => true), ("format", fun name => (OutputFormat.ofName? name).isSome),
        ("config", fun path => path ≠ "")]⟩ arguments
  let format := ((given.values.lookup "format").bind OutputFormat.ofName?).getD .text
  match given.positionals with
  | [old, new] =>
      return .diff (.parse old) (.parse new) format (given.flags.contains "enforce-directives")
        (given.values.lookup "config")
  | _ => throw .misused

def readHelp : List String → Except Refusal Request
  | [] => .error .helpWanted
  | [name] =>
      if ["compare", "fingerprint", "diff", "help"].contains name then .error .helpWanted
      else .error .misused
  | _ => .error .misused

def readCommand (name : String) (arguments : List String) : Except Refusal Request :=
  match name with
  | "compare" => readCompare arguments
  | "fingerprint" => readFingerprint arguments
  | "diff" => readDiff arguments
  | "help" => readHelp arguments
  | _ => .error .misused

def readRequest (leveled : Bool) : List String → Except Refusal Request
  | [] => .error .misused
  | argument :: rest =>
      if argument = "--version" ∨ argument.startsWith "-V" = true then .ok .version
      else if argument = "--help" ∨ argument.startsWith "-h" = true then .error .helpWanted
      else if argument.startsWith "--" then
        match splitOption argument with
        | (name, some _) =>
            if name = logLevel ∧ leveled = false then readRequest true rest else .error .misused
        | (name, none) =>
            match rest with
            | value :: others =>
                if name = logLevel ∧ leveled = false ∧ looksLikeOption value = false then
                  readRequest true others
                else .error .misused
            | [] => .error .misused
      else if argument.startsWith "-" then .error .misused
      else readCommand argument rest

def parse? (arguments : List String) : Option Request :=
  match readRequest false arguments with
  | .ok request => some request
  | .error .helpWanted => some .help
  | .error .misused => none

end SchemaEvolution.Command
