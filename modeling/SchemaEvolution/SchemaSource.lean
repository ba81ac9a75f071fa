import SchemaEvolution.Introspection.Conversion

/-!
Where schemas come from. Reading is left to whoever offers files: all functions here are given a way
to get the text of a file, in whatever monad that happens.
-/

namespace SchemaEvolution

inductive SchemaLocation where
  | file (path : String)
  | url (address : String)
  deriving DecidableEq, Repr

namespace SchemaLocation

/-- A web address starts with its scheme in lower case; everything else is a path. -/
def parse (text : String) : SchemaLocation :=
  if text.startsWith "http://" || text.startsWith "https://" then url text else file text

def text : SchemaLocation → String
  | file path => path
  | url address => address

end SchemaLocation

inductive LoadError where
  | unreadable (path : String)
  | invalid (path : String) (cause : IntrospectionError)
  /-- Servers are not asked: there is no connection to them. -/
  | unreachable (address : String)
  deriving DecidableEq, Repr

namespace LoadError

def message : LoadError → String
  | unreadable path => s!"Failed to read schema file '{path}'"
  | invalid path _ => s!"Invalid introspection result in '{path}'"
  | unreachable address => s!"Failed to send introspection query to '{address}'"

def cause? : LoadError → Option IntrospectionError
  | invalid _ cause => some cause
  | _ => none

end LoadError

def SchemaLocation.load {m : Type → Type} [Monad m] (readText : String → m (Option String)) :
    SchemaLocation → m (Except LoadError Document)
  | .url address => return .error (.unreachable address)
  | .file path => do
      match ← readText path with
      | none => return .error (.unreadable path)
      | some text => return (Document.ofIntrospectionText text).mapError (LoadError.invalid path)

end SchemaEvolution
