import SchemaEvolution.Diff.Result
import SchemaEvolution.Fingerprint
import SchemaEvolution.Introspection.Conversion

/-!
Schema versions with their fingerprints, and the verdict on an upgrade from one to another.
-/

namespace SchemaEvolution

inductive Verdict where
  | green
  | yellow
  | red
  deriving DecidableEq, Repr

namespace Verdict

def name : Verdict → String
  | green => "Green"
  | yellow => "Yellow"
  | red => "Red"

def sentence : Verdict → String
  | green => "Schemas are semantically identical"
  | yellow => "New schema is backward-compatible with old schema"
  | red => "Breaking change detected"

end Verdict

structure Schema where
  document : Document
  fingerprint : String
  deriving DecidableEq

namespace Schema

def ofDocumentWith (digest : String → String) (document : Document) : Schema :=
  ⟨document, digest document.canonicalText⟩

def ofDocument (document : Document) : Schema :=
  ofDocumentWith Sha256.hex document

def conversionContext : String :=
  "Failed to convert introspection result"

def ofIntrospectionText (text : String) : Except IntrospectionError Schema :=
  (Document.ofIntrospectionText text).map ofDocument

/-- Equal fingerprints settle the comparison; otherwise the default comparison does. -/
def verdict (old new : Schema) : Except Diff.UnresolvedInterface Verdict := do
  if old.fingerprint = new.fingerprint then return .green
  else
    let result ← Diff.result default old.document new.document
    return if result.isBreaking then .red else .yellow

end Schema

end SchemaEvolution
