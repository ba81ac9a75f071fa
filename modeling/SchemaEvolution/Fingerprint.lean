import SchemaEvolution.Fingerprint.Canonical
import SchemaEvolution.Fingerprint.Sha256

/-!
Fingerprints of documents. Two documents that mean the same have one fingerprint, in whatever order
their types and members were written.
-/

namespace SchemaEvolution

def Document.fingerprint (document : Document) : String :=
  Sha256.hex document.canonicalText

end SchemaEvolution
