import SchemaEvolution.Diff.Options
import SchemaEvolution.Json
import SchemaEvolution.Yaml.Parse

/-!
Options of a comparison as they are written down: in a YAML configuration under the key `diff`, or
as a JSON object.
-/

namespace SchemaEvolution.Diff.Options

/-- The options of a `diff` section in the document `root`. The truth value may not be missing where
its key is written. -/
def ofSection? (root node : Yaml) : Option Options := do
  let entries ← root.namedEntries? node
  match ← root.uniqueEntry? "enforce_directives" entries with
  | some enforced => return ⟨← enforced.bool?⟩
  | none => return default

/-- The options of a configuration. An empty configuration and one whose `diff` section is missing
give the default; keys that mean nothing are passed over. -/
def ofConfiguration? (root : Yaml) : Option Options := do
  let entries ← root.namedEntries? root
  match ← root.uniqueEntry? "diff" entries with
  | some node => if ← node.isMissing? then return default else ofSection? root node
  | none => return default

def ofYaml? (text : String) : Option Options := do
  ofConfiguration? (← Yaml.parse? text)

def toJson (options : Options) : Json :=
  .object [("enforce_directives", .bool options.enforceDirectives)]

def ofJson? (json : Json) : Option Options := do
  match ← json.record? ["enforce_directives"] with
  | [some enforced] => return ⟨← enforced.bool?⟩
  | [none] => return default
  | _ => none

end SchemaEvolution.Diff.Options
