import SchemaEvolution.Diff.Script

/-!
The walk through two schemas. It starts with the operations and carries out the script of every
pair of types that it is led to, depth first, but looks at each old type only once. What is not yet
examined is a finite list of names that only shrinks, so the walk ends.
-/

namespace SchemaEvolution

def Field.mentions (field : Field) : List String :=
  field.type.name :: field.arguments.map fun argument => argument.type.name

def TypeDefinition.mentions : TypeDefinition → List String
  | object type => type.fields.flatMap Field.mentions
  | interface type => type.fields.flatMap Field.mentions
  | union type => type.members
  | enum _ => []
  | scalar _ => []
  | inputObject type => type.fields.map fun field => field.type.name

/-- The root names, and all that the definitions mention, each name once. -/
def Document.mentions (document : Document) : List String :=
  (OperationType.all.filterMap document.root?
    ++ document.types.values.flatMap TypeDefinition.mentions).eraseDups

namespace Diff

structure Trace where
  events : List Event
  failure? : Option UnresolvedInterface
  deriving DecidableEq, Repr

namespace Trace

def finished : Trace :=
  ⟨[], none⟩

def gaveUp (error : UnresolvedInterface) : Trace :=
  ⟨[], some error⟩

def after (event : Event) (trace : Trace) : Trace :=
  { trace with events := event :: trace.events }

end Trace

def withoutName (name : String) (names : List String) : List String :=
  names.filter fun other => other ≠ name

theorem length_withoutName_lt {name : String} {names : List String} (member : name ∈ names) :
    (withoutName name names).length < names.length :=
  List.length_filter_lt_length_iff_exists.mpr ⟨name, member, by simp⟩

/-- Carries out the steps of an agenda. A type that is turned to for the first time has its script
put in front of the rest of the agenda. -/
def walk (options : Options) (oldDocument newDocument : Document) (unexamined : List String)
    (agenda : List Step) : Trace :=
  match agenda with
  | [] => .finished
  | .giveUp error :: _ => .gaveUp error
  | .report event :: rest =>
      .after event (walk options oldDocument newDocument unexamined rest)
  | .follow oldName newName :: rest =>
      if _new : oldName ∈ unexamined then
        walk options oldDocument newDocument (withoutName oldName unexamined)
          (script options oldDocument newDocument oldName newName ++ rest)
      else walk options oldDocument newDocument unexamined rest
termination_by (unexamined.length, agenda.length)
decreasing_by
  · exact Prod.Lex.right _ (by simp)
  · exact Prod.Lex.left _ _ (length_withoutName_lt _new)
  · exact Prod.Lex.right _ (by simp)

end Diff

def diff (options : Diff.Options) (old new : Document) : Diff.Trace :=
  Diff.walk options old new old.mentions (OperationType.all.flatMap (Diff.operationScript old new))

end SchemaEvolution
