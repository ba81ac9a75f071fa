/-!
YAML nodes. An anchor gives a node a number, and an alias stands for the node with its number, so a
node may hold itself. Of the looks of a scalar those are kept that its meaning depends on.
-/

namespace SchemaEvolution

/-- How a scalar is written: without quotes, in quotes, or as a block of lines that are kept or
folded. -/
inductive ScalarStyle where
  | plain
  | quoted
  | literal
  | folded
  deriving DecidableEq, Repr

inductive Yaml where
  | scalar (anchor? : Option Nat) (style : ScalarStyle) (tag? : Option String) (text : String)
  | sequence (anchor? : Option Nat) (items : List Yaml)
  | mapping (anchor? : Option Nat) (entries : List (Yaml × Yaml))
  | aliasOf (anchor : Nat)
  deriving Repr

namespace Yaml

def absent : Yaml :=
  scalar none .plain none ""

def anchor? : Yaml → Option Nat
  | scalar anchor? _ _ _ => anchor?
  | sequence anchor? _ => anchor?
  | mapping anchor? _ => anchor?
  | aliasOf _ => none

mutual

def nodes : Yaml → List Yaml
  | sequence anchor? items => sequence anchor? items :: nodesOfItems items
  | mapping anchor? entries => mapping anchor? entries :: nodesOfEntries entries
  | node => [node]

def nodesOfItems : List Yaml → List Yaml
  | [] => []
  | item :: rest => item.nodes ++ nodesOfItems rest

def nodesOfEntries : List (Yaml × Yaml) → List Yaml
  | [] => []
  | (key, value) :: rest => key.nodes ++ (value.nodes ++ nodesOfEntries rest)

end

/-- The node that an anchor stands for in a document, which is the last one that bears its number.
-/
def anchored? (root : Yaml) (anchor : Nat) : Option Yaml :=
  (root.nodes.filter fun node => node.anchor? == some anchor).getLast?

/-- A node of the document `root`, or the node that it is an alias of. -/
def resolve? (root : Yaml) : Yaml → Option Yaml
  | aliasOf anchor => root.anchored? anchor
  | node => some node

def nullTag : String :=
  "tag:yaml.org,2002:null"

def boolTag : String :=
  "tag:yaml.org,2002:bool"

def isNullWord (text : String) : Bool :=
  ["~", "null", "Null", "NULL"].contains text

/-- Tells whether a node that may be missing is. A scalar whose tag says that it is the null has to
be one of its words; one with another tag is not missing. -/
def isMissing? : Yaml → Option Bool
  | scalar _ .plain none text => some (text.isEmpty || isNullWord text)
  | scalar _ .plain (some tag) text =>
      if tag = nullTag then if isNullWord text then some true else none
      else some false
  | _ => some false

/-- The truth value that a node is. A scalar has to be written without quotes, or as a block whose
lines are kept and whose tag says that it is a truth value. -/
def bool? : Yaml → Option Bool
  | scalar _ style tag? text =>
      if style = .plain ∨ (style = .literal ∧ tag? = some boolTag) then
        if ["true", "True", "TRUE"].contains text then some true
        else if ["false", "False", "FALSE"].contains text then some false
        else none
      else none
  | _ => none

def namedEntries? (root : Yaml) : Yaml → Option (List (String × Yaml))
  | mapping _ entries =>
      entries.mapM fun (key, value) => do
        match ← root.resolve? key with
        | scalar _ _ _ text => some (text, value)
        | _ => none
  | scalar _ .plain _ "" => some []
  | _ => none

/-- The node under a key that may be written once at most; the outer layer tells a key that is
written twice. -/
def uniqueEntry? (root : Yaml) (name : String) (entries : List (String × Yaml)) :
    Option (Option Yaml) :=
  match entries.filter fun entry => entry.1 == name with
  | [] => some none
  | [(_, value)] => (root.resolve? value).map some
  | _ => none

end Yaml

end SchemaEvolution
