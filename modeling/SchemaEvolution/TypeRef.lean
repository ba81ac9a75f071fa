/-!
References to types: a named type under layers of lists and non-null marks, and its text, in which
a list stands in brackets and a non-null mark follows what it marks.
-/

namespace SchemaEvolution

inductive Wrapper where
  | list
  | nonNull
  deriving DecidableEq, Repr

/-- A reference as schemas write it. Nothing forbids a mark on a mark here; the text does. -/
inductive TypeRef where
  | named (name : String)
  | list (item : TypeRef)
  | nonNull (inner : TypeRef)
  deriving DecidableEq, Repr, Inhabited

namespace TypeRef

def name : TypeRef → String
  | named name => name
  | list item => item.name
  | nonNull inner => inner.name

def outermost : TypeRef → Option Wrapper
  | named _ => none
  | list _ => some .list
  | nonNull _ => some .nonNull

def isNonNull (type : TypeRef) : Bool :=
  type.outermost == some .nonNull

def isList (type : TypeRef) : Bool :=
  type.outermost == some .list

def isNamed (type : TypeRef) : Bool :=
  type.outermost == none

def peel : TypeRef → TypeRef
  | named name => named name
  | list item => item
  | nonNull inner => inner

def wrap (type : TypeRef) : Wrapper → TypeRef
  | .list => list type
  | .nonNull => nonNull type

/-- The layers from the inside out. -/
def wrappers : TypeRef → List Wrapper
  | named _ => []
  | list item => item.wrappers ++ [.list]
  | nonNull inner => inner.wrappers ++ [.nonNull]

def ofWrappers (name : String) (layers : List Wrapper) : TypeRef :=
  layers.foldl wrap (named name)

def peelings : TypeRef → List TypeRef
  | named name => [named name]
  | list item => list item :: item.peelings
  | nonNull inner => nonNull inner :: inner.peelings

def chars : TypeRef → List Char
  | named name => name.toList
  | list item => '[' :: (item.chars ++ [']'])
  | nonNull inner => inner.chars ++ ['!']

def text (type : TypeRef) : String :=
  String.ofList type.chars

end TypeRef

end SchemaEvolution
