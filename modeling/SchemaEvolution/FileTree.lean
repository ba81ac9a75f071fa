/-!
A directory with files and the directories that lead to them, held in memory. Paths are taken
relative to the directory.
-/

namespace SchemaEvolution

abbrev Place :=
  List String

structure FileTree where
  directories : List Place
  files : List (Place × ByteArray)

namespace FileTree

def empty : FileTree :=
  ⟨[], []⟩

def pathParts (path : String) : List String :=
  path.splitOn "/"

/-- The place that a part of a path leads to: an empty part and a dot stay, two dots lead back. -/
def step (place : Place) (part : String) : Place :=
  if part = "" ∨ part = "." then place
  else if part = ".." then place.dropLast
  else place ++ [part]

def steps (place : Place) : List String → List Place
  | [] => []
  | part :: rest => step place part :: steps (step place part) rest

/-- Writes a file, in place of one that stands there, and makes the directories that its path leads
through. -/
def write (tree : FileTree) (path : String) (content : ByteArray) : FileTree :=
  let parts := pathParts path
  { directories := steps [] parts.dropLast ++ tree.directories
    files := (parts.foldl step [], content) :: tree.files }

def ofFiles (files : List (String × ByteArray)) : FileTree :=
  files.foldl (fun tree (path, content) => tree.write path content) empty

def isDirectory (tree : FileTree) (place : Place) : Bool :=
  place.isEmpty || tree.directories.contains place

/-- The place that the parts of a path lead to. One can only go on from a directory, and not to
above the root. -/
def resolve? (tree : FileTree) (place : Place) : List String → Option Place
  | [] => some place
  | part :: rest =>
      if !tree.isDirectory place || (part == ".." && place.isEmpty) then none
      else resolve? tree (step place part) rest

def bytes? (tree : FileTree) (path : String) : Option ByteArray := do
  guard (path ≠ "" && !path.startsWith "/")
  let place ← tree.resolve? [] (pathParts path)
  tree.files.lookup place

def text? (tree : FileTree) (path : String) : Option String := do
  String.fromUTF8? (← tree.bytes? path)

end FileTree

end SchemaEvolution
