import SchemaEvolution.Text.Hex
import SchemaEvolution.Yaml.Cursor

/-!
Tags of YAML nodes. A tag is written in full between angle brackets, or as a handle that stands for
the start of a tag, with what comes behind that start.
-/

namespace SchemaEvolution.Yaml

/-- A tag as it is written. The handle of a tag that is written in full is empty. -/
structure TagWord where
  handle : String
  suffix : String
  deriving DecidableEq, Repr

abbrev TagHandles :=
  List (String × String)

def TagHandles.usual : TagHandles :=
  [("!", "!"), ("!!", "tag:yaml.org,2002:")]

def TagWord.resolve? (handles : TagHandles) (word : TagWord) : Option String :=
  if word.handle = "" then some word.suffix
  else (handles.lookup word.handle).map (· ++ word.suffix)

def isTagChar (inFull : Bool) (c : Char) : Bool :=
  isNameChar c || [';', '/', '?', ':', '@', '&', '=', '+', '$', '.', '!', '~', '*', '\'', '(',
    ')'].contains c || (inFull && (c == ',' || c == '[' || c == ']'))

def continuationCount? (byte : Nat) : Option Nat :=
  if byte < 0x80 then some 0
  else if 0xc0 ≤ byte && byte < 0xe0 then some 1
  else if 0xe0 ≤ byte && byte < 0xf0 then some 2
  else if 0xf0 ≤ byte && byte < 0xf8 then some 3
  else none

/-- The characters of a tag, and the text after them. A percent sign and two digits stand for a
byte; `expected` is the number of bytes that have to follow for the character begun last. -/
def tagChars? (inFull : Bool) (expected : Nat) : List Char → Option (List Char × List Char)
  | [] => if expected = 0 then some ([], []) else none
  | '%' :: high :: low :: rest => do
      let byte := (← Text.hexValue? high) * 16 + (← Text.hexValue? low)
      let expected ←
        match expected with
        | 0 => continuationCount? byte
        | left + 1 => if 0x80 ≤ byte && byte < 0xc0 then some left else none
      let (chars, rest) ← tagChars? inFull expected rest
      return (Char.ofNat byte :: chars, rest)
  | c :: rest =>
      if expected ≠ 0 ∨ c = '%' then none
      else if isTagChar inFull c then
        (tagChars? inFull 0 rest).map fun (chars, after) => (c :: chars, after)
      else some ([], c :: rest)

def tagText (chars : List Char) : String :=
  String.ofList (chars.takeWhile (· != '\x00'))

/-- The handle at the start of a text, with the text after it: an exclamation mark, or a name
between two of them. A name that no second mark follows is left in the text. -/
def splitHandle (text : List Char) : List Char × List Char :=
  let name := (text.drop 1).takeWhile isNameChar
  let rest := text.drop (name.length + 1)
  if rest.head? == some '!' then ('!' :: (name ++ ['!']), rest.drop 1) else (['!'], text.drop 1)

/-- The tag at the start of a text, with the text after it. An exclamation mark that stands alone is
a tag in full. -/
def readTag? (text : List Char) : Option (TagWord × List Char) := do
  if text.take 2 == ['!', '<'] then
    let (chars, rest) ← tagChars? true 0 (text.drop 2)
    guard (rest.head? == some '>' && rest.length + 2 < text.length)
    return (⟨"", tagText chars⟩, rest.drop 1)
  else
    let (handle, text) := splitHandle text
    let (chars, rest) ← tagChars? false 0 text
    guard (handle == ['!'] || rest.length < text.length)
    let suffix := tagText chars
    if handle == ['!'] && suffix.isEmpty then return (⟨"", "!"⟩, rest)
    else return (⟨String.ofList handle, suffix⟩, rest)

def readHandle? (text : List Char) : Option ((String × String) × List Char) := do
  let text := text.dropWhile isLineBlank
  guard (text.head? == some '!')
  let (handle, rest) := splitHandle text
  guard (rest.head?.any isLineBlank)
  let rest := rest.dropWhile isLineBlank
  let (chars, after) ← tagChars? true 0 rest
  guard (after.length < rest.length && endsWord after)
  return ((String.ofList handle, tagText chars), after)

end SchemaEvolution.Yaml
