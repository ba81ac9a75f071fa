import SchemaEvolution.Decimal.Numeral
import SchemaEvolution.Decimal.Shortest
import SchemaEvolution.Text.Hex
import SchemaEvolution.Text.Name
import SchemaEvolution.Value

/-!
The tokens of the schema language and the ignorable text between them. A rule reads from the start
of a text and returns what it read with the text after it. Rules of whole tokens also pass over the
ignorable text behind the token, so a rule always starts at a character that counts.
-/

namespace SchemaEvolution.Grammar

/-- Reads from the start of a text, or refuses it. -/
abbrev Rule (α : Type) :=
  StateT (List Char) Option α

def isLineEnd (c : Char) : Bool :=
  c == '\n' || c == '\r'

/-- Characters that separate tokens and mean nothing. A comma is one of them, and so is the byte
order mark; other blanks of Unicode are not. -/
def isSeparator (c : Char) : Bool :=
  c == ' ' || c == ',' || c == '\t' || c == '\ufeff' || isLineEnd c

def skipFrom (commented : Bool) : List Char → List Char
  | [] => []
  | c :: rest =>
      if commented then skipFrom (!isLineEnd c) rest
      else if isSeparator c then skipFrom false rest
      else if c = '#' then skipFrom true rest
      else c :: rest

def skip (text : List Char) : List Char :=
  skipFrom false text

theorem length_skipFrom_le (text : List Char) :
    ∀ commented, (skipFrom commented text).length ≤ text.length := by
  induction text with
  | nil => intro commented; simp [skipFrom]
  | cons c rest ih =>
      intro commented
      unfold skipFrom
      split
      · exact Nat.le_succ_of_le (ih _)
      · split
        · exact Nat.le_succ_of_le (ih _)
        · split
          · exact Nat.le_succ_of_le (ih _)
          · exact Nat.le_refl _

theorem length_skip_le (text : List Char) : (skip text).length ≤ text.length :=
  length_skipFrom_le text false

def afterWord? : List Char → List Char → Option (List Char)
  | [], text => some text
  | _ :: _, [] => none
  | expected :: word, c :: rest => if c = expected then afterWord? word rest else none

/-- A fixed word. Nothing is asked of the character behind it: `inputA` is the word `input` and the
name `A`. -/
def word (expected : String) : Rule Unit := fun text =>
  (afterWord? expected.toList text).map fun rest => ((), skip rest)

def readName? (text : List Char) : Option (String × List Char) :=
  match text with
  | first :: _ =>
      if Text.isNameStart first then
        some (String.ofList (text.takeWhile Text.isNameChar), text.dropWhile Text.isNameChar)
      else none
  | [] => none

def name : Rule String := fun text =>
  (readName? text).map fun (found, rest) => (found, skip rest)

/-- Whether an integer of that sign and size is held as an integer. The range is that of 64-bit
words, signed ones below zero and unsigned ones above; a zero with a sign is left out. -/
def isWordSized (negative : Bool) (size : Nat) : Bool :=
  if negative then 0 < size && size ≤ Nat.pow 2 63 else size < Nat.pow 2 64

/-- The value that a numeral writes: an integer as it is written, any other number as the shortest
text of the double precision number that is read for it. A number beyond the greatest one has no
value. -/
def numeralValue? (numeral : Numeral) : Option Value :=
  if numeral.isInteger && isWordSized numeral.negative (digitsValue numeral.whole) then
    some (.int (String.ofList (if numeral.negative then '-' :: numeral.whole else numeral.whole)))
  else
    numeral.binary64?.map fun size =>
      .float (String.ofList (if numeral.negative then '-' :: size.chars else size.chars))

def readNumber? (text : List Char) : Option (Value × List Char) := do
  let (numeral, rest) ← Numeral.read? text
  guard !(rest.head?.any Text.isNameStart)
  let value ← numeralValue? numeral
  return (value, rest)

def unescape? : Char → Option Char
  | '"' => some '"'
  | '\\' => some '\\'
  | '/' => some '/'
  | 'b' => some '\x08'
  | 'f' => some '\x0c'
  | 'n' => some '\n'
  | 'r' => some '\r'
  | 't' => some '\t'
  | _ => none

/-- The character of four hexadecimal digits. Halves of surrogate pairs are no characters. -/
def hexCharacter? (a b c d : Char) : Option Char := do
  let code ← Text.hexQuad? a b c d
  guard !(0xD800 ≤ code && code < 0xE000)
  return Char.ofNat code

/-- The content of a string up to its closing quote, which is passed over. A line end may not stand
in it. -/
def readQuoted? : List Char → Option (List Char × List Char)
  | [] => none
  | '"' :: rest => some ([], rest)
  | '\\' :: 'u' :: a :: b :: c :: d :: rest => do
      let character ← hexCharacter? a b c d
      let (content, after) ← readQuoted? rest
      return (character :: content, after)
  | '\\' :: letter :: rest => do
      let character ← unescape? letter
      let (content, after) ← readQuoted? rest
      return (character :: content, after)
  | c :: rest =>
      if c = '\\' ∨ isLineEnd c = true then none
      else do
        let (content, after) ← readQuoted? rest
        return (c :: content, after)

/-- The content of a block string up to its three closing quotes, which are passed over. Three
quotes behind a backslash do not close it and stay with their backslash. -/
def readBlock? : List Char → Option (List Char × List Char)
  | [] => none
  | '\\' :: '"' :: '"' :: '"' :: rest => do
      let (content, after) ← readBlock? rest
      return ('\\' :: '"' :: '"' :: '"' :: content, after)
  | '"' :: '"' :: '"' :: rest => some ([], rest)
  | c :: rest => do
      let (content, after) ← readBlock? rest
      return (c :: content, after)

/-- The lines of a text; a carriage return and line feed together end one line. -/
def splitLines : List Char → List (List Char)
  | [] => [[]]
  | '\r' :: '\n' :: rest => [] :: splitLines rest
  | c :: rest =>
      if isLineEnd c then [] :: splitLines rest
      else
        match splitLines rest with
        | [] => [[c]]
        | line :: lines => (c :: line) :: lines

def isIndent (c : Char) : Bool :=
  c == ' ' || c == '\t'

def isBlankLine (line : List Char) : Bool :=
  line.all isIndent

/-- The least indentation of the lines that hold more than indentation. -/
def commonIndent (lines : List (List Char)) : Nat :=
  ((lines.filter fun line => !isBlankLine line).map fun line =>
    (line.takeWhile isIndent).length).min?.getD 0

/-- A line without an indentation; a line that is shorter than it stays as it is. -/
def removeIndent (indent : Nat) (line : List Char) : List Char :=
  if indent ≤ line.length then line.drop indent else line

/-- What a block string means: its lines without the blank ones at both ends and without the
indentation that all but the first share. -/
def blockContent (raw : List Char) : List Char :=
  match splitLines raw with
  | [] => []
  | first :: others =>
      let lines := first :: others.map (removeIndent (commonIndent others))
      let kept := lines.dropWhile isBlankLine
      let trimmed := (kept.reverse.dropWhile isBlankLine).reverse
      List.intercalate ['\n'] trimmed

/-- A string: a block string if one is complete here, otherwise a quoted one. -/
def readString? (text : List Char) : Option (String × List Char) :=
  let block : Option (String × List Char) :=
    match text with
    | '"' :: '"' :: '"' :: rest =>
        (readBlock? rest).map fun (raw, after) => (String.ofList (blockContent raw), after)
    | _ => none
  match block with
  | some found => some found
  | none =>
      match text with
      | '"' :: rest => (readQuoted? rest).map fun (content, after) => (String.ofList content, after)
      | _ => none

def string : Rule String := fun text =>
  (readString? text).map fun (content, rest) => (content, skip rest)

/-- The items that a rule reads one after another. An item that reads nothing ends them. -/
def many {α : Type} (rule : Rule α) : Rule (List α) := fun text =>
  match rule text with
  | some (item, rest) =>
      if rest.length < text.length then
        (many rule rest).map fun (items, after) => (item :: items, after)
      else some ([], text)
  | none => some ([], text)
termination_by text => text.length

def manyOne {α : Type} (rule : Rule α) : Rule (List α) := do
  let first ← rule
  let others ← many rule
  return first :: others

end SchemaEvolution.Grammar
