import SchemaEvolution.Text.Hex
import SchemaEvolution.Yaml.Cursor

/-!
The scalars of YAML: without quotes, in single or double quotes, and as blocks of lines. Scalars of
several lines are folded, which joins two lines with a blank and keeps empty lines. Every reader
gives the content of a scalar and the text after it.
-/

namespace SchemaEvolution.Yaml

inductive WordGap where
  | blanks (held : List Char)
  /-- A line end with so many empty lines behind it, up to a column. -/
  | lines (emptyLines column : Nat)
  /-- The same where the line end itself was escaped. -/
  | escaped (emptyLines column : Nat)

namespace WordGap

def empty : WordGap :=
  blanks []

def isEmpty : WordGap → Bool
  | blanks [] => true
  | _ => false

def column? : WordGap → Option Nat
  | blanks _ => none
  | lines _ column => some column
  | escaped _ column => some column

def addBlank (c : Char) : WordGap → WordGap
  | blanks held => blanks (c :: held)
  | lines emptyLines column => lines emptyLines (column + 1)
  | escaped emptyLines column => escaped emptyLines (column + 1)

def addLineEnd : WordGap → WordGap
  | blanks _ => lines 0 0
  | lines emptyLines _ => lines (emptyLines + 1) 0
  | escaped emptyLines _ => escaped (emptyLines + 1) 0

def content : WordGap → List Char
  | blanks held => held.reverse
  | lines 0 _ => [' ']
  | lines emptyLines _ => List.replicate emptyLines '\n'
  | escaped emptyLines _ => List.replicate emptyLines '\n'

end WordGap

def withContent {α : Type} (chars : List Char) : List Char × α → List Char × α
  | (content, after) => (chars ++ content, after)

structure PlainEnd where
  rest : List Char
  onNewLine : Bool

/-- A word ends before a colon that ends a word, and in flow collections before what parts items. -/
def endsPlain (inFlow : Bool) (c : Char) (rest : List Char) : Bool :=
  (c == ':' && endsWord rest) || (inFlow && isFlowIndicator c)

/-- The rest of a scalar without quotes, behind a gap. Outside of flow collections its lines have to
reach the column `least`, up to which no line may be indented with tabs. -/
def readPlain? (inFlow : Bool) (least : Nat) (gap : WordGap) :
    List Char → Option (List Char × PlainEnd)
  | [] => some ([], ⟨[], gap.column?.isSome⟩)
  | c :: rest =>
      if isLineBlank c then
        if c = '\t' && gap.column?.any (· < least) then none
        else readPlain? inFlow least (gap.addBlank c) rest
      else if c = '\n' then readPlain? inFlow least gap.addLineEnd rest
      else
        let endsBehindGap := !gap.isEmpty &&
          (c == '#' || gap.column?.any (fun column => (!inFlow && column < least) ||
            (column == 0 && startsWithAnyMarker (c :: rest))))
        if endsBehindGap then some ([], ⟨c :: rest, gap.column?.isSome⟩)
        else if inFlow && c == ':' && rest.head?.any (fun d => isFlowIndicator d || d == '?') then none
        else if endsPlain inFlow c rest then some ([], ⟨c :: rest, gap.column?.isSome⟩)
        else (readPlain? inFlow least .empty rest).map (withContent (gap.content ++ [c]))

def isIndicator (c : Char) : Bool :=
  isFlowIndicator c || ['-', '?', ':', '#', '&', '*', '!', '|', '>', '\'', '"', '%', '@',
    '\x60'].contains c

/-- A dash starts a scalar if no blank follows it, and outside of flow collections so do a question
mark and a colon that do not end a word. -/
def startsPlain (inFlow : Bool) : List Char → Bool
  | [] => false
  | c :: rest =>
      !(isLineBlank c || c == '\n' || isIndicator c) ||
        (c == '-' && !rest.head?.any isLineBlank) ||
        (!inFlow && (c == '?' || c == ':') && !endsWord rest)

def readSingleQuoted? (gap : WordGap) : List Char → Option (List Char × List Char)
  | [] => none
  | '\'' :: '\'' :: rest => (readSingleQuoted? .empty rest).map (withContent (gap.content ++ ['\'']))
  | '\'' :: rest => some (gap.content, rest)
  | '\n' :: rest =>
      if startsWithAnyMarker rest then none else readSingleQuoted? gap.addLineEnd rest
  | c :: rest =>
      if isLineBlank c then readSingleQuoted? (gap.addBlank c) rest
      else (readSingleQuoted? .empty rest).map (withContent (gap.content ++ [c]))

def escaped? : Char → Option Char
  | '0' => some '\x00'
  | 'a' => some '\x07'
  | 'b' => some '\x08'
  | 't' => some '\t'
  | '\t' => some '\t'
  | 'n' => some '\n'
  | 'v' => some '\x0b'
  | 'f' => some '\x0c'
  | 'r' => some '\r'
  | 'e' => some '\x1b'
  | ' ' => some ' '
  | '"' => some '"'
  | '/' => some '/'
  | '\\' => some '\\'
  | 'N' => some '\u0085'
  | '_' => some '\u00a0'
  | 'L' => some '\u2028'
  | 'P' => some '\u2029'
  | _ => none

def codeCharacter? (digits : List Char) : Option Char := do
  let values ← digits.mapM Text.hexValue?
  let code := values.foldl (fun code value => code * 16 + value) 0
  if code.isValidChar then return Char.ofNat code else none

def readDoubleQuoted? (gap : WordGap) : List Char → Option (List Char × List Char)
  | [] => none
  | '"' :: rest => some (gap.content, rest)
  | '\\' :: '\n' :: rest =>
      if startsWithAnyMarker rest then none
      else (readDoubleQuoted? (.escaped 0 0) rest).map (withContent gap.content)
  | '\\' :: 'x' :: a :: b :: rest => do
      let c ← codeCharacter? [a, b]
      (readDoubleQuoted? .empty rest).map (withContent (gap.content ++ [c]))
  | '\\' :: 'u' :: a :: b :: c :: d :: rest => do
      let c ← codeCharacter? [a, b, c, d]
      (readDoubleQuoted? .empty rest).map (withContent (gap.content ++ [c]))
  | '\\' :: 'U' :: a :: b :: c :: d :: e :: f :: g :: h :: rest => do
      let c ← codeCharacter? [a, b, c, d, e, f, g, h]
      (readDoubleQuoted? .empty rest).map (withContent (gap.content ++ [c]))
  | '\\' :: letter :: rest => do
      let c ← escaped? letter
      (readDoubleQuoted? .empty rest).map (withContent (gap.content ++ [c]))
  | '\n' :: rest =>
      if startsWithAnyMarker rest then none else readDoubleQuoted? gap.addLineEnd rest
  | c :: rest =>
      if c = '\\' then none
      else if isLineBlank c then readDoubleQuoted? (gap.addBlank c) rest
      else (readDoubleQuoted? .empty rest).map (withContent (gap.content ++ [c]))

/-- Which of the line ends at the end of a block belong to its content: none, the first or all. -/
inductive Chomping where
  | strip
  | clip
  | keep
  deriving DecidableEq, Repr

structure BlockHeader where
  isFolded : Bool
  chomping : Chomping
  width? : Option Nat

def chomping? : Char → Option Chomping
  | '-' => some .strip
  | '+' => some .keep
  | _ => none

def indentDigit? (c : Char) : Option Nat :=
  if '1' ≤ c && c ≤ '9' then some (c.toNat - '0'.toNat) else none

/-- A sign for the end and a digit for the indentation may follow the mark of a block in either
order. The text after them is that of the next line. -/
def readBlockHeader? (isFolded : Bool) (text : List Char) : Option (BlockHeader × List Char) := do
  let first? := text.head?.bind chomping?
  let afterFirst := if first?.isSome then text.drop 1 else text
  let width? := afterFirst.head?.bind indentDigit?
  let afterWidth := if width?.isSome then afterFirst.drop 1 else afterFirst
  let last? := if first?.isNone && width?.isSome then afterWidth.head?.bind chomping? else none
  let afterMarks := if last?.isSome then afterWidth.drop 1 else afterWidth
  return (⟨isFolded, (first?.or last?).getD .clip, width?⟩, ← nextLine? afterMarks)

/-- The empty lines at the start of a block, the column of the first line that is not empty, and the
greatest column that a line's blanks reach. A known width bounds the blanks that are passed. -/
structure BlockStart where
  emptyLines : Nat
  column : Nat
  widest : Nat
  rest : List Char

def readBlockStart? (width? : Option Nat) (emptyLines column widest : Nat) :
    List Char → Option BlockStart
  | [] => some ⟨emptyLines, column, widest, []⟩
  | c :: rest =>
      let inIndent := width?.all (column < ·)
      if c = '\n' then readBlockStart? width? (emptyLines + 1) 0 widest rest
      else if c = ' ' && inIndent then
        readBlockStart? width? emptyLines (column + 1) (max widest (column + 1)) rest
      else if c = '\t' && inIndent then none
      else some ⟨emptyLines, column, widest, c :: rest⟩

def chompedEnd (chomping : Chomping) (emptyLines : Nat) : List Char :=
  match chomping with
  | .strip => []
  | .clip => ['\n']
  | .keep => List.replicate (emptyLines + 1) '\n'

/-- What joins two lines of a block with so many empty lines between them. Folding leaves lines
alone that start with a blank. -/
def blockJoint (isFolded : Bool) (emptyLines : Nat) : List Char :=
  if isFolded then WordGap.content (.lines emptyLines 0) else List.replicate (emptyLines + 1) '\n'

mutual

def readBlockLine? (header : BlockHeader) (width : Nat) (afterBlank : Bool) :
    List Char → Option (List Char × List Char)
  | [] => some ([], [])
  | c :: rest =>
      if c = '\n' then readBlockGap? header width afterBlank 0 0 rest
      else (readBlockLine? header width afterBlank rest).map (withContent [c])

def readBlockGap? (header : BlockHeader) (width : Nat) (afterBlank : Bool) (emptyLines column : Nat) :
    List Char → Option (List Char × List Char)
  | [] => some (chompedEnd header.chomping emptyLines, [])
  | c :: rest =>
      if c = '\n' then readBlockGap? header width afterBlank (emptyLines + 1) 0 rest
      else if column < width then
        if c = ' ' then readBlockGap? header width afterBlank emptyLines (column + 1) rest
        else if c = '\t' then none
        else some (chompedEnd header.chomping emptyLines, c :: rest)
      else
        let joint :=
          blockJoint (header.isFolded && !afterBlank && !isLineBlank c) emptyLines
        (readBlockLine? header width (isLineBlank c) rest).map (withContent (joint ++ [c]))

end

/-- A block of lines behind its mark, inside a collection whose entries stand at the column `indent`
or, if that is negative, outside of all. Without a width in its header a block is indented as much
as its first line, or more if an empty line before that is. -/
def readBlock? (isFolded : Bool) (indent : Int) (text : List Char) :
    Option (List Char × List Char) := do
  let (header, lines) ← readBlockHeader? isFolded text
  let known? := header.width?.map fun width => indent.toNat + width
  let start ← readBlockStart? known? 0 0 0 lines
  let width := known?.getD (max start.widest (max (indent + 1).toNat 1))
  let emptyLines := List.replicate start.emptyLines '\n'
  match start.rest with
  | c :: rest =>
      if start.column = width then
        (readBlockLine? header width (isLineBlank c) rest).map (withContent (emptyLines ++ [c]))
      else return (if header.chomping = .keep then emptyLines else [], c :: rest)
  | [] => return (if header.chomping = .keep then emptyLines else [], [])

end SchemaEvolution.Yaml
