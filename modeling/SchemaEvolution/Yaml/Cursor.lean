/-!
Positions in the text of a YAML document, the characters that its words end at, and the gaps between
its tokens.
-/

namespace SchemaEvolution.Yaml

def isPrintable (c : Char) : Bool :=
  let code := c.toNat
  c == '\t' || c == '\n' || c == '\r' || (0x20 ≤ code && code ≤ 0x7e) || code == 0x85 ||
    (0xa0 ≤ code && code ≤ 0xd7ff) || (0xe000 ≤ code && code ≤ 0xfffd) || 0x10000 ≤ code

def withNewlines : List Char → List Char
  | [] => []
  | '\r' :: '\n' :: rest => '\n' :: withNewlines rest
  | c :: rest =>
      let isLineEnd := c == '\r' || c == '\u0085' || c == '\u2028' || c == '\u2029'
      (if isLineEnd then '\n' else c) :: withNewlines rest

/-- The mark that tells the order of a text's bytes, and means nothing at the start of a line. -/
def byteOrderMark : Char :=
  '\ufeff'

def isLineBlank (c : Char) : Bool :=
  c == ' ' || c == '\t'

/-- Words end before a blank, a line end and the end of the text. -/
def endsWord : List Char → Bool
  | [] => true
  | c :: _ => isLineBlank c || c == '\n'

def isNameChar (c : Char) : Bool :=
  c.isAlphanum || c == '_' || c == '-'

def isFlowIndicator (c : Char) : Bool :=
  c == ',' || c == '[' || c == ']' || c == '\x7b' || c == '\x7d'

def startsWithMarker (c : Char) (text : List Char) : Bool :=
  text.take 3 == [c, c, c] && endsWord (text.drop 3)

def startsWithAnyMarker (text : List Char) : Bool :=
  startsWithMarker '-' text || startsWithMarker '.' text

/-- The text that is left, with the bytes, the lines and the characters of its line that stand
before it. -/
structure Cursor where
  rest : List Char
  offset : Nat
  line : Nat
  column : Nat

def Cursor.next (cursor : Cursor) : Cursor :=
  match cursor.rest with
  | [] => cursor
  | '\n' :: rest => ⟨rest, cursor.offset + 1, cursor.line + 1, 0⟩
  | c :: rest => ⟨rest, cursor.offset + c.utf8Size, cursor.line, cursor.column + 1⟩

def Cursor.advance (cursor : Cursor) : Nat → Cursor
  | 0 => cursor
  | count + 1 => cursor.next.advance count

def Cursor.advanceTo (cursor : Cursor) (rest : List Char) : Cursor :=
  cursor.advance (cursor.rest.length - rest.length)

/-- The text after a gap of blanks, comments and line ends, and whether a key may start there. A tab
is a blank in flow collections and where no key may start; outside of flow collections a key may
start on every new line. -/
def afterGap (inFlow commented keyAllowed : Bool) (column : Nat) :
    List Char → List Char × Bool
  | [] => ([], keyAllowed)
  | c :: rest =>
      if c = '\n' then afterGap inFlow false (keyAllowed || !inFlow) 0 rest
      else if commented || c == ' ' || (c == '\t' && (inFlow || !keyAllowed)) ||
          (c == byteOrderMark && column == 0) then
        afterGap inFlow commented keyAllowed (column + 1) rest
      else if c = '#' then afterGap inFlow true keyAllowed (column + 1) rest
      else (c :: rest, keyAllowed)

def nextLine? (text : List Char) : Option (List Char) :=
  match text.dropWhile isLineBlank with
  | [] => some []
  | '\n' :: rest => some rest
  | '#' :: rest => some ((rest.dropWhile (· != '\n')).drop 1)
  | _ => none

end SchemaEvolution.Yaml
