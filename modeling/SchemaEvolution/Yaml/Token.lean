import SchemaEvolution.Yaml
import SchemaEvolution.Yaml.Scalar
import SchemaEvolution.Yaml.Tag

/-!
Tokens of a YAML document. Indentation becomes tokens too: where the entries of a collection in
block style start to stand further right, the collection starts, and where they no longer do it
ends. A key without a question mark is known by the colon behind it, so its token is put in front of
it later.
-/

namespace SchemaEvolution.Yaml

inductive Token where
  | version (major minor : Nat)
  | handle (name meaning : String)
  | documentStart
  | documentEnd
  | sequenceStart
  | mappingStart
  | blockEnd
  | openBracket
  | closeBracket
  | openBrace
  | closeBrace
  | comma
  | dash
  | key
  | value
  | anchor (name : String)
  | aliasOf (name : String)
  | tag (word : TagWord)
  | scalar (style : ScalarStyle) (content : String)
  deriving DecidableEq, Repr

structure PossibleKey where
  tokenCount : Nat
  offset : Nat
  line : Nat
  column : Nat
  isRequired : Bool

structure TokenReader where
  cursor : Cursor
  /-- The columns of the entries of the open collections in block style, the innermost first. -/
  indents : List Nat
  /-- The key that may have started in the innermost collection. -/
  key? : Option PossibleKey
  outerKeys : List (Option PossibleKey)
  keyAllowed : Bool
  tokens : Array Token

namespace TokenReader

abbrev Reading :=
  StateT TokenReader Option

def start (text : List Char) : TokenReader where
  cursor := ⟨text, 0, 0, 0⟩
  indents := []
  key? := none
  outerKeys := []
  keyAllowed := true
  tokens := #[]

def inFlow (reader : TokenReader) : Bool :=
  !reader.outerKeys.isEmpty

def indent (reader : TokenReader) : Int :=
  match reader.indents with
  | [] => -1
  | column :: _ => column

def allowKey (keyAllowed : Bool) : Reading Unit :=
  modify fun reader => { reader with keyAllowed }

def add (token : Token) (rest : List Char) : Reading Unit :=
  modify fun reader =>
    { reader with
      tokens := reader.tokens.push token
      cursor := reader.cursor.advanceTo rest }

def passGap : Reading Unit :=
  modify fun reader =>
    let (rest, keyAllowed) :=
      afterGap reader.inFlow false reader.keyAllowed reader.cursor.column reader.cursor.rest
    { reader with cursor := reader.cursor.advanceTo rest, keyAllowed }

/-- A key is on one line and has at most 1024 bytes. -/
def isWithin (cursor : Cursor) (key : PossibleKey) : Bool :=
  key.line == cursor.line && cursor.offset ≤ key.offset + 1024

def forgetFarKeys : Reading Unit := do
  let reader ← get
  let isKept := isWithin reader.cursor
  guard ((reader.key? :: reader.outerKeys).all fun key? =>
    key?.all fun key => isKept key || !key.isRequired)
  set { reader with
    key? := reader.key?.filter isKept
    outerKeys := reader.outerKeys.map (Option.filter isKept) }

def forgetKey : Reading Unit := do
  let reader ← get
  guard (!reader.key?.any PossibleKey.isRequired)
  set { reader with key? := none }

/-- Remembers this place if a key may start here. Where the entries of a collection start, a key is
required. -/
def rememberKey : Reading Unit := do
  if (← get).keyAllowed then
    forgetKey
    modify fun reader =>
      let cursor := reader.cursor
      { reader with
        key? := some {
          tokenCount := reader.tokens.size
          offset := cursor.offset
          line := cursor.line
          column := cursor.column
          isRequired := !reader.inFlow && reader.indent == (cursor.column : Int) } }

/-- Starts a collection in block style before the token `place`, if its column is further right than
that of the entries around. -/
def openBlock (first : Token) (column place : Nat) : Reading Unit :=
  modify fun reader =>
    if !reader.inFlow && reader.indent < (column : Int) then
      { reader with
        indents := column :: reader.indents
        tokens := reader.tokens.insertIdxIfInBounds place first }
    else reader

def closeBlocks (column : Int) : Reading Unit :=
  modify fun reader =>
    if reader.inFlow then reader
    else
      let ended := reader.indents.takeWhile fun (indent : Nat) => column < (indent : Int)
      { reader with
        indents := reader.indents.drop ended.length
        tokens := reader.tokens ++ Array.replicate ended.length Token.blockEnd }

/-- An entry starts here with a mark of its own, which outside of flow collections has to stand
where a key may start. -/
def startEntry (first : Token) : Reading Unit := do
  let reader ← get
  if !reader.inFlow then
    guard reader.keyAllowed
    openBlock first reader.cursor.column reader.tokens.size

def readNumber? (text : List Char) : Option (Nat × List Char) := do
  let digits := text.takeWhile Char.isDigit
  guard (!digits.isEmpty && digits.length ≤ 9)
  return (digits.foldl (fun value c => value * 10 + (c.toNat - '0'.toNat)) 0,
    text.drop digits.length)

def readDirective? (text : List Char) : Option (Token × List Char) := do
  let name := text.takeWhile isNameChar
  let text := text.drop name.length
  guard (endsWord text)
  match String.ofList name with
  | "YAML" =>
      let (major, text) ← readNumber? (text.dropWhile isLineBlank)
      guard (text.head? == some '.')
      let (minor, text) ← readNumber? (text.drop 1)
      return (.version major minor, ← nextLine? text)
  | "TAG" =>
      let ((name, meaning), text) ← readHandle? text
      return (.handle name meaning, ← nextLine? text)
  | _ => none

def closeDocument : Reading Unit := do
  closeBlocks (-1)
  forgetKey
  allowKey false

def readAnchorName? (text : List Char) : Option (String × List Char) := do
  let name := text.takeWhile isNameChar
  let rest := text.drop name.length
  guard (!name.isEmpty && (endsWord rest ||
    rest.head?.any ['?', ':', ',', ']', '\x7d', '%', '@', '\x60'].contains))
  return (String.ofList name, rest)

/-- A token that may be or start a key, and behind which on its line no key starts. -/
def addKeyLike (token : Token) (rest : List Char) : Reading Unit := do
  rememberKey
  allowKey false
  add token rest

def openFlow (token : Token) (rest : List Char) : Reading Unit := do
  rememberKey
  modify fun reader =>
    { reader with key? := none, outerKeys := reader.key? :: reader.outerKeys, keyAllowed := true }
  add token rest

/-- A closing mark ends the innermost flow collection, if there is one. -/
def closeFlow (token : Token) (rest : List Char) : Reading Unit := do
  forgetKey
  modify fun reader =>
    match reader.outerKeys with
    | key? :: outerKeys => { reader with key?, outerKeys, keyAllowed := false }
    | [] => { reader with keyAllowed := false }
  add token rest

def addDash (rest : List Char) : Reading Unit := do
  startEntry .sequenceStart
  forgetKey
  allowKey true
  add .dash rest

def addKey (rest : List Char) : Reading Unit := do
  startEntry .mappingStart
  forgetKey
  allowKey !(← get).inFlow
  add .key rest

/-- A colon in front of a value. What stands before it is a key if one may have started there. -/
def addValue (rest : List Char) : Reading Unit := do
  let reader ← get
  match reader.key? with
  | some key =>
      set { reader with
        key? := none
        keyAllowed := false
        tokens := reader.tokens.insertIdxIfInBounds key.tokenCount .key }
      openBlock .mappingStart key.column key.tokenCount
  | none =>
      startEntry .mappingStart
      allowKey !reader.inFlow
  add .value rest

def addBlockScalar (isFolded : Bool) (rest : List Char) : Reading Unit := do
  forgetKey
  allowKey true
  let (content, rest) ← readBlock? isFolded (← get).indent rest
  add (.scalar (if isFolded then .folded else .literal) (String.ofList content)) rest

def addPlain : Reading Unit := do
  rememberKey
  allowKey false
  let reader ← get
  let least := (reader.indent + 1).toNat
  let (content, found) ← readPlain? reader.inFlow least .empty reader.cursor.rest
  add (.scalar .plain (String.ofList content)) found.rest
  if found.onNewLine then allowKey true

def readToken (c : Char) (rest : List Char) : Reading Unit := do
  let reader ← get
  let text := c :: rest
  let isLineStart := reader.cursor.column == 0
  let inFlow := reader.inFlow
  if isLineStart && c == '%' then
    closeDocument
    let (token, rest) ← readDirective? rest
    add token rest
  else if isLineStart && startsWithAnyMarker text then
    closeDocument
    add (if c = '-' then .documentStart else .documentEnd) (text.drop 3)
  else if c = '[' then openFlow .openBracket rest
  else if c = '\x7b' then openFlow .openBrace rest
  else if c = ']' then closeFlow .closeBracket rest
  else if c = '\x7d' then closeFlow .closeBrace rest
  else if c = ',' then
    forgetKey
    allowKey true
    add .comma rest
  else if c == '-' && endsWord rest then addDash rest
  else if c == '?' && (inFlow || endsWord rest) then addKey rest
  else if c == ':' && (inFlow || endsWord rest) then addValue rest
  else if c = '*' then
    let (name, rest) ← readAnchorName? rest
    addKeyLike (.aliasOf name) rest
  else if c = '&' then
    let (name, rest) ← readAnchorName? rest
    addKeyLike (.anchor name) rest
  else if c = '!' then
    let (word, rest) ← readTag? text
    guard (endsWord rest || (inFlow && rest.head? == some ','))
    addKeyLike (.tag word) rest
  else if c == '|' && !inFlow then addBlockScalar false rest
  else if c == '>' && !inFlow then addBlockScalar true rest
  else if c = '\'' then
    let (content, rest) ← readSingleQuoted? .empty rest
    addKeyLike (.scalar .quoted (String.ofList content)) rest
  else if c = '"' then
    let (content, rest) ← readDoubleQuoted? .empty rest
    addKeyLike (.scalar .quoted (String.ofList content)) rest
  else do
    guard (startsPlain inFlow text)
    addPlain

/-- Reads all tokens. Each of them takes a character at least, so the length of the text bounds
their number. -/
def readAll : Nat → Reading Unit
  | 0 => failure
  | bound + 1 => do
      passGap
      forgetFarKeys
      let cursor := (← get).cursor
      closeBlocks cursor.column
      match cursor.rest with
      | [] =>
          closeBlocks (-1)
          forgetKey
      | c :: rest =>
          readToken c rest
          readAll bound

end TokenReader

def Token.ofText? (text : String) : Option (List Token) := do
  let chars := text.toList
  guard (chars.all isPrintable)
  let chars := withNewlines chars
  let (_, reader) ← (TokenReader.readAll (chars.length + 1)).run (.start chars)
  return reader.tokens.toList

end SchemaEvolution.Yaml
