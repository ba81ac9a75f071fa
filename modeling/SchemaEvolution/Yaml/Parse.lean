import SchemaEvolution.Yaml.Token

/-!
The node of a YAML document, built from the document's tokens. Every step takes a token or goes one
level down, so a count that the number of tokens bounds serves as fuel.
-/

namespace SchemaEvolution.Yaml

structure NodeReader where
  tokens : List Token
  anchors : List (String × Nat)
  handles : TagHandles

namespace NodeReader

abbrev Reading :=
  StateT NodeReader Option

def next? : Reading (Option Token) := do
  return (← get).tokens.head?

def pass : Reading Unit :=
  modify fun reader => { reader with tokens := reader.tokens.drop 1 }

def passIf (token : Token) : Reading Bool := do
  if (← next?) = some token then
    pass
    return true
  else return false

def expect (token : Token) : Reading Unit := do
  guard (← passIf token)

def isBefore (tokens : List Token) : Reading Bool := do
  return (← next?).any tokens.contains

/-- Gives an anchor the count of the names that stand for an anchor already, its own included. -/
def anchorProperty? : Reading (Option Nat) := do
  match ← next? with
  | some (.anchor name) =>
      pass
      let reader ← get
      let number := reader.anchors.length
      set { reader with
        anchors := (name, number) :: reader.anchors.filter fun (other, _) => other ≠ name }
      return some number
  | _ => return none

def tagProperty? : Reading (Option String) := do
  match ← next? with
  | some (.tag word) =>
      pass
      let tag ← word.resolve? (← get).handles
      return some tag
  | _ => return none

def properties : Reading (Option Nat × Option String) := do
  let first? ← anchorProperty?
  let tag? ← tagProperty?
  let anchor? ← if first?.isSome then pure first? else anchorProperty?
  return (anchor?, tag?)

/-- The alias of the node that bore the name last. -/
def aliased (name : String) : Reading Yaml := do
  return aliasOf (← (← get).anchors.lookup name)

def unlessBefore (ends : List Token) (read : Reading Yaml) : Reading Yaml := do
  if ← isBefore ends then return absent else read

/-- Another item follows in a flow collection: behind a comma, unless it is the first one. A comma
may stand in front of the closing token. -/
def hasItem (isFirst : Bool) (close : Token) : Reading Bool := do
  if ← passIf close then return false
  else do
    if !isFirst then expect .comma
    return !(← passIf close)

mutual

/-- A node. The items of a sequence that is the value of a key need no indentation of their own;
only there `unindented` is set. -/
def node (unindented : Bool) : Nat → Reading Yaml
  | 0 => failure
  | fuel + 1 => do
      match ← next? with
      | some (.aliasOf name) =>
          pass
          aliased name
      | _ =>
          let (anchor?, tag?) ← properties
          match ← next? with
          | some (.scalar style content) =>
              pass
              return scalar anchor? style (tag?.filter (· ≠ "!")) content
          | some .openBracket =>
              pass
              return sequence anchor? (← flowItems true fuel)
          | some .openBrace =>
              pass
              return mapping anchor? (← flowEntries true fuel)
          | some .sequenceStart =>
              pass
              return sequence anchor? (← blockItems fuel)
          | some .mappingStart =>
              pass
              return mapping anchor? (← blockEntries fuel)
          | next? =>
              if unindented && next? == some .dash then
                return sequence anchor? (← unindentedItems fuel)
              else do
                guard (anchor?.isSome || tag?.isSome)
                return scalar anchor? .plain tag? ""

def blockItems : Nat → Reading (List Yaml)
  | 0 => failure
  | fuel + 1 => do
      if ← passIf .blockEnd then return []
      else do
        expect .dash
        let item ← unlessBefore [.dash, .blockEnd] (node false fuel)
        return item :: (← blockItems fuel)

def unindentedItems : Nat → Reading (List Yaml)
  | 0 => failure
  | fuel + 1 => do
      if ← passIf .dash then do
        let item ← unlessBefore [.dash, .key, .value, .blockEnd] (node false fuel)
        return item :: (← unindentedItems fuel)
      else return []

def blockEntries : Nat → Reading (List (Yaml × Yaml))
  | 0 => failure
  | fuel + 1 => do
      if ← passIf .blockEnd then return []
      else do
        expect .key
        let key ← unlessBefore [.key, .value, .blockEnd] (node true fuel)
        let value ←
          if ← passIf .value then unlessBefore [.key, .value, .blockEnd] (node true fuel)
          else pure absent
        return (key, value) :: (← blockEntries fuel)

/-- The items of a sequence up to its closing bracket. A key makes an item a mapping of one entry;
if nothing is written between it and the token after it, that token is passed over. -/
def flowItems (isFirst : Bool) : Nat → Reading (List Yaml)
  | 0 => failure
  | fuel + 1 => do
      if ← hasItem isFirst .closeBracket then do
        if ← passIf .key then do
          let key ←
            if ← isBefore [.value, .comma, .closeBracket] then do
              pass
              pure absent
            else node false fuel
          let value ←
            if ← passIf .value then unlessBefore [.comma, .closeBracket] (node false fuel)
            else pure absent
          return mapping none [(key, value)] :: (← flowItems false fuel)
        else do
          let item ← node false fuel
          return item :: (← flowItems false fuel)
      else return []

/-- The entries of a mapping up to its closing brace. A node that is no key is one without a value.
-/
def flowEntries (isFirst : Bool) : Nat → Reading (List (Yaml × Yaml))
  | 0 => failure
  | fuel + 1 => do
      if ← hasItem isFirst .closeBrace then do
        if ← passIf .key then do
          let key ← unlessBefore [.value, .comma, .closeBrace] (node false fuel)
          let value ←
            if ← passIf .value then unlessBefore [.comma, .closeBrace] (node false fuel)
            else pure absent
          return (key, value) :: (← flowEntries false fuel)
        else do
          let key ← node false fuel
          return (key, absent) :: (← flowEntries false fuel)
      else return []

end

/-- Takes a directive into account, if the next token is one. A version has to be 1.1 or 1.2;
neither it nor a handle may be declared twice. -/
def directives (hasVersion : Bool) : Nat → Reading Unit
  | 0 => failure
  | fuel + 1 => do
      match ← next? with
      | some (.version major minor) =>
          guard (!hasVersion && major == 1 && (minor == 1 || minor == 2))
          pass
          directives true fuel
      | some (.handle name meaning) =>
          let reader ← get
          guard (reader.handles.lookup name).isNone
          set { reader with handles := (name, meaning) :: reader.handles }
          pass
          directives hasVersion fuel
      | _ => return ()

def isBetweenDocuments : Option Token → Bool
  | none => true
  | some (.version _ _) => true
  | some (.handle _ _) => true
  | some .documentStart => true
  | some .documentEnd => true
  | _ => false

def document (fuel : Nat) : Reading Yaml := do
  let first? ← next?
  let isMarked := isBetweenDocuments first? && first? != some .documentEnd
  if first?.isNone then return absent
  else do
    if isMarked then do
      directives false fuel
      expect .documentStart
    modify fun reader => { reader with handles := reader.handles ++ TagHandles.usual }
    let root ←
      if isMarked && isBetweenDocuments (← next?) then pure absent else node false fuel
    guard ((← get).tokens.all (· = .documentEnd))
    return root

end NodeReader

def parse? (text : String) : Option Yaml := do
  let tokens ← Token.ofText? text
  (NodeReader.document (3 * tokens.length + 3)).run' ⟨tokens, [], []⟩

end SchemaEvolution.Yaml
