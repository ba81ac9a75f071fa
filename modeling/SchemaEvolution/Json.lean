import SchemaEvolution.NameMap
import SchemaEvolution.Text.Hex

/-!
JSON values and their text, on one line or indented by two blanks a level.
-/

namespace SchemaEvolution

/-- A JSON value. A number is held as text, so none is too long or too exact. -/
inductive Json where
  | null
  | bool (value : Bool)
  | number (text : String)
  | string (content : String)
  | array (items : List Json)
  | object (members : List (String × Json))
  deriving Repr, Inhabited

namespace Json

def ofNat (value : Nat) : Json :=
  number (toString value)

def ofOption {α : Type} (encode : α → Json) : Option α → Json
  | some value => encode value
  | none => null

def ofList {α : Type} (encode : α → Json) (items : List α) : Json :=
  array (items.map encode)

def strings (items : List String) : Json :=
  ofList string items

def member? (json : Json) (name : String) : Option Json :=
  match json with
  | object members => members.lookup name
  | _ => none

/-- The member of that name, where a null counts as an absent one. -/
def present? (json : Json) (name : String) : Option Json :=
  match json.member? name with
  | some null => none
  | found => found

def string? : Json → Option String
  | string content => some content
  | _ => none

/-- A word from a closed list: a string, or an object whose only member has that name and is null.
-/
def word? : Json → Option String
  | string word => some word
  | object [(word, null)] => some word
  | _ => none

def looseWord? : Json → Option String
  | object [(word, object [])] => some word
  | json => json.word?

def natural? : Json → Option Nat
  | number text => text.toNat?
  | _ => none

def bool? : Json → Option Bool
  | bool value => some value
  | _ => none

def array? : Json → Option (List Json)
  | array items => some items
  | _ => none

def listOf? {α : Type} (decode : Json → Option α) (json : Json) : Option (List α) :=
  json.array?.bind fun items => items.mapM decode

/-- The members of the given names, in their order. A record may be written as an object, or as the
array of its members in order, of which the last ones may be left out. -/
def record? (names : List String) : Json → Option (List (Option Json))
  | object members => some (names.map fun name => members.lookup name)
  | array items =>
      if items.length ≤ names.length then
        some (items.map some ++ List.replicate (names.length - items.length) none)
      else none
  | _ => none

/-- A null is none; anything else has to decode. -/
def optionOf? {α : Type} (decode : Json → Option α) : Json → Option (Option α)
  | null => some none
  | json => (decode json).map some

theorem sizeOf_lookup_lt {name : String} {members : List (String × Json)} {value : Json}
    (found : members.lookup name = some value) : sizeOf value < sizeOf members := by
  induction members with
  | nil => simp at found
  | cons head rest ih =>
      obtain ⟨other, held⟩ := head
      rw [List.lookup_cons] at found
      split at found
      · cases found
        simp only [List.cons.sizeOf_spec, Prod.mk.sizeOf_spec]
        omega
      · have := ih found
        simp only [List.cons.sizeOf_spec]
        omega

/-- What stands for a character between quotes. Only the quote, the backslash and the characters
below the blank are escaped. -/
def escape (c : Char) : List Char :=
  if c = '"' then ['\\', '"']
  else if c = '\\' then ['\\', '\\']
  else if c = '\x08' then ['\\', 'b']
  else if c = '\x0c' then ['\\', 'f']
  else if c = '\n' then ['\\', 'n']
  else if c = '\r' then ['\\', 'r']
  else if c = '\t' then ['\\', 't']
  else if c.toNat < 0x20 then '\\' :: 'u' :: Text.hexDigits Text.lowerHexDigit 4 c.toNat
  else [c]

def quote (content : String) : List Char :=
  '"' :: (content.toList.flatMap escape ++ ['"'])

def newLine (level : Nat) : List Char :=
  '\n' :: List.replicate (2 * level) ' '

mutual

def compactChars : Json → List Char
  | null => ['n', 'u', 'l', 'l']
  | bool true => ['t', 'r', 'u', 'e']
  | bool false => ['f', 'a', 'l', 's', 'e']
  | number text => text.toList
  | string content => quote content
  | array items => '[' :: (compactItems items ++ [']'])
  | object members => '\x7b' :: (compactMembers members ++ ['\x7d'])

def compactItems : List Json → List Char
  | [] => []
  | [item] => item.compactChars
  | item :: next :: rest => item.compactChars ++ ',' :: compactItems (next :: rest)

def compactMembers : List (String × Json) → List Char
  | [] => []
  | [(name, value)] => quote name ++ ':' :: value.compactChars
  | (name, value) :: next :: rest =>
      quote name ++ ':' :: (value.compactChars ++ ',' :: compactMembers (next :: rest))

end

mutual

def prettyChars (level : Nat) : Json → List Char
  | null => ['n', 'u', 'l', 'l']
  | bool true => ['t', 'r', 'u', 'e']
  | bool false => ['f', 'a', 'l', 's', 'e']
  | number text => text.toList
  | string content => quote content
  | array [] => ['[', ']']
  | array (item :: rest) =>
      '[' :: (newLine (level + 1) ++ prettyItems (level + 1) (item :: rest)
        ++ newLine level ++ [']'])
  | object [] => ['\x7b', '\x7d']
  | object (member :: rest) =>
      '\x7b' :: (newLine (level + 1) ++ prettyMembers (level + 1) (member :: rest)
        ++ newLine level ++ ['\x7d'])

def prettyItems (level : Nat) : List Json → List Char
  | [] => []
  | [item] => prettyChars level item
  | item :: next :: rest =>
      prettyChars level item ++ ',' :: (newLine level ++ prettyItems level (next :: rest))

def prettyMembers (level : Nat) : List (String × Json) → List Char
  | [] => []
  | [(name, value)] => quote name ++ ':' :: ' ' :: prettyChars level value
  | (name, value) :: next :: rest =>
      quote name ++ ':' :: ' ' :: (prettyChars level value
        ++ ',' :: (newLine level ++ prettyMembers level (next :: rest)))

end

def compact (json : Json) : String :=
  String.ofList json.compactChars

def pretty (json : Json) : String :=
  String.ofList (json.prettyChars 0)

end Json

end SchemaEvolution
