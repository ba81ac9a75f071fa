import SchemaEvolution.NameMap
import SchemaEvolution.Text.Blank
import SchemaEvolution.Text.Hex

/-!
Constant input values: what default values and directive arguments hold. Numbers are held as text,
so two spellings of a number that are not written alike differ. The text of a value is in this
module; `SchemaEvolution.Value.Parse` reads it back.
-/

namespace SchemaEvolution

inductive Value where
  | null
  | int (text : String)
  | float (text : String)
  | string (content : String)
  | boolean (value : Bool)
  | enum (name : String)
  | list (items : List Value)
  /-- The fields stand in name order; `Value.ofFields` puts them there. -/
  | object (fields : List (String × Value))
  deriving Repr, Inhabited

/-- The form of a value. A default of another form means another type. -/
inductive ValueKind where
  | null
  | int
  | float
  | string
  | boolean
  | enum
  | list
  | object
  deriving DecidableEq, Repr

def ValueKind.text : ValueKind → String
  | .null => "NullValue"
  | .int => "IntValue"
  | .float => "FloatValue"
  | .string => "StringValue"
  | .boolean => "BooleanValue"
  | .enum => "EnumValue"
  | .list => "ArrayValue"
  | .object => "ObjectValue"

namespace Value

mutual

private def decideEq : (left right : Value) → Decidable (left = right)
  | null, null => isTrue rfl
  | int left, int right | float left, float right | string left, string right
  | enum left, enum right =>
      if same : left = right then isTrue (by rw [same]) else isFalse (by simpa using same)
  | boolean left, boolean right =>
      if same : left = right then isTrue (by rw [same]) else isFalse (by simpa using same)
  | list left, list right =>
      match decideItemsEq left right with
      | isTrue same => isTrue (by rw [same])
      | isFalse different => isFalse (by simpa using different)
  | object left, object right =>
      match decideFieldsEq left right with
      | isTrue same => isTrue (by rw [same])
      | isFalse different => isFalse (by simpa using different)
  | null, int _ | null, float _ | null, string _ | null, boolean _ | null, enum _ | null, list _
  | null, object _ | int _, null | int _, float _ | int _, string _ | int _, boolean _
  | int _, enum _ | int _, list _ | int _, object _ | float _, null | float _, int _
  | float _, string _ | float _, boolean _ | float _, enum _ | float _, list _
  | float _, object _ | string _, null | string _, int _ | string _, float _
  | string _, boolean _ | string _, enum _ | string _, list _ | string _, object _
  | boolean _, null | boolean _, int _ | boolean _, float _ | boolean _, string _
  | boolean _, enum _ | boolean _, list _ | boolean _, object _ | enum _, null | enum _, int _
  | enum _, float _ | enum _, string _ | enum _, boolean _ | enum _, list _ | enum _, object _
  | list _, null | list _, int _ | list _, float _ | list _, string _ | list _, boolean _
  | list _, enum _ | list _, object _ | object _, null | object _, int _ | object _, float _
  | object _, string _ | object _, boolean _ | object _, enum _ | object _, list _ =>
      isFalse (by simp)

private def decideItemsEq : (left right : List Value) → Decidable (left = right)
  | [], [] => isTrue rfl
  | [], _ :: _ | _ :: _, [] => isFalse (by simp)
  | left :: lefts, right :: rights =>
      match decideEq left right, decideItemsEq lefts rights with
      | isTrue same, isTrue sames => isTrue (by rw [same, sames])
      | isFalse different, _ => isFalse (by simp [different])
      | _, isFalse different => isFalse (by simp [different])

private def decideFieldsEq : (left right : List (String × Value)) → Decidable (left = right)
  | [], [] => isTrue rfl
  | [], _ :: _ | _ :: _, [] => isFalse (by simp)
  | (leftName, left) :: lefts, (rightName, right) :: rights =>
      if name : leftName = rightName then
        match decideEq left right, decideFieldsEq lefts rights with
        | isTrue same, isTrue sames => isTrue (by rw [name, same, sames])
        | isFalse different, _ => isFalse (by simp [different])
        | _, isFalse different => isFalse (by simp [different])
      else isFalse (by simp [name])

end

instance : DecidableEq Value :=
  decideEq

/-- The object of the fields, in name order; the last field of a name counts. -/
def ofFields (fields : List (String × Value)) : Value :=
  object (sortEntries fields)

def kind : Value → ValueKind
  | null => .null
  | int _ => .int
  | float _ => .float
  | string _ => .string
  | boolean _ => .boolean
  | enum _ => .enum
  | list _ => .list
  | object _ => .object

/-- What stands for a character between quotes: five short escapes, four hexadecimal digits for
the other control characters, and otherwise the character itself. -/
def escape (c : Char) : List Char :=
  if c = '"' then ['\\', '"']
  else if c = '\\' then ['\\', '\\']
  else if c = '\n' then ['\\', 'n']
  else if c = '\r' then ['\\', 'r']
  else if c = '\t' then ['\\', 't']
  else if Text.isControl c then '\\' :: 'u' :: Text.hexDigits Text.upperHexDigit 4 c.toNat
  else [c]

def quote (content : List Char) : List Char :=
  '"' :: (content.flatMap escape ++ ['"'])

mutual

def chars : Value → List Char
  | null => ['n', 'u', 'l', 'l']
  | int text => text.toList
  | float text => text.toList
  | string content => quote content.toList
  | boolean true => ['t', 'r', 'u', 'e']
  | boolean false => ['f', 'a', 'l', 's', 'e']
  | enum name => name.toList
  | list items => '[' :: (itemsChars items ++ [']'])
  | object fields => '\x7b' :: (fieldsChars fields ++ ['\x7d'])

def itemsChars : List Value → List Char
  | [] => []
  | [item] => item.chars
  | item :: next :: rest => item.chars ++ ',' :: ' ' :: itemsChars (next :: rest)

def fieldsChars : List (String × Value) → List Char
  | [] => []
  | [(name, value)] => name.toList ++ ':' :: ' ' :: value.chars
  | (name, value) :: next :: rest =>
      name.toList ++ ':' :: ' ' :: (value.chars ++ ',' :: ' ' :: fieldsChars (next :: rest))

end

def text (value : Value) : String :=
  String.ofList value.chars

end Value

end SchemaEvolution
