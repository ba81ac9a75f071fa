import SchemaEvolution.Grammar.Token

/-!
The rule for constant values. Its alternatives are tried in order: number, string, boolean, null,
enum name, list, object. The words of booleans and null need no boundary behind them, so
`[nullable]` is a list of two items.
-/

namespace SchemaEvolution.Grammar

def readScalar? (text : List Char) : Option (Value × List Char) :=
  match readNumber? text with
  | some found => some found
  | none =>
  match readString? text with
  | some (content, rest) => some (.string content, rest)
  | none =>
  match afterWord? ['t', 'r', 'u', 'e'] text with
  | some rest => some (.boolean true, rest)
  | none =>
  match afterWord? ['f', 'a', 'l', 's', 'e'] text with
  | some rest => some (.boolean false, rest)
  | none =>
  match afterWord? ['n', 'u', 'l', 'l'] text with
  | some rest => some (.null, rest)
  | none =>
  match readName? text with
  | some (name, rest) => some (.enum name, rest)
  | none => none

def readFieldName? (text : List Char) : Option (String × List Char) := do
  let (name, afterName) ← readName? text
  let rest ← afterWord? [':'] (skip afterName)
  return (name, skip rest)

mutual

def readValue? (text : List Char) : Option (Value × List Char) :=
  match readScalar? text with
  | some (value, rest) => some (value, skip rest)
  | none =>
      match text with
      | '[' :: inside =>
          match readItems (skip inside) with
          | (items, ']' :: rest) => some (.list items, skip rest)
          | _ => none
      | '\x7b' :: inside =>
          match readFields (skip inside) with
          | (fields, '\x7d' :: rest) => some (Value.ofFields fields, skip rest)
          | _ => none
      | _ => none
termination_by 2 * text.length
decreasing_by
  all_goals
    have := length_skip_le inside
    simp only [List.length_cons]
    omega

def readItems (text : List Char) : List Value × List Char :=
  match readValue? text with
  | some (value, rest) =>
      if rest.length < text.length then
        let (values, after) := readItems rest
        (value :: values, after)
      else ([], text)
  | none => ([], text)
termination_by 2 * text.length + 1

def readFields (text : List Char) : List (String × Value) × List Char :=
  match readFieldName? text with
  | some (name, rest) =>
      if rest.length < text.length then
        match readValue? rest with
        | some (value, afterValue) =>
            if afterValue.length < text.length then
              let (fields, after) := readFields afterValue
              ((name, value) :: fields, after)
            else ([], text)
        | none => ([], text)
      else ([], text)
  | none => ([], text)
termination_by 2 * text.length + 1

end

def constant : Rule Value :=
  readValue?

/-- A name that is an enum value: it does not start with the word of a boolean or of null. -/
def enumName : Rule String := fun text =>
  match readScalar? text with
  | some (.enum found, rest) => some (found, skip rest)
  | _ => none

end SchemaEvolution.Grammar
