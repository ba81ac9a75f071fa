import SchemaEvolution.Grammar.Constant

/-!
The rules for schema documents: schema, type and directive definitions and their extensions. Of a
document only its outline is kept: which definitions are input types, and of those the default
values of their fields.
-/

namespace SchemaEvolution.Grammar

structure InputFieldOutline where
  defaultValue? : Option Value
  hasDirectives : Bool
  deriving DecidableEq, Repr

/-- A definition: an input type with its fields, or one of another kind. -/
inductive Outline where
  | input (fields : List InputFieldOutline)
  | other
  deriving DecidableEq, Repr

/-- The text after a reference to a type: a name or a bracketed reference, either with one non-null
mark. No blank may stand inside. -/
def afterTypeRef? (text : List Char) : Option (List Char) :=
  let afterMark (rest : List Char) := (afterWord? ['!'] rest).getD rest
  match text with
  | '[' :: inside =>
      match afterTypeRef? inside with
      | some rest => (afterWord? [']'] rest).map afterMark
      | none => none
  | _ => (readName? text).map fun (_, rest) => afterMark rest
termination_by text.length

def typeRef : Rule Unit := fun text =>
  (afterTypeRef? text).map fun rest => ((), skip rest)

def description : Rule Unit := do
  let _ ← optional string

def directive : Rule Unit := do
  word "@"
  let _ ← name
  let _ ← optional do
    word "("
    let _ ← manyOne do
      let _ ← name
      word ":"
      constant
    word ")"

def inputValue : Rule InputFieldOutline := do
  description
  let _ ← name
  word ":"
  typeRef
  let defaultValue? ← optional do
    word "="
    constant
  let directives ← many directive
  return { defaultValue?, hasDirectives := !directives.isEmpty }

def arguments : Rule Unit := do
  word "("
  let _ ← manyOne inputValue
  word ")"

def field : Rule Unit := do
  description
  let _ ← name
  let _ ← optional arguments
  word ":"
  typeRef
  let _ ← many directive

def fields : Rule Unit := do
  word "\x7b"
  let _ ← manyOne field
  word "\x7d"

def separatedNames (separator : String) (item : Rule Unit) : Rule Unit := do
  let _ ← optional (word separator)
  item
  let _ ← many do
    word separator
    item

def anyName : Rule Unit := do
  let _ ← name

def implements : Rule Unit := do
  word "implements"
  separatedNames "&" anyName

def members : Rule Unit := do
  word "="
  separatedNames "|" anyName

def enumValues : Rule Unit := do
  word "\x7b"
  let _ ← manyOne do
    description
    let _ ← enumName
    many directive
  word "\x7d"

def inputFields : Rule (List InputFieldOutline) := do
  word "\x7b"
  let found ← manyOne inputValue
  word "\x7d"
  return found

def newType (keyword : String) : Rule Unit := do
  description
  word keyword
  anyName

def extendedType (keyword : String) : Rule Unit := do
  word "extend"
  word keyword
  anyName

/-- What an extension adds: a body, perhaps with directives, or directives alone. -/
def addition {α : Type} (body : Rule α) : Rule (Option α) :=
  (do
    let _ ← many directive
    let found ← body
    return some found)
  <|> (do
    let _ ← manyOne directive
    return none)

def plainType {α : Type} (keyword : String) (body : Rule α) : Rule (Option α) :=
  (do
    newType keyword
    let _ ← many directive
    optional body)
  <|> (do
    extendedType keyword
    addition body)

def scalarType : Rule Outline :=
  (do
    newType "scalar"
    let _ ← many directive
    return .other)
  <|> (do
    extendedType "scalar"
    let _ ← manyOne directive
    return .other)

def objectType : Rule Outline :=
  (do
    newType "type"
    let _ ← optional implements
    let _ ← many directive
    let _ ← optional fields
    return .other)
  <|> (do
    extendedType "type"
    (do
      let _ ← optional implements
      let _ ← addition fields)
      <|> implements
    return .other)

def interfaceType : Rule Outline :=
  (do
    newType "interface"
    let _ ← optional implements
    let _ ← many directive
    let _ ← optional fields
    return .other)
  <|> (do
    extendedType "interface"
    let _ ← optional implements
    let _ ← addition fields
    return .other)

def unionType : Rule Outline := do
  let _ ← plainType "union" members
  return .other

def enumType : Rule Outline := do
  let _ ← plainType "enum" enumValues
  return .other

def inputType : Rule Outline := do
  let found ← plainType "input" inputFields
  return .input (found.getD [])

def rootOperation : Rule String := do
  let keyword ← (do word "query"; return "query")
    <|> (do word "mutation"; return "mutation")
    <|> (do word "subscription"; return "subscription")
  word ":"
  anyName
  return keyword

/-- The root operations of a schema definition, none of them twice. -/
def rootOperations : Rule (List String) := do
  word "\x7b"
  let keywords ← manyOne rootOperation
  word "\x7d"
  guard keywords.Nodup
  return keywords

/-- A schema definition, which needs a query root, or an extension, which does not. -/
def schema : Rule Outline :=
  (do
    word "schema"
    let _ ← many directive
    let keywords ← rootOperations
    guard ("query" ∈ keywords)
    return .other)
  <|> (do
    word "extend"
    word "schema"
    let _ ← addition rootOperations
    return .other)

/-- The places that a directive definition may name. A name that another one starts with comes
after it. -/
def directiveLocations : List String :=
  ["QUERY", "MUTATION", "SUBSCRIPTION", "FIELD_DEFINITION", "FIELD", "FRAGMENT_DEFINITION",
    "FRAGMENT_SPREAD", "INLINE_FRAGMENT", "VARIABLE_DEFINITION", "SCHEMA", "SCALAR", "OBJECT",
    "ARGUMENT_DEFINITION", "INTERFACE", "UNION", "ENUM_VALUE", "ENUM", "INPUT_OBJECT",
    "INPUT_FIELD_DEFINITION"]

def directiveLocation : Rule Unit :=
  directiveLocations.foldr (fun location others => word location <|> others) failure

def directiveDefinition : Rule Outline := do
  description
  word "directive"
  word "@"
  anyName
  let _ ← optional arguments
  let _ ← optional (word "repeatable")
  word "on"
  separatedNames "|" directiveLocation
  return .other

def definition : Rule Outline :=
  schema <|> scalarType <|> objectType <|> interfaceType <|> unionType <|> enumType
    <|> inputType <|> directiveDefinition

def outline? (document : List Char) : Option (List Outline) :=
  match manyOne definition (skip document) with
  | some (found, []) => some found
  | _ => none

end SchemaEvolution.Grammar
