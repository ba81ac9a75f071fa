import SchemaEvolution.Json

/-!
The shape of an introspection result: what a server answers to the query for its schema. All of it
is read, also the parts that mean nothing for a type of some kind. A member has to be there even
where it may be null; the exceptions are the inner type of a reference and a scalar's specification.
-/

namespace SchemaEvolution.Introspection

inductive Kind where
  | scalar
  | object
  | interface
  | union
  | enum
  | inputObject
  | list
  | nonNull
  deriving DecidableEq, Repr

namespace Kind

def all : List Kind :=
  [scalar, object, interface, union, enum, inputObject, list, nonNull]

def text : Kind → String
  | scalar => "SCALAR"
  | object => "OBJECT"
  | interface => "INTERFACE"
  | union => "UNION"
  | enum => "ENUM"
  | inputObject => "INPUT_OBJECT"
  | list => "LIST"
  | nonNull => "NON_NULL"

def ofJson? (json : Json) : Option Kind :=
  all.find? fun kind => json.string? == some kind.text

end Kind

inductive Reference where
  | mk (kind : Kind) (name? : Option String) (ofType? : Option Reference)
  deriving Repr

structure Input where
  name : String
  type : Reference
  defaultText? : Option String
  deriving Repr

structure Field where
  name : String
  arguments : List Input
  type : Reference
  isDeprecated : Bool
  deprecationReason? : Option String
  deriving Repr

structure EnumValue where
  name : String
  isDeprecated : Bool
  deprecationReason? : Option String
  deriving Repr

structure TypeEntry where
  kind : Kind
  name? : Option String
  fields? : Option (List Field)
  inputFields? : Option (List Input)
  interfaces? : Option (List (Option String))
  enumValues? : Option (List EnumValue)
  possibleTypes? : Option (List (Option String))
  deriving Repr

/-- The whole answer. Of directives only the arguments count. -/
structure Payload where
  queryType : Option String
  mutationType? : Option (Option String)
  subscriptionType? : Option (Option String)
  types : List TypeEntry
  directiveArguments : List (List Input)
  deriving Repr

def textOrNull? (json : Json) : Option (Option String) :=
  json.optionOf? Json.string?

def named? (json : Json) : Option (Option String) := do
  textOrNull? (← json.member? "name")

/-- The member may be left out, but if it is there it is a text or null. -/
def optionalText? (json : Json) (name : String) : Option Unit :=
  match json.member? name with
  | some held => (textOrNull? held).map fun _ => ()
  | none => some ()

def Reference.ofJson? (json : Json) : Option Reference :=
  match json with
  | .object members => do
      let kind ← Kind.ofJson? (← members.lookup "kind")
      let name? ← textOrNull? (← members.lookup "name")
      match _found : members.lookup "ofType" with
      | none => return .mk kind name? none
      | some .null => return .mk kind name? none
      | some inner => return .mk kind name? (some (← ofJson? inner))
  | _ => none
termination_by sizeOf json
decreasing_by
  have := Json.sizeOf_lookup_lt _found
  simp only [Json.object.sizeOf_spec]
  omega

def Input.ofJson? (json : Json) : Option Input := do
  let _ ← textOrNull? (← json.member? "description")
  return {
    name := ← (← json.member? "name").string?
    type := ← Reference.ofJson? (← json.member? "type")
    defaultText? := ← textOrNull? (← json.member? "defaultValue") }

def Field.ofJson? (json : Json) : Option Field := do
  let _ ← textOrNull? (← json.member? "description")
  return {
    name := ← (← json.member? "name").string?
    arguments := ← (← json.member? "args").listOf? Input.ofJson?
    type := ← Reference.ofJson? (← json.member? "type")
    isDeprecated := ← (← json.member? "isDeprecated").bool?
    deprecationReason? := ← textOrNull? (← json.member? "deprecationReason") }

def EnumValue.ofJson? (json : Json) : Option EnumValue := do
  let _ ← textOrNull? (← json.member? "description")
  return {
    name := ← (← json.member? "name").string?
    isDeprecated := ← (← json.member? "isDeprecated").bool?
    deprecationReason? := ← textOrNull? (← json.member? "deprecationReason") }

def listOrNull? {α : Type} (decode : Json → Option α) (json : Json) (name : String) :
    Option (Option (List α)) := do
  (← json.member? name).optionOf? fun held => held.listOf? decode

def TypeEntry.ofJson? (json : Json) : Option TypeEntry := do
  let _ ← textOrNull? (← json.member? "description")
  optionalText? json "specifiedByURL"
  return {
    kind := ← Kind.ofJson? (← json.member? "kind")
    name? := ← textOrNull? (← json.member? "name")
    fields? := ← listOrNull? Field.ofJson? json "fields"
    inputFields? := ← listOrNull? Input.ofJson? json "inputFields"
    interfaces? := ← listOrNull? named? json "interfaces"
    enumValues? := ← listOrNull? EnumValue.ofJson? json "enumValues"
    possibleTypes? := ← listOrNull? named? json "possibleTypes" }

def directiveLocations : List String :=
  ["QUERY", "MUTATION", "SUBSCRIPTION", "FIELD", "FRAGMENT_DEFINITION", "FRAGMENT_SPREAD",
    "INLINE_FRAGMENT", "VARIABLE_DEFINITION", "SCHEMA", "SCALAR", "OBJECT", "FIELD_DEFINITION",
    "ARGUMENT_DEFINITION", "INTERFACE", "UNION", "ENUM", "ENUM_VALUE", "INPUT_OBJECT",
    "INPUT_FIELD_DEFINITION"]

def directiveLocation? (json : Json) : Option String :=
  directiveLocations.find? fun location => json.string? == some location

def directiveArguments? (json : Json) : Option (List Input) := do
  let _ ← (← json.member? "name").string?
  let _ ← textOrNull? (← json.member? "description")
  let _ ← (← json.member? "locations").listOf? directiveLocation?
  (← json.member? "args").listOf? Input.ofJson?

def Payload.ofJson? (schema : Json) : Option Payload := do
  return {
    queryType := ← named? (← schema.member? "queryType")
    mutationType? := ← (← schema.member? "mutationType").optionOf? named?
    subscriptionType? := ← (← schema.member? "subscriptionType").optionOf? named?
    types := ← (← schema.member? "types").listOf? TypeEntry.ofJson?
    directiveArguments := ← (← schema.member? "directives").listOf? directiveArguments? }

end SchemaEvolution.Introspection
