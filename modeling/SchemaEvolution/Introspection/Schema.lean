import SchemaEvolution.Introspection.Payload
import SchemaEvolution.TypeRef

/-!
An introspection result whose parts hang together: every type that has to bear a name bears one, and
every reference ends in a named type within reach. Only the parts that belong to a type's kind are
kept and checked.
-/

namespace SchemaEvolution.Introspection

inductive SchemaFault where
  | missingName
  | listAsType
  | nonNullAsType
  | noInnerType
  | tooNested
  deriving DecidableEq, Repr

def SchemaFault.text : SchemaFault → String
  | missingName => "A type in the introspection output was missing a name"
  | listAsType => "Found a list wrapper type in a position that should contain a named type"
  | nonNullAsType =>
      "Found a non-null wrapper type in a position that should contain a named type"
  | noInnerType => "Found a wrapping type that had no inner ofType"
  | tooNested => "Found a wrapping type that was too nested"

/-- What an input's reference says, before its name is looked at: the name may hold any text. -/
structure NamedInput where
  name : String
  type : TypeRef
  defaultText? : Option String
  deriving DecidableEq, Repr

structure NamedField where
  name : String
  arguments : List NamedInput
  type : TypeRef
  isDeprecated : Bool
  deprecationReason? : Option String
  deriving DecidableEq, Repr

inductive NamedType where
  | scalar (name : String)
  | object (name : String) (fields : List NamedField) (interfaces : List String)
  | interface (name : String) (fields : List NamedField)
  | union (name : String) (members : List String)
  | enum (name : String) (values : List EnumValue)
  | inputObject (name : String) (fields : List NamedInput)
  deriving Repr

structure Schema where
  queryType : String
  mutationType? : Option String
  subscriptionType? : Option String
  types : List NamedType
  deriving Repr

def requireName : Option String → Except SchemaFault String
  | some name => .ok name
  | none => .error .missingName

def requireNames (names? : Option (List (Option String))) : Except SchemaFault (List String) :=
  (names?.getD []).mapM requireName

/-- How many layers a reference may have, and one more. -/
def layerLimit : Nat :=
  8

/-- The reference that the layers describe, `depth` layers inside another one. The count of layers
is looked at before the layer itself. -/
def Reference.check (depth : Nat) : Reference → Except SchemaFault TypeRef
  | mk kind name? ofType? =>
      if depth ≥ layerLimit then .error .tooNested
      else
        match kind, ofType? with
        | .list, some inner => (check (depth + 1) inner).map .list
        | .nonNull, some inner => (check (depth + 1) inner).map .nonNull
        | .list, none | .nonNull, none => .error .noInnerType
        | _, _ => (requireName name?).map .named

def Input.check (input : Input) : Except SchemaFault NamedInput := do
  return {
    name := input.name
    type := ← input.type.check 0
    defaultText? := input.defaultText? }

/-- The arguments come before the type of the field itself. -/
def Field.check (field : Field) : Except SchemaFault NamedField := do
  let arguments ← field.arguments.mapM Input.check
  return {
    name := field.name
    arguments
    type := ← field.type.check 0
    isDeprecated := field.isDeprecated
    deprecationReason? := field.deprecationReason? }

/-- The parts of a type in their order: name, fields, then the names in its lists. -/
def TypeEntry.check (entry : TypeEntry) : Except SchemaFault NamedType :=
  match entry.kind with
  | .scalar => do
      return .scalar (← requireName entry.name?)
  | .object => do
      let name ← requireName entry.name?
      let fields ← (entry.fields?.getD []).mapM Field.check
      return .object name fields (← requireNames entry.interfaces?)
  | .interface => do
      let name ← requireName entry.name?
      let fields ← (entry.fields?.getD []).mapM Field.check
      let _ ← requireNames entry.interfaces?
      let _ ← requireNames entry.possibleTypes?
      return .interface name fields
  | .union => do
      let name ← requireName entry.name?
      return .union name (← requireNames entry.possibleTypes?)
  | .enum => do
      return .enum (← requireName entry.name?) (entry.enumValues?.getD [])
  | .inputObject => do
      let name ← requireName entry.name?
      return .inputObject name (← (entry.inputFields?.getD []).mapM Input.check)
  | .list => .error .listAsType
  | .nonNull => .error .nonNullAsType

/-- The roots come first, then the types, then the directives. -/
def Payload.check (payload : Payload) : Except SchemaFault Schema := do
  let queryType ← requireName payload.queryType
  let mutationType? ← payload.mutationType?.mapM requireName
  let subscriptionType? ← payload.subscriptionType?.mapM requireName
  let types ← payload.types.mapM TypeEntry.check
  let _ ← payload.directiveArguments.mapM fun arguments => arguments.mapM Input.check
  return { queryType, mutationType?, subscriptionType?, types }

end SchemaEvolution.Introspection
