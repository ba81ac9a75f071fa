import SchemaEvolution.Document
import SchemaEvolution.Introspection.Schema
import SchemaEvolution.Json.Parse
import SchemaEvolution.TypeRef.Parse
import SchemaEvolution.Value.Parse

/-!
Documents from introspection results. The text of each reference and of each default value is read,
deprecation becomes a directive, and every interface that an object implements has to be an
interface of the same document.
-/

namespace SchemaEvolution

inductive IntrospectionError where
  | malformed
  | missingSchema
  | inconsistent (fault : Introspection.SchemaFault)
  | typeRef (context : String) (source : TypeRefError)
  | defaultValue (context : String) (source : ValueError)
  | unknownInterface (typeName interface : String)
  deriving DecidableEq, Repr

/-- The message of an error, where it is this library's to word. -/
def IntrospectionError.message? : IntrospectionError → Option String
  | malformed => none
  | missingSchema => some "introspection payload has no '__schema' object"
  | inconsistent fault => some s!"invalid introspection schema: {fault.text}"
  | typeRef context source => some s!"malformed type reference in '{context}': {source.message}"
  | defaultValue context source =>
      source.message?.map fun message => s!"invalid default value for '{context}': {message}"
  | unknownInterface typeName interface =>
      some s!"type '{typeName}' implements unknown interface '{interface}'"

namespace Introspection

def deprecationMarks (isDeprecated : Bool) (reason? : Option String) : List Directive :=
  if isDeprecated then
    match reason? with
    | some reason => [⟨"deprecated", NameMap.ofList [("reason", .string reason)]⟩]
    | none => [⟨"deprecated", ∅⟩]
  else []

/-- Reads a reference from its text, so a name that holds marks or brackets turns into layers. -/
def readTypeRef (context : String) (type : TypeRef) : Except IntrospectionError TypeRef :=
  (TypeRef.parse type.text).mapError (IntrospectionError.typeRef context)

def readDefault (context : String) (text? : Option String) :
    Except IntrospectionError (Option Value) :=
  match text? with
  | none => .ok none
  | some text =>
      match Value.parse text with
      | .ok value => .ok (some value)
      | .error source => .error (.defaultValue context source)

/-- The default value comes before the reference. -/
def NamedInput.toInputValue (parent : String) (input : NamedInput) :
    Except IntrospectionError InputValue := do
  let context := parent ++ "." ++ input.name
  let defaultValue? ← readDefault context input.defaultText?
  let type ← readTypeRef context input.type
  return { name := input.name, type, defaultValue?, directives := [] }

/-- The reference comes before the arguments. -/
def NamedField.toField (parent : String) (field : NamedField) :
    Except IntrospectionError SchemaEvolution.Field := do
  let context := parent ++ "." ++ field.name
  let type ← readTypeRef context field.type
  let arguments ← field.arguments.mapM (NamedInput.toInputValue context)
  return {
    name := field.name
    type
    arguments
    directives := deprecationMarks field.isDeprecated field.deprecationReason? }

def EnumValue.toEnumValue (value : EnumValue) : SchemaEvolution.EnumValue :=
  { name := value.name, directives := deprecationMarks value.isDeprecated value.deprecationReason? }

def NamedType.toDefinition : NamedType → Except IntrospectionError TypeDefinition
  | scalar name => .ok (.scalar { name, directives := [] })
  | object name fields interfaces => do
      let fields ← fields.mapM (NamedField.toField name)
      return .object { name, fields, interfaces, directives := [] }
  | interface name fields => do
      let fields ← fields.mapM (NamedField.toField name)
      return .interface { name, fields, directives := [] }
  | union name members => .ok (.union { name, members, directives := [] })
  | enum name values => .ok (.enum { name, values := values.map EnumValue.toEnumValue, directives := [] })
  | inputObject name fields => do
      let fields ← fields.mapM (NamedInput.toInputValue name)
      return .inputObject { name, fields, directives := [] }

/-- The first interface of an object type that the document does not define as one. -/
def unknownInterface? (document : Document) : TypeDefinition → Option IntrospectionError
  | .object type =>
      (type.interfaces.find? fun name => (document.interface? name).isNone).map
        (IntrospectionError.unknownInterface type.name)
  | _ => none

/-- The document of a schema. Of types with one name the last counts. -/
def Schema.toDocument (schema : Schema) : Except IntrospectionError Document := do
  let definitions ← schema.types.mapM NamedType.toDefinition
  let document : Document :=
    { types := NameMap.index TypeDefinition.name definitions
      queryType? := some schema.queryType
      mutationType? := schema.mutationType?
      subscriptionType? := schema.subscriptionType? }
  match document.types.values.findSome? (unknownInterface? document) with
  | some error => throw error
  | none => return document

end Introspection

namespace Document

/-- The object that holds the schema: the member `data` of the payload if there is one, otherwise
the payload itself. -/
def introspectionRoot (payload : Json) : Json :=
  (payload.member? "data").getD payload

def ofIntrospection (payload : Json) : Except IntrospectionError Document :=
  match (introspectionRoot payload).present? "__schema" with
  | none => .error .missingSchema
  | some schema =>
      match Introspection.Payload.ofJson? schema with
      | none => .error .malformed
      | some payload =>
          match payload.check with
          | .error fault => .error (.inconsistent fault)
          | .ok schema => schema.toDocument

def ofIntrospectionText (text : String) : Except IntrospectionError Document :=
  match Json.parse? text with
  | some payload => ofIntrospection payload
  | none => .error .malformed

end Document

end SchemaEvolution
