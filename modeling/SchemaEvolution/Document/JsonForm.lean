import SchemaEvolution.Document
import SchemaEvolution.Json

/-!
The JSON form of schema documents. A value and a type definition bear a member `kind` that tells
their form. Directives, arguments, interfaces and default values may be left out; members that a
record does not know are passed over. Inside a type definition some words have more spellings than
in a reference or value that stands alone.
-/

namespace SchemaEvolution

inductive FormPlace where
  | alone
  | inDefinition
  deriving DecidableEq, Repr

def FormPlace.word? : FormPlace → Json → Option String
  | alone, json => json.word?
  | inDefinition, json => json.looseWord?

def Wrapper.text : Wrapper → String
  | .list => "List"
  | .nonNull => "NonNull"

def Wrapper.ofJson? (place : FormPlace) (json : Json) : Option Wrapper :=
  [Wrapper.list, .nonNull].find? fun layer => place.word? json == some layer.text

def TypeRef.toJson (type : TypeRef) : Json :=
  .object [("name", .string type.name),
    ("wrappers", .ofList (fun layer => .string layer.text) type.wrappers)]

def TypeRef.ofJson? (place : FormPlace) (json : Json) : Option TypeRef := do
  match ← json.record? ["name", "wrappers"] with
  | [some name, some layers] =>
      return .ofWrappers (← name.string?) (← layers.listOf? (Wrapper.ofJson? place))
  | _ => none

def ValueKind.tag : ValueKind → String
  | .null => "Null"
  | .int => "Int"
  | .float => "Float"
  | .string => "String"
  | .boolean => "Boolean"
  | .enum => "Enum"
  | .list => "List"
  | .object => "Object"

def ValueKind.all : List ValueKind :=
  [.null, .int, .float, .string, .boolean, .enum, .list, .object]

def ValueKind.ofTag? (tag : String) : Option ValueKind :=
  all.find? fun kind => kind.tag == tag

/-- The form of value that an array starts with. Inside a type definition its number stands for it
too. -/
def ValueKind.ofArrayTag? (place : FormPlace) : Json → Option ValueKind
  | .string tag => ofTag? tag
  | json => if place = .inDefinition then json.natural?.bind (all[·]?) else none

namespace Value

private def tagged (kind : ValueKind) (content : Json) : Json :=
  .object [("kind", .string kind.tag), ("value", content)]

mutual

def toJson : Value → Json
  | null => .object [("kind", .string ValueKind.null.tag)]
  | int text => tagged .int (.string text)
  | float text => tagged .float (.string text)
  | string content => tagged .string (.string content)
  | boolean value => tagged .boolean (.bool value)
  | enum name => tagged .enum (.string name)
  | list items => tagged .list (.array (itemsToJson items))
  | object fields => tagged .object (.object (fieldsToJson fields))

def itemsToJson : List Value → List Json
  | [] => []
  | item :: rest => item.toJson :: itemsToJson rest

def fieldsToJson : List (String × Value) → List (String × Json)
  | [] => []
  | (name, value) :: rest => (name, value.toJson) :: fieldsToJson rest

end

/-- The form of a value and what it holds, which only a null may leave out. -/
def taggedOfJson? (place : FormPlace) : Json → Option (ValueKind × Json)
  | .object members => do
      let kind ← ValueKind.ofTag? (← place.word? (← members.lookup "kind"))
      match members.lookup "value" with
      | some content => return (kind, content)
      | none => if kind = .null then return (kind, .null) else none
  | .array [tag, content] => do
      return (← ValueKind.ofArrayTag? place tag, content)
  | _ => none

theorem sizeOf_of_taggedOfJson? {place : FormPlace} {json content : Json} {kind : ValueKind}
    (found : taggedOfJson? place json = some (kind, content)) :
    content = .null ∨ sizeOf content < sizeOf json := by
  unfold taggedOfJson? at found
  split at found
  · rename_i members
    simp only [Option.bind_eq_bind, Option.bind_eq_some_iff] at found
    obtain ⟨_, _, _, _, _, _, found⟩ := found
    split at found
    · rename_i held present
      have := Json.sizeOf_lookup_lt present
      cases found
      simp only [Json.object.sizeOf_spec]
      omega
    · split at found
      · cases found; exact Or.inl rfl
      · cases found
  · rename_i tag held
    simp only [Option.bind_eq_bind, Option.bind_eq_some_iff] at found
    obtain ⟨_, _, found⟩ := found
    cases found
    simp only [Json.array.sizeOf_spec, List.cons.sizeOf_spec, List.nil.sizeOf_spec]
    omega
  · cases found

def ofJson? (place : FormPlace) (json : Json) : Option Value :=
  match _found : taggedOfJson? place json with
  | some (.null, .null) => some null
  | some (.int, .string text) => some (int text)
  | some (.float, .string text) => some (float text)
  | some (.string, .string content) => some (string content)
  | some (.boolean, .bool value) => some (boolean value)
  | some (.enum, .string name) => some (enum name)
  | some (.list, .array items) =>
      let values? : Option (List Value) := items.attach.mapM fun ⟨item, _⟩ => ofJson? place item
      values?.map list
  | some (.object, .object members) =>
      let fields? : Option (List (String × Value)) :=
        members.attach.mapM fun ⟨(name, content), _⟩ =>
          (ofJson? place content).map fun value => (name, value)
      fields?.map ofFields
  | _ => none
termination_by sizeOf json
decreasing_by
  · rename_i member
    have := List.sizeOf_lt_of_mem member
    have := sizeOf_of_taggedOfJson? _found
    simp only [reduceCtorEq, false_or, Json.array.sizeOf_spec] at this
    omega
  · rename_i member
    have := List.sizeOf_lt_of_mem member
    have := sizeOf_of_taggedOfJson? _found
    simp only [reduceCtorEq, false_or, Json.object.sizeOf_spec, Prod.mk.sizeOf_spec] at *
    omega

end Value

def Json.listOrEmpty? {α : Type} (decode : Json → Option α) : Option Json → Option (List α)
  | some json => json.listOf? decode
  | none => some []

def Json.mapOf? {α : Type} (decode : Json → Option α) (json : Json) : Option (NameMap α) :=
  match json with
  | .object members =>
      let entries? : Option (List (String × α)) :=
        members.mapM fun (name, content) => (decode content).map fun value => (name, value)
      entries?.map NameMap.ofList
  | _ => none

def Json.ofMap {α : Type} (encode : α → Json) (map : NameMap α) : Json :=
  .object (map.entries.map fun (name, value) => (name, encode value))

def Directive.toJson (directive : Directive) : Json :=
  .object [("name", .string directive.name), ("arguments", .ofMap Value.toJson directive.arguments)]

def Directive.ofJson? (json : Json) : Option Directive := do
  match ← json.record? ["name", "arguments"] with
  | [some name, arguments] =>
      return {
        name := ← name.string?
        arguments := ← match arguments with
          | some held => held.mapOf? (Value.ofJson? .inDefinition)
          | none => some ∅ }
  | _ => none

private def directivesJson (directives : List Directive) : Json :=
  .ofList Directive.toJson directives

def InputValue.toJson (input : InputValue) : Json :=
  .object [("name", .string input.name), ("ty", input.type.toJson),
    ("default_value", .ofOption Value.toJson input.defaultValue?),
    ("directives", directivesJson input.directives)]

def InputValue.ofJson? (json : Json) : Option InputValue := do
  match ← json.record? ["name", "ty", "default_value", "directives"] with
  | [some name, some type, defaultValue, directives] =>
      return {
        name := ← name.string?
        type := ← TypeRef.ofJson? .inDefinition type
        defaultValue? := ← (defaultValue.getD .null).optionOf? (Value.ofJson? .inDefinition)
        directives := ← Json.listOrEmpty? Directive.ofJson? directives }
  | _ => none

def Field.toJson (field : Field) : Json :=
  .object [("name", .string field.name), ("ty", field.type.toJson),
    ("arguments", .ofList InputValue.toJson field.arguments),
    ("directives", directivesJson field.directives)]

def Field.ofJson? (json : Json) : Option Field := do
  match ← json.record? ["name", "ty", "arguments", "directives"] with
  | [some name, some type, arguments, directives] =>
      return {
        name := ← name.string?
        type := ← TypeRef.ofJson? .inDefinition type
        arguments := ← Json.listOrEmpty? InputValue.ofJson? arguments
        directives := ← Json.listOrEmpty? Directive.ofJson? directives }
  | _ => none

def EnumValue.toJson (value : EnumValue) : Json :=
  .object [("name", .string value.name), ("directives", directivesJson value.directives)]

def EnumValue.ofJson? (json : Json) : Option EnumValue := do
  match ← json.record? ["name", "directives"] with
  | [some name, directives] =>
      return {
        name := ← name.string?
        directives := ← Json.listOrEmpty? Directive.ofJson? directives }
  | _ => none

/-- The members of an interface type; the form by itself has no tag. -/
def InterfaceType.members (type : InterfaceType) : List (String × Json) :=
  [("name", .string type.name), ("fields", .ofList Field.toJson type.fields),
    ("directives", directivesJson type.directives)]

namespace TypeDefinition

def toJson (definition : TypeDefinition) : Json :=
  .object (("kind", .string definition.kind.text) ::
    match definition with
    | object type =>
        [("name", .string type.name), ("fields", .ofList Field.toJson type.fields),
          ("interfaces", .strings type.interfaces), ("directives", directivesJson type.directives)]
    | interface type => type.members
    | union type =>
        [("name", .string type.name), ("members", .strings type.members),
          ("directives", directivesJson type.directives)]
    | enum type =>
        [("name", .string type.name), ("values", .ofList EnumValue.toJson type.values),
          ("directives", directivesJson type.directives)]
    | scalar type =>
        [("name", .string type.name), ("directives", directivesJson type.directives)]
    | inputObject type =>
        [("name", .string type.name), ("fields", .ofList InputValue.toJson type.fields),
          ("directives", directivesJson type.directives)])

/-- The tag of a definition and the record behind it. In an array the tag comes first. -/
def taggedOfJson? : Json → Option (TypeKind × Json)
  | .object members => do
      return (← TypeKind.ofText? (← (← members.lookup "kind").string?), .object members)
  | .array (tag :: items) => do
      return (← TypeKind.ofText? (← tag.string?), .array items)
  | _ => none

def ofJson? (json : Json) : Option TypeDefinition := do
  let (kind, record) ← taggedOfJson? json
  match kind with
  | .object =>
      match ← record.record? ["name", "fields", "interfaces", "directives"] with
      | [some name, some fields, interfaces, directives] =>
          return object {
            name := ← name.string?
            fields := ← fields.listOf? Field.ofJson?
            interfaces := ← Json.listOrEmpty? Json.string? interfaces
            directives := ← Json.listOrEmpty? Directive.ofJson? directives }
      | _ => none
  | .interface =>
      match ← record.record? ["name", "fields", "directives"] with
      | [some name, some fields, directives] =>
          return interface {
            name := ← name.string?
            fields := ← fields.listOf? Field.ofJson?
            directives := ← Json.listOrEmpty? Directive.ofJson? directives }
      | _ => none
  | .union =>
      match ← record.record? ["name", "members", "directives"] with
      | [some name, some members, directives] =>
          return union {
            name := ← name.string?
            members := ← members.listOf? Json.string?
            directives := ← Json.listOrEmpty? Directive.ofJson? directives }
      | _ => none
  | .enum =>
      match ← record.record? ["name", "values", "directives"] with
      | [some name, some values, directives] =>
          return enum {
            name := ← name.string?
            values := ← values.listOf? EnumValue.ofJson?
            directives := ← Json.listOrEmpty? Directive.ofJson? directives }
      | _ => none
  | .scalar =>
      match ← record.record? ["name", "directives"] with
      | [some name, directives] =>
          return scalar {
            name := ← name.string?
            directives := ← Json.listOrEmpty? Directive.ofJson? directives }
      | _ => none
  | .inputObject =>
      match ← record.record? ["name", "fields", "directives"] with
      | [some name, some fields, directives] =>
          return inputObject {
            name := ← name.string?
            fields := ← fields.listOf? InputValue.ofJson?
            directives := ← Json.listOrEmpty? Directive.ofJson? directives }
      | _ => none
  | .operation => none

end TypeDefinition

namespace Document

def toJson (document : Document) : Json :=
  .object [("types", .ofMap TypeDefinition.toJson document.types),
    ("query_type", .ofOption .string document.queryType?),
    ("mutation_type", .ofOption .string document.mutationType?),
    ("subscription_type", .ofOption .string document.subscriptionType?)]

/-- Reads the JSON form of a document. A type stays under the key that it is written under. -/
def ofJson? (json : Json) : Option Document := do
  match ← json.record? ["types", "query_type", "mutation_type", "subscription_type"] with
  | [some types, query, mutation, subscription] =>
      let root? (name? : Option Json) := (name?.getD .null).optionOf? Json.string?
      return {
        types := ← types.mapOf? TypeDefinition.ofJson?
        queryType? := ← root? query
        mutationType? := ← root? mutation
        subscriptionType? := ← root? subscription }
  | _ => none

end Document

end SchemaEvolution
