import SchemaEvolution.Document
import SchemaEvolution.Json
import SchemaEvolution.SortedSet

/-!
The canonical form of a document. It holds what a document means and nothing of how it was written
down: lists of members become sets, references and values become their text, and the root types are
the ones that count, whether they were named explicitly or not. Its JSON text leaves out what is
absent or empty.
-/

namespace SchemaEvolution

/-- Sets are compared element by element in their order; a set that begins another one is smaller.
-/
instance {α : Type} [Ord α] : Ord (SortedSet α) :=
  ⟨compareOn SortedSet.elements⟩

instance {α : Type} [Ord α] [Std.TransOrd α] : Std.TransOrd (SortedSet α) :=
  inferInstanceAs (Std.TransCmp (compareOn SortedSet.elements))

namespace Canonical

/-! Each form is ordered by its members, one after another as they are listed. -/

structure Argument where
  name : String
  text : String

instance : Ord Argument :=
  ⟨compareLex (compareOn Argument.name) (compareOn Argument.text)⟩

instance : Std.TransOrd Argument :=
  inferInstanceAs (Std.TransCmp (compareLex (compareOn Argument.name) (compareOn Argument.text)))

structure Directive where
  name : String
  arguments : List Argument

instance : Ord Directive :=
  ⟨compareLex (compareOn Directive.name) (compareOn Directive.arguments)⟩

instance : Std.TransOrd Directive :=
  inferInstanceAs
    (Std.TransCmp (compareLex (compareOn Directive.name) (compareOn Directive.arguments)))

structure InputValue where
  name : String
  type : String
  defaultText? : Option String
  directives : SortedSet Directive

/-- What is equal in the members before is decided by the member after. -/
def InputValue.order : InputValue → InputValue → Ordering :=
  compareLex (compareOn name)
    (compareLex (compareOn type) (compareLex (compareOn defaultText?) (compareOn directives)))

instance : Ord InputValue :=
  ⟨InputValue.order⟩

instance : Std.TransOrd InputValue :=
  inferInstanceAs (Std.TransCmp
    (compareLex (compareOn InputValue.name)
      (compareLex (compareOn InputValue.type)
        (compareLex (compareOn InputValue.defaultText?) (compareOn InputValue.directives)))))

structure Field where
  name : String
  type : String
  arguments : SortedSet InputValue
  directives : SortedSet Directive

def Field.order : Field → Field → Ordering :=
  compareLex (compareOn name)
    (compareLex (compareOn type) (compareLex (compareOn arguments) (compareOn directives)))

instance : Ord Field :=
  ⟨Field.order⟩

instance : Std.TransOrd Field :=
  inferInstanceAs (Std.TransCmp
    (compareLex (compareOn Field.name)
      (compareLex (compareOn Field.type)
        (compareLex (compareOn Field.arguments) (compareOn Field.directives)))))

structure EnumValue where
  name : String
  directives : SortedSet Directive

instance : Ord EnumValue :=
  ⟨compareLex (compareOn EnumValue.name) (compareOn EnumValue.directives)⟩

instance : Std.TransOrd EnumValue :=
  inferInstanceAs
    (Std.TransCmp (compareLex (compareOn EnumValue.name) (compareOn EnumValue.directives)))

/-- A type of any kind. The parts that its kind does not have are empty. -/
structure TypeForm where
  name : String
  kind : String
  fields : SortedSet Field
  interfaces : SortedSet String
  members : SortedSet String
  values : SortedSet EnumValue
  inputFields : SortedSet InputValue
  directives : SortedSet Directive

def TypeForm.order : TypeForm → TypeForm → Ordering :=
  compareLex (compareOn name)
    (compareLex (compareOn kind)
      (compareLex (compareOn fields)
        (compareLex (compareOn interfaces)
          (compareLex (compareOn members)
            (compareLex (compareOn values)
              (compareLex (compareOn inputFields) (compareOn directives)))))))

instance : Ord TypeForm :=
  ⟨TypeForm.order⟩

instance : Std.TransOrd TypeForm :=
  inferInstanceAs (Std.TransCmp
    (compareLex (compareOn TypeForm.name)
      (compareLex (compareOn TypeForm.kind)
        (compareLex (compareOn TypeForm.fields)
          (compareLex (compareOn TypeForm.interfaces)
            (compareLex (compareOn TypeForm.members)
              (compareLex (compareOn TypeForm.values)
                (compareLex (compareOn TypeForm.inputFields) (compareOn TypeForm.directives)))))))))

structure DocumentForm where
  queryType? : Option String
  mutationType? : Option String
  subscriptionType? : Option String
  types : SortedSet TypeForm

end Canonical

def Directive.canonical (directive : Directive) : Canonical.Directive :=
  { name := directive.name
    arguments := directive.arguments.entries.map fun (name, value) => ⟨name, value.text⟩ }

def canonicalDirectives (directives : List Directive) : SortedSet Canonical.Directive :=
  .ofList (directives.map Directive.canonical)

def InputValue.canonical (input : InputValue) : Canonical.InputValue :=
  { name := input.name
    type := input.type.text
    defaultText? := input.defaultValue?.map Value.text
    directives := canonicalDirectives input.directives }

def Field.canonical (field : Field) : Canonical.Field :=
  { name := field.name
    type := field.type.text
    arguments := .ofList (field.arguments.map InputValue.canonical)
    directives := canonicalDirectives field.directives }

def EnumValue.canonical (value : EnumValue) : Canonical.EnumValue :=
  { name := value.name, directives := canonicalDirectives value.directives }

def TypeDefinition.canonical (definition : TypeDefinition) : Canonical.TypeForm :=
  let bare : Canonical.TypeForm :=
    { name := definition.name
      kind := definition.kind.text
      fields := ∅
      interfaces := ∅
      members := ∅
      values := ∅
      inputFields := ∅
      directives := canonicalDirectives definition.directives }
  match definition with
  | object type =>
      { bare with
        fields := .ofList (type.fields.map Field.canonical)
        interfaces := .ofList type.interfaces }
  | interface type => { bare with fields := .ofList (type.fields.map Field.canonical) }
  | union type => { bare with members := .ofList type.members }
  | enum type => { bare with values := .ofList (type.values.map EnumValue.canonical) }
  | scalar _ => bare
  | inputObject type => { bare with inputFields := .ofList (type.fields.map InputValue.canonical) }

def Document.canonical (document : Document) : Canonical.DocumentForm :=
  { queryType? := document.root? .query
    mutationType? := document.root? .mutation
    subscriptionType? := document.root? .subscription
    types := .ofList (document.types.values.map TypeDefinition.canonical) }

namespace Canonical

def setMember {α : Type} [Ord α] (name : String) (encode : α → Json) (set : SortedSet α) :
    List (String × Json) :=
  if set.isEmpty then [] else [(name, .ofList encode set.elements)]

def textMember (name : String) (text? : Option String) : List (String × Json) :=
  match text? with
  | some text => [(name, .string text)]
  | none => []

def Directive.toJson (directive : Directive) : Json :=
  .object (("name", .string directive.name) ::
    if directive.arguments.isEmpty then []
    else [("arguments", .object (directive.arguments.map fun argument =>
      (argument.name, .string argument.text)))])

def InputValue.toJson (input : InputValue) : Json :=
  .object ([("name", .string input.name), ("type", .string input.type)]
    ++ textMember "default_value" input.defaultText?
    ++ setMember "directives" Directive.toJson input.directives)

def Field.toJson (field : Field) : Json :=
  .object ([("name", .string field.name), ("type", .string field.type)]
    ++ setMember "arguments" InputValue.toJson field.arguments
    ++ setMember "directives" Directive.toJson field.directives)

def EnumValue.toJson (value : EnumValue) : Json :=
  .object ([("name", .string value.name)]
    ++ setMember "directives" Directive.toJson value.directives)

def TypeForm.toJson (type : TypeForm) : Json :=
  .object ([("name", .string type.name), ("kind", .string type.kind)]
    ++ setMember "fields" Field.toJson type.fields
    ++ setMember "interfaces" Json.string type.interfaces
    ++ setMember "members" Json.string type.members
    ++ setMember "values" EnumValue.toJson type.values
    ++ setMember "input_fields" InputValue.toJson type.inputFields
    ++ setMember "directives" Directive.toJson type.directives)

def DocumentForm.toJson (form : DocumentForm) : Json :=
  .object (textMember "query_type" form.queryType?
    ++ textMember "mutation_type" form.mutationType?
    ++ textMember "subscription_type" form.subscriptionType?
    ++ setMember "types" TypeForm.toJson form.types)

end Canonical

def Document.canonicalText (document : Document) : String :=
  document.canonical.toJson.pretty

end SchemaEvolution
