import SchemaEvolution.NameMap
import SchemaEvolution.TypeRef
import SchemaEvolution.Value

/-!
One version of a schema: its type definitions by name and the root types of its operations.
Lists of members keep the order and the repetitions of whoever wrote them; comparisons read them by
name.
-/

namespace SchemaEvolution

inductive OperationType where
  | query
  | mutation
  | subscription
  deriving DecidableEq, Repr

namespace OperationType

def all : List OperationType :=
  [query, mutation, subscription]

def keyword : OperationType → String
  | query => "query"
  | mutation => "mutation"
  | subscription => "subscription"

def conventionalName : OperationType → String
  | query => "Query"
  | mutation => "Mutation"
  | subscription => "Subscription"

end OperationType

structure Directive where
  name : String
  arguments : NameMap Value
  deriving DecidableEq

/-- An argument of a field, or a field of an input type. -/
structure InputValue where
  name : String
  type : TypeRef
  defaultValue? : Option Value
  directives : List Directive
  deriving DecidableEq

/-- Callers have to supply it: it may not be null and has no default. -/
def InputValue.isRequired (input : InputValue) : Bool :=
  input.type.isNonNull && input.defaultValue?.isNone

structure Field where
  name : String
  type : TypeRef
  arguments : List InputValue
  directives : List Directive
  deriving DecidableEq

structure EnumValue where
  name : String
  directives : List Directive
  deriving DecidableEq

structure ObjectType where
  name : String
  fields : List Field
  interfaces : List String
  directives : List Directive
  deriving DecidableEq

structure InterfaceType where
  name : String
  fields : List Field
  directives : List Directive
  deriving DecidableEq

structure UnionType where
  name : String
  members : List String
  directives : List Directive
  deriving DecidableEq

structure EnumType where
  name : String
  values : List EnumValue
  directives : List Directive
  deriving DecidableEq

structure ScalarType where
  name : String
  directives : List Directive
  deriving DecidableEq

structure InputObjectType where
  name : String
  fields : List InputValue
  directives : List Directive
  deriving DecidableEq

inductive TypeDefinition where
  | object (type : ObjectType)
  | interface (type : InterfaceType)
  | union (type : UnionType)
  | enum (type : EnumType)
  | scalar (type : ScalarType)
  | inputObject (type : InputObjectType)
  deriving DecidableEq

inductive TypeKind where
  | operation
  | object
  | interface
  | union
  | enum
  | scalar
  | inputObject
  deriving DecidableEq, Repr

namespace TypeKind

def all : List TypeKind :=
  [operation, object, interface, union, enum, scalar, inputObject]

def text : TypeKind → String
  | operation => "Operation"
  | object => "Object"
  | interface => "Interface"
  | union => "Union"
  | enum => "Enum"
  | scalar => "Scalar"
  | inputObject => "InputObject"

def ofText? (text : String) : Option TypeKind :=
  all.find? fun kind => kind.text == text

end TypeKind

namespace TypeDefinition

def name : TypeDefinition → String
  | object type => type.name
  | interface type => type.name
  | union type => type.name
  | enum type => type.name
  | scalar type => type.name
  | inputObject type => type.name

def kind : TypeDefinition → TypeKind
  | object _ => .object
  | interface _ => .interface
  | union _ => .union
  | enum _ => .enum
  | scalar _ => .scalar
  | inputObject _ => .inputObject

def directives : TypeDefinition → List Directive
  | object type => type.directives
  | interface type => type.directives
  | union type => type.directives
  | enum type => type.directives
  | scalar type => type.directives
  | inputObject type => type.directives

end TypeDefinition

/-- One version of a schema. A type is found under its key, whatever name its definition bears. -/
structure Document where
  types : NameMap TypeDefinition
  queryType? : Option String
  mutationType? : Option String
  subscriptionType? : Option String
  deriving DecidableEq

namespace Document

def empty : Document :=
  ⟨∅, none, none, none⟩

instance : EmptyCollection Document :=
  ⟨empty⟩

instance : Inhabited Document :=
  ⟨empty⟩

def insert (document : Document) (definition : TypeDefinition) : Document :=
  { document with types := document.types.insert definition.name definition }

def type? (document : Document) (name : String) : Option TypeDefinition :=
  document.types.get? name

/-- The interface type of that name; a type of another kind does not count. -/
def interface? (document : Document) (name : String) : Option InterfaceType :=
  match document.type? name with
  | some (.interface type) => some type
  | _ => none

def declaredRoot? (document : Document) : OperationType → Option String
  | .query => document.queryType?
  | .mutation => document.mutationType?
  | .subscription => document.subscriptionType?

def setRoot (document : Document) (operation : OperationType) (name? : Option String) : Document :=
  match operation with
  | .query => { document with queryType? := name? }
  | .mutation => { document with mutationType? := name? }
  | .subscription => { document with subscriptionType? := name? }

def hasDeclaredRoots (document : Document) : Bool :=
  OperationType.all.any fun operation => (document.declaredRoot? operation).isSome

/-- The name of an operation's root type. Once any root is named explicitly, only explicit names
count; otherwise an object type of the conventional name is the root. -/
def root? (document : Document) (operation : OperationType) : Option String :=
  if document.hasDeclaredRoots then document.declaredRoot? operation
  else
    match document.type? operation.conventionalName with
    | some (.object _) => some operation.conventionalName
    | _ => none

end Document

end SchemaEvolution
