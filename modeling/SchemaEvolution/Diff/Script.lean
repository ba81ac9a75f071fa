import SchemaEvolution.Diff.Options
import SchemaEvolution.Event
import SchemaEvolution.SortedSet
import SchemaEvolution.TypeRef.Compatibility

/-!
The comparison of one old type with one new type, as a script: a list of steps that report an event,
turn to another pair of types, or give up. A script turns to other types but does not look into
them; `SchemaEvolution.Diff.Walk` carries scripts out. Members are taken in name order, so scripts
do not depend on the order in which members were written.
-/

namespace SchemaEvolution.Diff

structure UnresolvedInterface where
  typeName : String
  interface : String
  deriving DecidableEq, Repr

def UnresolvedInterface.message (error : UnresolvedInterface) : String :=
  s!"type '{error.typeName}' implements '{error.interface}', which is not an interface in the old schema"

inductive Step where
  | report (event : Event)
  /-- Compare the old type of the first name with the new type of the second. -/
  | follow (oldName newName : String)
  | giveUp (error : UnresolvedInterface)
  deriving DecidableEq, Repr

def followRefs (old new : TypeRef) : Step :=
  .follow old.name new.name

structure Owner where
  name : String
  kind : TypeKind
  deriving DecidableEq, Repr

def Owner.location (owner : Owner) : Location :=
  ⟨owner.name, none, some owner.kind⟩

def Owner.member (owner : Owner) (name : String) : Location :=
  ⟨owner.name, some name, some owner.kind⟩

/-- Every argument of the old directive is still there and its value has the same form. -/
def directiveArgumentEvents (location : Location) (name : String) (old new : Directive) :
    List Event :=
  if old.arguments.size > new.arguments.size then
    [.breaking .missing location [name]
      s!"The new API has less arguments on directive '{name}' than the old API"]
  else
    old.arguments.entries.flatMap fun (argument, oldValue) =>
      match new.arguments.get? argument with
      | none =>
          [.breaking .missing location [name, argument]
            s!"The new API does not have an argument named '{argument}' on directive '{name}'"]
      | some newValue =>
          if newValue.kind = oldValue.kind then []
          else
            [.breaking .invalid location [name, argument]
              s!"The new API has changed value types on argument named '{argument}' on directive '{name}'"]

/-- Every old directive is still there, if directives count. New directives never matter. -/
def directivesScript (options : Options) (location : Location) (old new : List Directive) :
    List Step :=
  if options.enforceDirectives then
    let newByName := NameMap.index Directive.name new
    (NameMap.index Directive.name old).entries.flatMap fun (name, oldDirective) =>
      match newByName.get? name with
      | none =>
          [.report (.breaking .missing location [name]
            s!"The new API does not have a directive named '{name}'")]
      | some newDirective =>
          (directiveArgumentEvents location name oldDirective newDirective).map .report
  else []

def printedDefault (value? : Option Value) : String :=
  (value?.map Value.text).getD ""

/-- A default may not change its form; any other change of it is dangerous. -/
def defaultScript (location : Location) (subject : String) (old new : InputValue) : List Step :=
  let formChange :=
    match old.defaultValue?, new.defaultValue? with
    | some oldValue, some newValue =>
        if oldValue.kind = newValue.kind then []
        else
          [Step.report (.breaking .invalid location [old.name]
            s!"The new API has changed default value types on {subject} from '{oldValue.kind.text}' to '{newValue.kind.text}'")]
    | _, _ => []
  let change :=
    if old.defaultValue? = new.defaultValue? then []
    else
      [Step.report (.dangerous .different location [old.name]
        s!"The new API has changed default value on {subject} from '{printedDefault old.defaultValue?}' to '{printedDefault new.defaultValue?}'")]
  formChange ++ change

/-- A retyped argument is not followed; only its own change counts. -/
def argumentScript (options : Options) (owner : Owner) (fieldName : String)
    (old new : InputValue) : List Step :=
  let location := owner.member fieldName
  let typeSteps :=
    match old.type.mismatch new.type with
    | some category =>
        [Step.report (.breaking category location [old.type.text, new.type.text]
          s!"The new API has changed field '{fieldName}' argument '{old.name}' from type '{old.type.text}' to '{new.type.text}'")]
    | none => [followRefs old.type new.type]
  typeSteps
    ++ defaultScript location s!"argument '{old.name}' on field '{fieldName}'" old new
    ++ directivesScript options location old.directives new.directives

/-- Old arguments stay, and no new one has to be supplied. Where arguments were lost by number,
that alone is reported. -/
def argumentsScript (options : Options) (owner : Owner) (old new : Field) : List Step :=
  let location := owner.member old.name
  let oldByName := NameMap.index InputValue.name old.arguments
  let newByName := NameMap.index InputValue.name new.arguments
  if oldByName.size > newByName.size then
    [.report (.breaking .missing location []
      s!"The new API has less arguments on field '{old.name}' of type '{owner.name}' than the old API")]
  else
    let kept := oldByName.entries.flatMap fun (name, oldArgument) =>
      Step.report (.progress location s!"field argument '{name}' ...") ::
        match newByName.get? name with
        | some newArgument => argumentScript options owner old.name oldArgument newArgument
        | none =>
            [.report (.breaking .missing location [name]
              s!"The new API is missing the field argument '{name}'")]
    let added := newByName.entries.flatMap fun (name, newArgument) =>
      if !oldByName.contains name && newArgument.isRequired then
        [Step.report (.breaking .stricter location [name]
          s!"The new API has made the new argument '{name}' on field '{old.name}' non null and hence more strict for old consumers")]
      else []
    kept ++ added

/-- A field's type is followed even if it has changed. -/
def fieldScript (options : Options) (owner : Owner) (old new : Field) : List Step :=
  let location := owner.member old.name
  let typeChange :=
    match old.type.mismatch new.type with
    | some category =>
        [Step.report (.breaking category location [old.type.text, new.type.text]
          s!"The new API has changed field '{old.name}' from type '{old.type.text}' to '{new.type.text}'")]
    | none => []
  typeChange
    ++ argumentsScript options owner old new
    ++ directivesScript options location old.directives new.directives
    ++ [followRefs old.type new.type]

def fieldsScript (options : Options) (owner : Owner) (old new : List Field) : List Step :=
  let newByName := NameMap.index Field.name new
  (NameMap.index Field.name old).entries.flatMap fun (name, oldField) =>
    Step.report (.progress (owner.member name) s!"field '{name}' ...") ::
      match newByName.get? name with
      | some newField => fieldScript options owner oldField newField
      | none =>
          [.report (.breaking .missing (owner.member name) []
            s!"The new API is missing the field '{name}'")]

def interfaceScript (options : Options) (old new : InterfaceType) : List Step :=
  let owner : Owner := ⟨old.name, .interface⟩
  fieldsScript options owner old.fields new.fields
    ++ directivesScript options owner.location old.directives new.directives

/-- Every interface is still implemented. Its two definitions are compared here and now, once for
each object that implements it. -/
def implementedScript (options : Options) (oldDocument newDocument : Document)
    (old new : ObjectType) : List Step :=
  (SortedSet.ofList old.interfaces).elements.flatMap fun name =>
    match oldDocument.interface? name with
    | none => [.giveUp ⟨old.name, name⟩]
    | some oldInterface =>
        match (if name ∈ new.interfaces then newDocument.interface? name else none) with
        | some newInterface => interfaceScript options oldInterface newInterface
        | none =>
            [.report (.breaking .missing ⟨old.name, none, some .object⟩ [name]
              s!"The new API is missing the interface named '{name}'")]

def objectScript (options : Options) (oldDocument newDocument : Document)
    (old new : ObjectType) : List Step :=
  let owner : Owner := ⟨old.name, .object⟩
  fieldsScript options owner old.fields new.fields
    ++ implementedScript options oldDocument newDocument old new
    ++ directivesScript options owner.location old.directives new.directives

/-- Members that both unions have are followed after the changes of membership. -/
def unionScript (options : Options) (old new : UnionType) : List Step :=
  let location : Location := ⟨old.name, none, some .union⟩
  let oldMembers := (SortedSet.ofList old.members).elements
  let newMembers := (SortedSet.ofList new.members).elements
  let lost := oldMembers.filter fun member => member ∉ newMembers
  let added := newMembers.filter fun member => member ∉ oldMembers
  let shared := oldMembers.filter fun member => member ∈ newMembers
  lost.map (fun member =>
      Step.report (.breaking .missing location [member]
        s!"The new API does not contain union member type '{member}'"))
    ++ added.map (fun member =>
      Step.report (.dangerous .addition location [member]
        s!"The new API has added a new union member type '{member}'"))
    ++ directivesScript options location old.directives new.directives
    ++ shared.map (fun member => .follow member member)

def enumScript (options : Options) (old new : EnumType) : List Step :=
  let location : Location := ⟨old.name, none, some .enum⟩
  let oldByName := NameMap.index EnumValue.name old.values
  let newByName := NameMap.index EnumValue.name new.values
  let kept := oldByName.entries.flatMap fun (name, oldValue) =>
    match newByName.get? name with
    | some newValue => directivesScript options location oldValue.directives newValue.directives
    | none =>
        [Step.report (.breaking .missing location [name]
          s!"The new API is missing an enum value '{name}'")]
  let added := newByName.names.flatMap fun name =>
    if oldByName.contains name then []
    else
      [Step.report (.dangerous .addition location [name]
        s!"The new API has added a new enum value '{name}'")]
  kept ++ added ++ directivesScript options location old.directives new.directives

def inputFieldScript (options : Options) (owner : Owner) (name : String)
    (old new : InputValue) : List Step :=
  let location := owner.member name
  let mismatch? := old.type.mismatch new.type
  let typeChange :=
    match mismatch? with
    | some category =>
        [Step.report (.breaking category location [old.type.text, new.type.text]
          s!"The new API has changed input field '{name}' from type '{old.type.text}' to '{new.type.text}'")]
    | none => []
  typeChange
    ++ defaultScript location s!"input field '{name}'" old new
    ++ directivesScript options location old.directives new.directives
    ++ (if mismatch?.isNone then [followRefs old.type new.type] else [])

def inputObjectScript (options : Options) (old new : InputObjectType) : List Step :=
  let owner : Owner := ⟨old.name, .inputObject⟩
  let oldByName := NameMap.index InputValue.name old.fields
  let newByName := NameMap.index InputValue.name new.fields
  let kept := oldByName.entries.flatMap fun (name, oldField) =>
    match newByName.get? name with
    | some newField => inputFieldScript options owner name oldField newField
    | none =>
        [Step.report (.breaking .missing (owner.member name) []
          s!"The new API is missing an input field '{name}'")]
  let added := newByName.entries.flatMap fun (name, newField) =>
    if !oldByName.contains name && newField.isRequired then
      [Step.report (.breaking .stricter (owner.member name) [name]
        s!"The new API has made the new input field '{name}' non null and hence more strict for old consumers")]
    else []
  kept ++ added ++ directivesScript options owner.location old.directives new.directives

def scalarScript (options : Options) (old new : ScalarType) : List Step :=
  directivesScript options ⟨old.name, none, some .scalar⟩ old.directives new.directives

/-- Two definitions of one kind are compared member by member; another kind is a change of its
own. The events about a whole type bear the name under which it was found. -/
def definitionScript (options : Options) (oldDocument newDocument : Document) (name : String) :
    (old new : TypeDefinition) → List Step
  | .object old, .object new => objectScript options oldDocument newDocument old new
  | .interface old, .interface new => interfaceScript options old new
  | .union old, .union new => unionScript options old new
  | .enum old, .enum new => enumScript options old new
  | .inputObject old, .inputObject new => inputObjectScript options old new
  | .scalar old, .scalar new => scalarScript options old new
  | old, new =>
      [.report (.breaking .invalid ⟨name, none, some old.kind⟩ [old.kind.text, new.kind.text]
        s!"The new API has changed '{name}' from a '{old.kind.text}' to a '{new.kind.text}'")]

def standardScalars : List String :=
  ["ID", "Boolean", "String", "Byte", "Char", "Short", "Int", "Long", "Float", "Double",
    "BigInteger", "BigDecimal"]

/-- Names that are never compared: those of built-in scalars and those kept for introspection. -/
def isExempt (name : String) : Bool :=
  standardScalars.contains name || ['_', '_'].isPrefixOf name.toList

def script (options : Options) (oldDocument newDocument : Document) (oldName newName : String) :
    List Step :=
  if isExempt oldName then []
  else
    match oldDocument.type? oldName with
    | none => [.report (.progress ⟨oldName, none, none⟩ s!"Type '{oldName}' is missing")]
    | some old =>
        let location : Location := ⟨oldName, none, some old.kind⟩
        Step.report (.progress location s!"Examining type '{oldName}' ...") ::
          match newDocument.type? newName with
          | none =>
              [.report (.breaking .missing location []
                s!"The new API does not have a type called '{oldName}'")]
          | some new => definitionScript options oldDocument newDocument oldName old new

/-- The comparison of an operation. An operation without an old root is new; a root that is named
but not defined is passed over. -/
def operationScript (oldDocument newDocument : Document) (operation : OperationType) : List Step :=
  match oldDocument.root? operation with
  | none => []
  | some oldRoot =>
      match newDocument.root? operation with
      | none =>
          let location : Location :=
            ⟨operation.conventionalName, some operation.keyword, some .operation⟩
          [.report (.breaking .missing location [operation.keyword]
            s!"The new API no longer has the operation '{operation.keyword}'")]
      | some newRoot =>
          if (oldDocument.type? oldRoot).isNone then [] else [.follow oldRoot newRoot]

end SchemaEvolution.Diff
