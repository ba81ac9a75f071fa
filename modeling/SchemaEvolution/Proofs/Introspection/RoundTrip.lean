import SchemaEvolution.Proofs.Introspection
import SchemaEvolution.Proofs.Introspection.Payload
import SchemaEvolution.Proofs.LiteralText
import SchemaEvolution.Proofs.TypeRefText

/-!
Documents as introspection results. An answer lists the types of a document with the parts that
belong to their kinds; a document that uses no more than an answer can carry is what its answer
describes.
-/

namespace SchemaEvolution

namespace Introspection

def Kind.ofDefinition : TypeDefinition → Kind
  | .object _ => object
  | .interface _ => interface
  | .union _ => union
  | .enum _ => enum
  | .scalar _ => scalar
  | .inputObject _ => inputObject

/-- The kind of a named type. A name without a definition is that of a built-in scalar. -/
def Kind.ofName (document : Document) (name : String) : Kind :=
  ((document.type? name).map ofDefinition).getD scalar

def Reference.ofTypeRef (document : Document) : TypeRef → Reference
  | .named name => mk (.ofName document name) (some name) none
  | .list item => mk .list none (some (ofTypeRef document item))
  | .nonNull inner => mk .nonNull none (some (ofTypeRef document inner))

def markedReason? (directives : List Directive) : Option String := do
  let directive ← directives.find? fun directive => directive.name == "deprecated"
  match directive.arguments.get? "reason" with
  | some (.string reason) => some reason
  | _ => none

def marksDeprecation (directives : List Directive) : Bool :=
  directives.any fun directive => directive.name == "deprecated"

def Input.ofInputValue (document : Document) (input : InputValue) : Input where
  name := input.name
  type := .ofTypeRef document input.type
  defaultText? := input.defaultValue?.map Value.text

def Field.ofField (document : Document) (field : SchemaEvolution.Field) : Field where
  name := field.name
  arguments := field.arguments.map (Input.ofInputValue document)
  type := .ofTypeRef document field.type
  isDeprecated := marksDeprecation field.directives
  deprecationReason? := markedReason? field.directives

def EnumValue.ofEnumValue (value : SchemaEvolution.EnumValue) : EnumValue where
  name := value.name
  isDeprecated := marksDeprecation value.directives
  deprecationReason? := markedReason? value.directives

def TypeEntry.bare (kind : Kind) (name : String) : TypeEntry :=
  ⟨kind, some name, none, none, none, none, none⟩

def TypeEntry.ofDefinition (document : Document) : TypeDefinition → TypeEntry
  | .object type =>
      { bare .object type.name with
        fields? := some (type.fields.map (Field.ofField document))
        interfaces? := some (type.interfaces.map some) }
  | .interface type =>
      { bare .interface type.name with
        fields? := some (type.fields.map (Field.ofField document)) }
  | .union type =>
      { bare .union type.name with possibleTypes? := some (type.members.map some) }
  | .enum type =>
      { bare .enum type.name with enumValues? := some (type.values.map EnumValue.ofEnumValue) }
  | .scalar type => bare .scalar type.name
  | .inputObject type =>
      { bare .inputObject type.name with
        inputFields? := some (type.fields.map (Input.ofInputValue document)) }

def Payload.ofDocument (document : Document) : Payload where
  queryType := document.queryType?
  mutationType? := document.mutationType?.map some
  subscriptionType? := document.subscriptionType?.map some
  types := document.types.values.map (TypeEntry.ofDefinition document)
  directiveArguments := []

end Introspection

/-- The answer of a server with that schema. -/
def Document.introspection (document : Document) : Json :=
  .object [("__schema", (Introspection.Payload.ofDocument document).toJson)]

/-! ### What an answer can carry -/

/-- A reference within reach of the query for it, and with a text that can be read. -/
structure TypeRef.FitsAnswer (type : TypeRef) : Prop where
  named : type.IsNamed
  marks : type.HasSingleMarks
  layers : type.wrappers.length ≤ 7

structure InputValue.FitsAnswer (input : InputValue) : Prop where
  type : input.type.FitsAnswer
  default : ∀ value ∈ input.defaultValue?,
    value.Obeys Value.floatless ∧ ∃ text, Value.parse text = .ok value
  directives : input.directives = []

/-- At most one directive, a deprecation with or without a reason. -/
inductive IsDeprecation : List Directive → Prop
  | absent : IsDeprecation []
  | bare : IsDeprecation [⟨"deprecated", ∅⟩]
  | reasoned (reason : String) :
      IsDeprecation [⟨"deprecated", NameMap.ofList [("reason", .string reason)]⟩]

structure Field.FitsAnswer (field : Field) : Prop where
  type : field.type.FitsAnswer
  arguments : ∀ argument ∈ field.arguments, argument.FitsAnswer
  directives : IsDeprecation field.directives

structure TypeDefinition.FitsAnswer (definition : TypeDefinition) : Prop where
  directives : definition.directives = []
  members : match definition with
    | object type => ∀ field ∈ type.fields, field.FitsAnswer
    | interface type => ∀ field ∈ type.fields, field.FitsAnswer
    | enum type => ∀ value ∈ type.values, IsDeprecation value.directives
    | inputObject type => ∀ field ∈ type.fields, field.FitsAnswer
    | union _ | scalar _ => True

structure Document.FitsAnswer (document : Document) : Prop where
  keyed : ∀ name definition, document.type? name = some definition → definition.name = name
  queried : document.queryType?.isSome = true
  types : ∀ name definition, document.type? name = some definition → definition.FitsAnswer
  resolved : ∀ name type, document.type? name = some (.object type) →
    ∀ implemented ∈ type.interfaces, (document.interface? implemented).isSome

/-! ### Reading an answer -/

/-- If each item is checked and then read back, so is the list. -/
theorem exists_mapM_ok_of_forall {δ ε α β γ : Type} {encode : α → β}
    {check : β → Except δ γ} {read : γ → Except ε α} {items : List α}
    (reads : ∀ item ∈ items, ∃ checked, check (encode item) = .ok checked ∧
      read checked = .ok item) :
    ∃ checked, (items.map encode).mapM check = .ok checked ∧ checked.mapM read = .ok items := by
  induction items with
  | nil => exact ⟨[], rfl, rfl⟩
  | cons item rest ih =>
      obtain ⟨itemReads, restReads⟩ := List.forall_mem_cons.mp reads
      obtain ⟨first, checkFirst, readFirst⟩ := itemReads
      obtain ⟨others, checkOthers, readOthers⟩ := ih restReads
      refine ⟨first :: others, ?_, ?_⟩
      · rw [List.map_cons, List.mapM_cons, checkFirst, checkOthers]
        rfl
      · rw [List.mapM_cons, readFirst, readOthers]
        rfl

namespace Introspection

theorem requireNames_map_some (names : List String) :
    requireNames (some (names.map some)) = .ok names := by
  change (names.map some).mapM requireName = .ok names
  induction names with
  | nil => rfl
  | cons name rest ih =>
      rw [List.map_cons, List.mapM_cons, ih]
      rfl

theorem Kind.ofName_ne_layer (document : Document) (name : String) :
    ofName document name ≠ list ∧ ofName document name ≠ nonNull := by
  unfold ofName
  cases document.type? name with
  | none => exact ⟨Kind.noConfusion, Kind.noConfusion⟩
  | some definition => cases definition <;> exact ⟨Kind.noConfusion, Kind.noConfusion⟩

/-- The layers of a reference are counted from the place where it stands. -/
theorem Reference.check_ofTypeRef (document : Document) (type : TypeRef) (depth : Nat)
    (layers : depth + type.wrappers.length < layerLimit) :
    (ofTypeRef document type).check depth = .ok type := by
  induction type generalizing depth with
  | named name =>
      obtain ⟨notList, notNonNull⟩ := Kind.ofName_ne_layer document name
      have within : ¬ depth ≥ layerLimit := by omega
      unfold ofTypeRef check
      rw [if_neg within]
      generalize Kind.ofName document name = kind at notList notNonNull ⊢
      cases kind with
      | list => exact absurd rfl notList
      | nonNull => exact absurd rfl notNonNull
      | scalar | object | interface | union | enum | inputObject => rfl
  | list item ih =>
      rw [TypeRef.wrappers, List.length_append, List.length_singleton] at layers
      rw [ofTypeRef, check, if_neg (by omega), ih (depth + 1) (by omega)]
      rfl
  | nonNull inner ih =>
      rw [TypeRef.wrappers, List.length_append, List.length_singleton] at layers
      rw [ofTypeRef, check, if_neg (by omega), ih (depth + 1) (by omega)]
      rfl

theorem deprecationMarks_of_isDeprecation {directives : List Directive}
    (deprecation : IsDeprecation directives) :
    deprecationMarks (marksDeprecation directives) (markedReason? directives) = directives := by
  cases deprecation with
  | absent => rfl
  | bare => rfl
  | reasoned reason => rfl

section Members

variable (document : Document)

theorem check_reference {type : TypeRef} (fits : type.FitsAnswer) :
    (Reference.ofTypeRef document type).check 0 = .ok type :=
  Reference.check_ofTypeRef document type 0 (by
    have layers := fits.layers
    unfold layerLimit
    omega)

theorem readTypeRef_of_fitsAnswer {type : TypeRef} (fits : type.FitsAnswer) (context : String) :
    readTypeRef context type = .ok type := by
  rw [readTypeRef, TypeRef.parse_text fits.named fits.marks]
  rfl

theorem readDefault_text {default? : Option Value}
    (fits : ∀ value ∈ default?, value.Obeys Value.floatless ∧
      ∃ text, Value.parse text = .ok value) (context : String) :
    readDefault context (default?.map Value.text) = .ok default? := by
  cases default? with
  | none => rfl
  | some value =>
      obtain ⟨floatless, source, read⟩ := fits value rfl
      have literal := Value.obeys_literal (Value.obeys_readable_of_parse read) floatless
      rw [Option.map_some, readDefault, Value.parse_text literal]

theorem Input.exists_checked {input : InputValue} (fits : input.FitsAnswer) (parent : String) :
    ∃ checked, (ofInputValue document input).check = .ok checked ∧
      checked.toInputValue parent = .ok input := by
  refine ⟨⟨input.name, input.type, input.defaultValue?.map Value.text⟩, ?_, ?_⟩
  · rw [ofInputValue, check, check_reference document fits.type]
    rfl
  · obtain ⟨name, type, default?, directives⟩ := input
    obtain rfl : directives = [] := fits.directives
    rw [NamedInput.toInputValue, readDefault_text fits.default,
      readTypeRef_of_fitsAnswer fits.type]
    rfl

theorem exists_checked_inputs {inputs : List InputValue}
    (fit : ∀ input ∈ inputs, input.FitsAnswer) (parent : String) :
    ∃ checked, (inputs.map (Input.ofInputValue document)).mapM Input.check = .ok checked ∧
      checked.mapM (NamedInput.toInputValue parent) = .ok inputs :=
  exists_mapM_ok_of_forall fun input member =>
    Input.exists_checked document (fit input member) parent

theorem Field.exists_checked {field : SchemaEvolution.Field} (fits : field.FitsAnswer)
    (parent : String) :
    ∃ checked, (ofField document field).check = .ok checked ∧
      checked.toField parent = .ok field := by
  obtain ⟨arguments, checkArguments, readArguments⟩ :=
    exists_checked_inputs document fits.arguments (parent ++ "." ++ field.name)
  refine ⟨⟨field.name, arguments, field.type, marksDeprecation field.directives,
    markedReason? field.directives⟩, ?_, ?_⟩
  · rw [ofField, check, checkArguments, check_reference document fits.type]
    rfl
  · rw [NamedField.toField]
    dsimp only
    rw [readTypeRef_of_fitsAnswer fits.type, readArguments,
      deprecationMarks_of_isDeprecation fits.directives]
    rfl

theorem exists_checked_fields {fields : List SchemaEvolution.Field}
    (fit : ∀ field ∈ fields, field.FitsAnswer) (parent : String) :
    ∃ checked, (fields.map (Field.ofField document)).mapM Field.check = .ok checked ∧
      checked.mapM (NamedField.toField parent) = .ok fields :=
  exists_mapM_ok_of_forall fun field member =>
    Field.exists_checked document (fit field member) parent

theorem EnumValue.toEnumValue_ofEnumValue {value : SchemaEvolution.EnumValue}
    (deprecation : IsDeprecation value.directives) : (ofEnumValue value).toEnumValue = value := by
  rw [ofEnumValue, toEnumValue, deprecationMarks_of_isDeprecation deprecation]

end Members

theorem TypeEntry.exists_checked (document : Document) {definition : TypeDefinition}
    (fits : definition.FitsAnswer) :
    ∃ checked, (ofDefinition document definition).check = .ok checked ∧
      checked.toDefinition = .ok definition := by
  obtain ⟨unmarked, members⟩ := fits
  cases definition with
  | scalar type =>
      obtain ⟨name, directives⟩ := type
      obtain rfl : directives = [] := unmarked
      exact ⟨.scalar name, rfl, rfl⟩
  | object type =>
      obtain ⟨name, fields, interfaces, directives⟩ := type
      obtain rfl : directives = [] := unmarked
      obtain ⟨checked, checkFields, readFields⟩ := exists_checked_fields document members name
      refine ⟨.object name checked interfaces, ?_, ?_⟩
      · simp only [ofDefinition, bare, check, Option.getD_some, checkFields,
          requireNames_map_some]
        rfl
      · rw [NamedType.toDefinition, readFields]
        rfl
  | interface type =>
      obtain ⟨name, fields, directives⟩ := type
      obtain rfl : directives = [] := unmarked
      obtain ⟨checked, checkFields, readFields⟩ := exists_checked_fields document members name
      refine ⟨.interface name checked, ?_, ?_⟩
      · simp only [ofDefinition, bare, check, Option.getD_some, checkFields]
        rfl
      · rw [NamedType.toDefinition, readFields]
        rfl
  | union type =>
      obtain ⟨name, names, directives⟩ := type
      obtain rfl : directives = [] := unmarked
      refine ⟨.union name names, ?_, rfl⟩
      simp only [ofDefinition, bare, check, requireNames_map_some]
      rfl
  | enum type =>
      obtain ⟨name, values, directives⟩ := type
      obtain rfl : directives = [] := unmarked
      refine ⟨.enum name (values.map EnumValue.ofEnumValue), rfl, ?_⟩
      have same : (values.map EnumValue.ofEnumValue).map EnumValue.toEnumValue = values := by
        rw [List.map_map]
        refine (List.map_congr_left fun value member => ?_).trans (List.map_id values)
        exact EnumValue.toEnumValue_ofEnumValue (members value member)
      rw [NamedType.toDefinition, same]
  | inputObject type =>
      obtain ⟨name, fields, directives⟩ := type
      obtain rfl : directives = [] := unmarked
      obtain ⟨checked, checkFields, readFields⟩ := exists_checked_inputs document members name
      refine ⟨.inputObject name checked, ?_, ?_⟩
      · simp only [ofDefinition, bare, check, Option.getD_some, checkFields]
        rfl
      · rw [NamedType.toDefinition, readFields]
        rfl

theorem unknownInterface?_eq_none {document : Document} (fits : document.FitsAnswer) :
    document.types.values.findSome? (unknownInterface? document) = none := by
  refine List.findSome?_eq_none_iff.mpr fun definition member => ?_
  obtain ⟨name, found⟩ := NameMap.exists_get?_of_mem_values member
  cases definition with
  | object type =>
      refine Option.map_eq_none_iff.mpr (List.find?_eq_none.mpr fun implemented listed => ?_)
      simpa [Option.isSome_iff_ne_none] using fits.resolved name type found implemented listed
  | interface | union | enum | scalar | inputObject => rfl

theorem Schema.toDocument_of_definitions {document : Document} (fits : document.FitsAnswer)
    {types : List NamedType} {queryType : String} (queried : document.queryType? = some queryType)
    (readTypes : types.mapM NamedType.toDefinition = .ok document.types.values) :
    toDocument ⟨queryType, document.mutationType?, document.subscriptionType?, types⟩ =
      .ok document := by
  have known := unknownInterface?_eq_none fits
  have indexed : NameMap.index TypeDefinition.name document.types.values = document.types :=
    NameMap.index_values fits.keyed
  have same : Document.mk (NameMap.index TypeDefinition.name document.types.values)
      (some queryType) document.mutationType? document.subscriptionType? = document := by
    rw [indexed, ← queried]
  unfold toDocument
  rw [readTypes]
  dsimp only [Bind.bind, Except.bind]
  rw [same, indexed, known]
  rfl

theorem Payload.exists_checked {document : Document} (fits : document.FitsAnswer) :
    ∃ schema, (ofDocument document).check = .ok schema ∧ schema.toDocument = .ok document := by
  obtain ⟨queryType, queried⟩ := Option.isSome_iff_exists.mp fits.queried
  obtain ⟨types, checkTypes, readTypes⟩ := exists_mapM_ok_of_forall fun definition member =>
    have ⟨name, found⟩ := NameMap.exists_get?_of_mem_values member
    TypeEntry.exists_checked document (fits.types name definition found)
  refine ⟨⟨queryType, document.mutationType?, document.subscriptionType?, types⟩, ?_,
    Schema.toDocument_of_definitions fits queried readTypes⟩
  have mapName (name? : Option String) : (name?.map some).mapM requireName = .ok name? := by
    cases name? <;> rfl
  simp only [ofDocument, check, queried, mapName, checkTypes]
  rfl

end Introspection

/-- What is written for a document is read back, with and without the envelope of a response. -/
theorem Document.ofIntrospection_introspection {document : Document} (fits : document.FitsAnswer) :
    ofIntrospection document.introspection = .ok document ∧
      ofIntrospection (.object [("data", document.introspection)]) = .ok document := by
  obtain ⟨schema, checked, read⟩ := Introspection.Payload.exists_checked fits
  have decoded : Introspection.Payload.ofJson? (Introspection.Payload.ofDocument document).toJson =
      some (Introspection.Payload.ofDocument document) :=
    Introspection.Payload.ofJson?_toJson _
  have present (json : Json) (root : introspectionRoot json = document.introspection) :
      (introspectionRoot json).present? "__schema" =
        some (Introspection.Payload.ofDocument document).toJson := by
    rw [root]
    rfl
  have readAt (json : Json) (root : introspectionRoot json = document.introspection) :
      ofIntrospection json = .ok document := by
    unfold ofIntrospection
    rw [present json root]
    dsimp only
    rw [decoded]
    dsimp only
    rw [checked]
    exact read
  exact ⟨readAt _ rfl, readAt _ rfl⟩

def smallPets : Value :=
  .object [("max", .int "20"), ("size", .enum "SMALL"), ("tags", .list [.string "\"new\"\n"])]

def petTypes : List TypeDefinition :=
  [.object ⟨"Query", [⟨"pets", .nonNull (.list (.nonNull (.named "Pet"))),
      [⟨"only", .named "Choice", some smallPets, []⟩], []⟩], [], []⟩,
    .object ⟨"Pet", [⟨"name", .named "String", [],
      [⟨"deprecated", NameMap.ofList [("reason", .string "use tags")]⟩]⟩], ["Named"], []⟩,
    .interface ⟨"Named", [⟨"name", .named "String", [], []⟩], []⟩,
    .union ⟨"Any", ["Pet"], []⟩,
    .enum ⟨"Size", [⟨"SMALL", []⟩, ⟨"LARGE", [⟨"deprecated", ∅⟩]⟩], []⟩,
    .scalar ⟨"String", []⟩,
    .inputObject ⟨"Choice", [⟨"tags", .list (.named "String"), some (.list []), []⟩], []⟩]

def petDocument : Document where
  types := NameMap.index TypeDefinition.name petTypes
  queryType? := some "Query"
  mutationType? := none
  subscriptionType? := none

theorem obeys_smallPets : smallPets.Obeys Value.literal := by
  have names : ∀ name ∈ ["max", "size", "tags"], Text.isName name.toList = true := by decide
  have twenty : IsWhole ['2', '0'] :=
    ⟨by decide, List.all_eq_true.mp (by decide), by decide⟩
  have size : IsLiteralName "SMALL".toList := ⟨by decide, by decide⟩
  exact ⟨⟨names, by decide⟩, ⟨false, _, rfl, twenty, by decide⟩, size, ⟨trivial, trivial⟩, trivial⟩

theorem petTypes_fitAnswer : ∀ definition ∈ petTypes, definition.FitsAnswer := by
  have named {name : String} (isName : Text.isName name.toList = true) :
      (TypeRef.named name).FitsAnswer :=
    ⟨isName, trivial, Nat.zero_le _⟩
  have onlySmall : (⟨"only", .named "Choice", some smallPets, []⟩ : InputValue).FitsAnswer := by
    refine ⟨named (by decide), fun value isDefault => ?_, rfl⟩
    cases isDefault
    exact ⟨⟨trivial, trivial, trivial, ⟨trivial, trivial⟩, trivial⟩, _,
      Value.parse_text obeys_smallPets⟩
  have tags : (⟨"tags", .list (.named "String"), some (.list []), []⟩ : InputValue).FitsAnswer := by
    have isName : Text.isName "String".toList = true := by decide
    refine ⟨⟨isName, trivial, by decide⟩, fun value isDefault => ?_, rfl⟩
    cases isDefault
    exact ⟨trivial, _, Value.parse_text trivial⟩
  have pets : (⟨"pets", .nonNull (.list (.nonNull (.named "Pet"))),
      [⟨"only", .named "Choice", some smallPets, []⟩], []⟩ : Field).FitsAnswer := by
    have isName : Text.isName "Pet".toList = true := by decide
    exact ⟨⟨isName, ⟨rfl, rfl, trivial⟩, by decide⟩, List.forall_mem_singleton.mpr onlySmall,
      .absent⟩
  have noArguments : ∀ argument ∈ ([] : List InputValue), argument.FitsAnswer :=
    fun _ member => absurd member List.not_mem_nil
  have name {directives : List Directive} (deprecation : IsDeprecation directives) :
      (⟨"name", .named "String", [], directives⟩ : Field).FitsAnswer :=
    ⟨named (by decide), noArguments, deprecation⟩
  have size : ∀ value ∈ [(⟨"SMALL", []⟩ : EnumValue), ⟨"LARGE", [⟨"deprecated", ∅⟩]⟩],
      IsDeprecation value.directives :=
    List.forall_mem_cons.mpr ⟨.absent, List.forall_mem_singleton.mpr .bare⟩
  simp only [petTypes, List.forall_mem_cons]
  exact ⟨⟨rfl, List.forall_mem_singleton.mpr pets⟩,
    ⟨rfl, List.forall_mem_singleton.mpr (name (.reasoned _))⟩,
    ⟨rfl, List.forall_mem_singleton.mpr (name .absent)⟩, ⟨rfl, trivial⟩, ⟨rfl, size⟩,
    ⟨rfl, trivial⟩, ⟨rfl, List.forall_mem_singleton.mpr tags⟩,
    fun _ member => absurd member List.not_mem_nil⟩

theorem petDocument_read_back :
    petDocument.FitsAnswer ∧
      Document.ofIntrospection petDocument.introspection = .ok petDocument ∧
      Document.ofIntrospection (.object [("data", petDocument.introspection)]) = .ok petDocument := by
  have fits : petDocument.FitsAnswer := by
    refine ⟨fun name definition found => NameMap.name_of_get?_index found, rfl,
      fun name definition found => petTypes_fitAnswer _ (NameMap.mem_of_get?_index found), ?_⟩
    intro name type found implemented listed
    have member : TypeDefinition.object type ∈ petTypes := NameMap.mem_of_get?_index found
    simp only [petTypes, List.mem_cons, List.not_mem_nil, or_false, TypeDefinition.object.injEq,
      reduceCtorEq] at member
    rcases member with rfl | rfl
    · cases listed
    · obtain rfl := List.mem_singleton.mp listed
      rfl
  exact ⟨fits, Document.ofIntrospection_introspection fits⟩

end SchemaEvolution
