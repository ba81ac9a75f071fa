import SchemaEvolution.Introspection.Payload

/-!
Introspection results as JSON, the way a server writes them: every member is there, a null stands
for what is absent, and descriptions and directives are left empty. What is written reads back.
-/

namespace SchemaEvolution

theorem Json.listOf?_ofList {α : Type} {encode : α → Json} {decode : Json → Option α}
    (decodes : ∀ item, decode (encode item) = some item) (items : List α) :
    (Json.ofList encode items).listOf? decode = some items := by
  change (items.map encode).mapM decode = some items
  induction items with
  | nil => rfl
  | cons item rest ih => simp [decodes, ih]

theorem Json.optionOf?_ofOption {α : Type} (encode : α → Json) {decode : Json → Option α}
    (decodes : ∀ item, decode (encode item) = some item) (notNull : ∀ item, encode item ≠ .null)
    (item? : Option α) : (Json.ofOption encode item?).optionOf? decode = some item? := by
  cases item? with
  | none => rfl
  | some item =>
      unfold ofOption optionOf?
      split
      · rename_i isNull
        exact absurd isNull (notNull item)
      · simp [decodes]

namespace Introspection

def Kind.toJson (kind : Kind) : Json :=
  .string kind.text

def textJson (text? : Option String) : Json :=
  .ofOption .string text?

def namedJson (name? : Option String) : Json :=
  .object [("name", textJson name?)]

def listJson {α : Type} (encode : α → Json) (items? : Option (List α)) : Json :=
  .ofOption (.ofList encode) items?

def Reference.toJson : Reference → Json
  | mk kind name? none =>
      .object [("kind", kind.toJson), ("name", textJson name?), ("ofType", .null)]
  | mk kind name? (some inner) =>
      .object [("kind", kind.toJson), ("name", textJson name?), ("ofType", inner.toJson)]

def Input.toJson (input : Input) : Json :=
  .object [("name", .string input.name), ("description", .null), ("type", input.type.toJson),
    ("defaultValue", textJson input.defaultText?)]

def Field.toJson (field : Field) : Json :=
  .object [("name", .string field.name), ("description", .null),
    ("args", .ofList Input.toJson field.arguments), ("type", field.type.toJson),
    ("isDeprecated", .bool field.isDeprecated),
    ("deprecationReason", textJson field.deprecationReason?)]

def EnumValue.toJson (value : EnumValue) : Json :=
  .object [("name", .string value.name), ("description", .null),
    ("isDeprecated", .bool value.isDeprecated),
    ("deprecationReason", textJson value.deprecationReason?)]

def TypeEntry.toJson (entry : TypeEntry) : Json :=
  .object [("kind", entry.kind.toJson), ("name", textJson entry.name?), ("description", .null),
    ("fields", listJson Field.toJson entry.fields?),
    ("inputFields", listJson Input.toJson entry.inputFields?),
    ("interfaces", listJson namedJson entry.interfaces?),
    ("enumValues", listJson EnumValue.toJson entry.enumValues?),
    ("possibleTypes", listJson namedJson entry.possibleTypes?)]

def Payload.toJson (payload : Payload) : Json :=
  .object [("queryType", namedJson payload.queryType),
    ("mutationType", .ofOption namedJson payload.mutationType?),
    ("subscriptionType", .ofOption namedJson payload.subscriptionType?),
    ("types", .ofList TypeEntry.toJson payload.types), ("directives", .array [])]

@[simp]
theorem Kind.ofJson?_toJson (kind : Kind) : Kind.ofJson? kind.toJson = some kind := by
  cases kind <;> decide

theorem textOrNull?_null : textOrNull? .null = some none :=
  rfl

@[simp]
theorem textOrNull?_textJson (text? : Option String) : textOrNull? (textJson text?) = some text? :=
  Json.optionOf?_ofOption Json.string (fun _ => rfl) (fun _ => Json.noConfusion) text?

@[simp]
theorem named?_namedJson (name? : Option String) : named? (namedJson name?) = some name? := by
  simp [named?, namedJson, Json.member?]

@[simp]
theorem optionOf?_named (name?? : Option (Option String)) :
    (Json.ofOption namedJson name??).optionOf? named? = some name?? :=
  Json.optionOf?_ofOption namedJson named?_namedJson (fun _ => Json.noConfusion) name??

@[simp]
theorem Reference.ofJson?_toJson (reference : Reference) :
    Reference.ofJson? reference.toJson = some reference := by
  match reference with
  | mk kind name? none =>
      rw [toJson, ofJson?]
      simp [List.lookup_cons]
  | mk kind name? (some inner) =>
      have innerRead := ofJson?_toJson inner
      rw [toJson, ofJson?]
      simp only [List.lookup_cons, String.reduceBEq, Option.bind_eq_bind, Option.bind_some,
        Kind.ofJson?_toJson, textOrNull?_textJson]
      rcases inner with ⟨innerKind, innerName?, _ | innermost⟩
      · simp only [toJson] at innerRead ⊢
        simp [innerRead]
      · simp only [toJson] at innerRead ⊢
        simp [innerRead]

theorem Input.ofJson?_toJson (input : Input) : Input.ofJson? input.toJson = some input := by
  simp [ofJson?, toJson, Json.member?, List.lookup_cons, Json.string?, textOrNull?_null]

theorem Field.ofJson?_toJson (field : Field) : Field.ofJson? field.toJson = some field := by
  simp [ofJson?, toJson, Json.member?, List.lookup_cons, Json.string?, Json.bool?,
    textOrNull?_null, Json.listOf?_ofList Input.ofJson?_toJson]

theorem EnumValue.ofJson?_toJson (value : EnumValue) :
    EnumValue.ofJson? value.toJson = some value := by
  simp [ofJson?, toJson, Json.member?, List.lookup_cons, Json.string?, Json.bool?,
    textOrNull?_null]

theorem optionOf?_listJson {α : Type} {encode : α → Json} {decode : Json → Option α}
    (decodes : ∀ item, decode (encode item) = some item) (items? : Option (List α)) :
    (listJson encode items?).optionOf? (fun json => json.listOf? decode) = some items? :=
  Json.optionOf?_ofOption _ (Json.listOf?_ofList decodes) (fun _ => Json.noConfusion) items?

theorem TypeEntry.ofJson?_toJson (entry : TypeEntry) :
    TypeEntry.ofJson? entry.toJson = some entry := by
  simp [ofJson?, toJson, Json.member?, List.lookup_cons, listOrNull?, optionalText?,
    textOrNull?_null, optionOf?_listJson Field.ofJson?_toJson,
    optionOf?_listJson Input.ofJson?_toJson, optionOf?_listJson EnumValue.ofJson?_toJson,
    optionOf?_listJson named?_namedJson]

/-- An answer reads back as it was written, but for the arguments of its directives. -/
theorem Payload.ofJson?_toJson (payload : Payload) :
    Payload.ofJson? payload.toJson = some { payload with directiveArguments := [] } := by
  have noDirectives : (Json.array []).listOf? directiveArguments? = some [] := rfl
  simp [ofJson?, toJson, Json.member?, List.lookup_cons, noDirectives,
    Json.listOf?_ofList TypeEntry.ofJson?_toJson]

end Introspection

end SchemaEvolution
