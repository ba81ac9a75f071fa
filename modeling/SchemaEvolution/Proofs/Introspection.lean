import SchemaEvolution.Introspection.Conversion
import SchemaEvolution.Proofs.Grammar
import SchemaEvolution.Proofs.NameMap

/-!
What is known of a document that came from an introspection result: types stand under their own
names, objects implement interfaces only, and references and default values were read from texts,
so that their texts tell what they are.
-/

namespace SchemaEvolution

/-- All that is read from a list is read from items of it. -/
theorem exists_source_of_mapM_ok {ε α β : Type} {read : α → Except ε β} {items : List α}
    {results : List β} (found : items.mapM read = .ok results) :
    ∀ result ∈ results, ∃ item ∈ items, read item = .ok result := by
  induction items generalizing results with
  | nil =>
      rw [List.mapM_nil] at found
      cases found
      exact fun result member => absurd member List.not_mem_nil
  | cons item rest ih =>
      rw [List.mapM_cons] at found
      obtain ⟨first, readFirst, behind⟩ := ok_of_bind_ok found
      obtain ⟨others, readOthers, same⟩ := ok_of_bind_ok behind
      cases same
      intro result member
      rcases List.mem_cons.mp member with rfl | later
      · exact ⟨item, List.mem_cons_self, readFirst⟩
      · obtain ⟨source, inRest, readSource⟩ := ih readOthers result later
        exact ⟨source, List.mem_cons_of_mem _ inRest, readSource⟩

structure InputValue.IsLegible (input : InputValue) : Prop where
  type : input.type.IsNamed
  default : ∀ value ∈ input.defaultValue?, value.ShowsKind

structure Field.IsLegible (field : Field) : Prop where
  type : field.type.IsNamed
  arguments : ∀ argument ∈ field.arguments, argument.IsLegible

def TypeDefinition.IsLegible : TypeDefinition → Prop
  | object type => ∀ field ∈ type.fields, field.IsLegible
  | interface type => ∀ field ∈ type.fields, field.IsLegible
  | inputObject type => ∀ field ∈ type.fields, field.IsLegible
  | union _ | enum _ | scalar _ => True

/-- The document has what the conversion of an introspection result sees to. -/
structure Document.IsConverted (document : Document) : Prop where
  keyed : ∀ name definition, document.type? name = some definition → definition.name = name
  resolved : ∀ name type, document.type? name = some (.object type) →
    ∀ implemented ∈ type.interfaces, (document.interface? implemented).isSome
  legible : ∀ name definition, document.type? name = some definition → definition.IsLegible

namespace Introspection

theorem isNamed_of_readTypeRef {context : String} {source type : TypeRef}
    (read : readTypeRef context source = .ok type) : type.IsNamed :=
  TypeRef.isNamed_of_parse (ok_of_mapError_ok read)

theorem showsKind_of_readDefault {context : String} {text? : Option String} {value? : Option Value}
    (read : readDefault context text? = .ok value?) : ∀ value ∈ value?, value.ShowsKind := by
  unfold readDefault at read
  split at read
  · cases read
    exact fun value member => absurd member (Option.not_mem_none value)
  · split at read
    · rename_i parsed
      cases read
      intro value same
      cases same
      exact Value.showsKind_of_parse parsed
    · cases read

theorem NamedInput.isLegible_of_toInputValue {parent : String} {source : NamedInput}
    {input : InputValue} (read : source.toInputValue parent = .ok input) : input.IsLegible := by
  obtain ⟨default?, readDefault, behind⟩ := ok_of_bind_ok read
  obtain ⟨type, readType, same⟩ := ok_of_bind_ok behind
  cases same
  exact ⟨isNamed_of_readTypeRef readType, showsKind_of_readDefault readDefault⟩

theorem isLegible_of_mapM_toInputValue {parent : String} {sources : List NamedInput}
    {inputs : List InputValue} (read : sources.mapM (NamedInput.toInputValue parent) = .ok inputs) :
    ∀ input ∈ inputs, input.IsLegible := by
  intro input member
  obtain ⟨source, _, readInput⟩ := exists_source_of_mapM_ok read input member
  exact source.isLegible_of_toInputValue readInput

theorem NamedField.isLegible_of_toField {parent : String} {source : NamedField}
    {field : SchemaEvolution.Field} (read : source.toField parent = .ok field) :
    field.IsLegible := by
  obtain ⟨type, readType, behind⟩ := ok_of_bind_ok read
  obtain ⟨arguments, readArguments, same⟩ := ok_of_bind_ok behind
  cases same
  exact ⟨isNamed_of_readTypeRef readType, isLegible_of_mapM_toInputValue readArguments⟩

theorem isLegible_of_mapM_toField {parent : String} {sources : List NamedField}
    {fields : List SchemaEvolution.Field}
    (read : sources.mapM (NamedField.toField parent) = .ok fields) :
    ∀ field ∈ fields, field.IsLegible := by
  intro field member
  obtain ⟨source, _, readField⟩ := exists_source_of_mapM_ok read field member
  exact source.isLegible_of_toField readField

theorem NamedType.isLegible_of_toDefinition {source : NamedType} {definition : TypeDefinition}
    (read : source.toDefinition = .ok definition) : definition.IsLegible := by
  cases source with
  | scalar | union | enum =>
      cases read
      trivial
  | object | interface =>
      obtain ⟨fields, readFields, same⟩ := ok_of_bind_ok read
      cases same
      exact isLegible_of_mapM_toField readFields
  | inputObject =>
      obtain ⟨fields, readFields, same⟩ := ok_of_bind_ok read
      cases same
      exact isLegible_of_mapM_toInputValue readFields

theorem interface?_isSome_of_unknownInterface? {document : Document} {type : ObjectType}
    (known : unknownInterface? document (.object type) = none) :
    ∀ name ∈ type.interfaces, (document.interface? name).isSome := by
  intro name listed
  have notFound := List.find?_eq_none.mp (Option.map_eq_none_iff.mp known) name listed
  simpa [Option.isSome_iff_ne_none] using notFound

/-- The check of interfaces is made on the document as it is in the end. -/
theorem Schema.isConverted_of_toDocument {schema : Schema} {document : Document}
    (read : schema.toDocument = .ok document) : document.IsConverted := by
  obtain ⟨definitions, readTypes, checked⟩ := ok_of_bind_ok read
  dsimp only at checked
  split at checked
  · cases checked
  · rename_i known
    cases checked
    have known := List.findSome?_eq_none_iff.mp known
    refine ⟨?_, ?_, ?_⟩
    · intro name definition found
      exact NameMap.name_of_get?_index found
    · intro name type found
      have inValues := NameMap.mem_values_of_get? found
      exact interface?_isSome_of_unknownInterface? (known _ inValues)
    · intro name definition found
      have member : definition ∈ definitions := NameMap.mem_of_get?_index found
      obtain ⟨source, _, readType⟩ := exists_source_of_mapM_ok readTypes definition member
      exact source.isLegible_of_toDefinition readType

end Introspection

theorem Document.isConverted_of_ofIntrospection {payload : Json} {document : Document}
    (read : ofIntrospection payload = .ok document) : document.IsConverted := by
  unfold ofIntrospection at read
  split at read
  · cases read
  · split at read
    · cases read
    · split at read
      · cases read
      · rename_i schema _
        exact schema.isConverted_of_toDocument read

end SchemaEvolution
