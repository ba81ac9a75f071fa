import Mathlib
import SchemaEvolution.Proofs.Diff.FieldRemoval

/-!
Where events are. Whatever a comparison reports is about an operation that is lost, about a name for
which the old schema has no type, or about a place of the old schema: a type of the kind that is
given, and a field of it if one is given. The one place that is not there yet is a field that the
new schema demands of an input object. This holds of each event on its own, so also where a
comparison gives up.
-/

namespace SchemaEvolution

def TypeDefinition.fieldNames : TypeDefinition → List String
  | inputObject type => type.fields.map InputValue.name
  | definition => definition.fields.map Field.name

theorem TypeDefinition.kind_ne_operation (definition : TypeDefinition) :
    definition.kind ≠ .operation := by
  cases definition <;> exact nofun

namespace Document

/-- The schema defines a type of the name and kind, with a field of the name if there is one. -/
def HasPlace (document : Document) (location : Location) : Prop :=
  ∃ definition, document.type? location.typeName = some definition ∧
    location.kind? = some definition.kind ∧
    ∀ field, location.fieldName? = some field → field ∈ definition.fieldNames

variable {document : Document} {name : String} {definition : TypeDefinition}

theorem hasPlace_type (found : document.type? name = some definition) :
    document.HasPlace ⟨name, none, some definition.kind⟩ :=
  ⟨definition, found, rfl, nofun⟩

theorem hasPlace_field (found : document.type? name = some definition) {field : String}
    (isField : field ∈ definition.fieldNames) :
    document.HasPlace ⟨name, some field, some definition.kind⟩ := by
  refine ⟨definition, found, rfl, fun other same => ?_⟩
  cases same
  exact isField

end Document

namespace Diff

section Reports

variable {options : Options} {oldDocument newDocument : Document} {event : Event}

/-- The event is about a type that the schema defines, and about a field of it if it names one. A
field that the type lacks can only be a new field that an input object demands. -/
def PointsAt (document : Document) (event : Event) : Prop :=
  ∃ definition, document.type? event.location.typeName = some definition ∧
    event.location.kind? = some definition.kind ∧
    ∀ field, event.location.fieldName? = some field → field ∈ definition.fieldNames ∨
      (definition.kind = .inputObject ∧ event.category? = some .stricter ∧
        field ∉ definition.fieldNames)

theorem pointsAt_of_hasPlace {document : Document} (hasPlace : document.HasPlace event.location) :
    PointsAt document event := by
  obtain ⟨definition, found, kind, isField⟩ := hasPlace
  exact ⟨definition, found, kind, fun field named => Or.inl (isField field named)⟩

theorem FieldsReport.hasPlace {owner : Owner} {old new : List Field} {definition : TypeDefinition}
    (report : FieldsReport options owner old new event)
    (found : oldDocument.type? owner.name = some definition) (kind : owner.kind = definition.kind)
    (names : definition.fieldNames = old.map Field.name) :
    oldDocument.HasPlace event.location := by
  obtain ⟨field, isField, place⟩ := report.exists_location
  rw [place, Owner.member, kind]
  exact Document.hasPlace_field found (names ▸ List.mem_map_of_mem isField)

theorem InterfaceReport.hasPlace {old new : InterfaceType}
    (report : InterfaceReport options old new event)
    (found : oldDocument.type? old.name = some (.interface old)) :
    oldDocument.HasPlace event.location := by
  cases report with
  | fields report => exact report.hasPlace found rfl rfl
  | directive _ report =>
      rw [report.location_eq]
      exact Document.hasPlace_type found

variable (keyed : ∀ name definition, oldDocument.type? name = some definition →
  definition.name = name)

include keyed

theorem DefinitionReport.pointsAt {name : String} {old new : TypeDefinition}
    (report : DefinitionReport options oldDocument newDocument name old new event)
    (found : oldDocument.type? name = some old) : PointsAt oldDocument event := by
  obtain rfl : old.name = name := keyed name old found
  cases report with
  | rekinded different => exact pointsAt_of_hasPlace (Document.hasPlace_type found)
  | fields report => exact pointsAt_of_hasPlace (report.hasPlace found rfl rfl)
  | interface report => exact pointsAt_of_hasPlace (report.hasPlace found)
  | @implemented _ _ implemented oldInterface _ _ _ oldIs _ _ report =>
      have interfaceFound := (interface?_eq_some_iff _ _ _).mp oldIs
      obtain rfl : oldInterface.name = implemented := keyed _ _ interfaceFound
      exact pointsAt_of_hasPlace (report.hasPlace interfaceFound)
  | interfaceLost | memberLost | memberAdded | valueLost | valueAdded =>
      exact pointsAt_of_hasPlace (Document.hasPlace_type found)
  | valueKept _ _ _ report | directive _ _ report =>
      apply pointsAt_of_hasPlace
      rw [report.location_eq]
      exact Document.hasPlace_type found
  | inputFieldLost isField _ =>
      apply pointsAt_of_hasPlace
      exact Document.hasPlace_field found (NameMap.mem_map_of_get?_index isField)
  | inputFieldKept isField _ report =>
      apply pointsAt_of_hasPlace
      rw [report.location_eq]
      exact Document.hasPlace_field found (NameMap.mem_map_of_get?_index isField)
  | inputFieldDemanded _ absent _ =>
      refine ⟨_, found, rfl, fun field named => Or.inr ⟨rfl, rfl, ?_⟩⟩
      cases named
      exact (NameMap.get?_index_eq_none_iff _ _ _).mp absent

theorem TypeReport.pointsAt_or_undefined {oldName newName : String}
    (report : TypeReport options oldDocument newDocument oldName newName event) :
    PointsAt oldDocument event ∨
      (event.location.kind? = none ∧ event.finding = .progress ∧
        oldDocument.type? event.location.typeName = none) := by
  cases report with
  | undefined _ missing => exact Or.inr ⟨rfl, rfl, missing⟩
  | examined _ found | lost _ found _ =>
      exact Or.inl (pointsAt_of_hasPlace (Document.hasPlace_type found))
  | definition _ found _ report => exact Or.inl (report.pointsAt keyed found)

end Reports

/-- Every event of a comparison, also of one that gives up, points at something in the old schema:
at a type of the kind that it names and at a field of that type, except for a field that the new
schema demands of an input object; at a name without a type; or at an operation that is lost. -/
theorem events_point_at_old_schema (options : Options) (oldDocument newDocument : Document)
    (keyed : ∀ name definition, oldDocument.type? name = some definition → definition.name = name)
    (event : Event) (member : event ∈ (diff options oldDocument newDocument).events) :
    (∀ kind, event.location.kind? = some kind → kind ≠ .operation →
      ∃ definition, oldDocument.type? event.location.typeName = some definition ∧
        definition.kind = kind) ∧
    (event.location.kind? = none →
      event.finding = .progress ∧ oldDocument.type? event.location.typeName = none) ∧
    (event.location.kind? = some .operation → ∃ operation root,
      event.location = ⟨operation.conventionalName, some operation.keyword, some .operation⟩ ∧
      event.finding = .breaking .missing [operation.keyword] ∧
      oldDocument.root? operation = some root ∧ newDocument.root? operation = none) ∧
    ∀ definition field, oldDocument.type? event.location.typeName = some definition →
      event.location.kind? = some definition.kind → event.location.fieldName? = some field →
      field ∈ definition.fieldNames ∨
        (definition.kind = .inputObject ∧ event.category? = some .stricter ∧
          field ∉ definition.fieldNames) := by
  have notOperation := TypeDefinition.kind_ne_operation
  rcases report_of_mem_diff_events member with ⟨isOld, isNew⟩ | ⟨pair, _, report⟩
  · refine ⟨fun kind isKind different => ?_, nofun, fun _ => ⟨_, _, rfl, rfl, isOld, isNew⟩,
      fun definition _ _ isKind => ?_⟩
    · exact absurd (Option.some.inj isKind).symm different
    · exact absurd (Option.some.inj isKind).symm (notOperation definition)
  · rcases report.pointsAt_or_undefined keyed with
      ⟨definition, found, isKind, fields⟩ | ⟨noKind, progress, missing⟩
    · rw [found, isKind]
      refine ⟨fun kind same _ => ⟨definition, rfl, Option.some.inj same⟩, nofun,
        fun isOperation => absurd (Option.some.inj isOperation) (notOperation definition), ?_⟩
      rintro other field same _ named
      cases same
      exact fields field named
    · rw [noKind]
      exact ⟨nofun, fun _ => ⟨progress, missing⟩, nofun, fun _ _ _ => nofun⟩

def lostItemRoot : TypeDefinition :=
  .object ⟨"Root", [⟨"gone", .named "Gone", [], []⟩,
    ⟨"item", .named "Item", [⟨"key", .named "Key", none, []⟩], []⟩], [], []⟩

def lostItem : TypeDefinition :=
  .object ⟨"Item", [⟨"id", .named "ID", [], []⟩], ["Node", "Void"], []⟩

def lostTypes : List TypeDefinition :=
  [lostItemRoot, lostItem, .interface ⟨"Node", [⟨"id", .named "ID", [], []⟩], []⟩,
    .inputObject ⟨"Key", [⟨"id", .named "ID", none, []⟩], []⟩]

def foundTypes : List TypeDefinition :=
  [lostItemRoot, lostItem, .interface ⟨"Node", [], []⟩,
    .inputObject ⟨"Key", [⟨"id", .named "ID", none, []⟩,
      ⟨"size", .nonNull (.named "Int"), none, []⟩], []⟩]

def lostSchema : Document :=
  (Document.rooted lostTypes).setRoot .mutation (some "Root")

def foundSchema : Document :=
  ((Document.rooted foundTypes).setRoot .mutation (some "Root")).setRoot .query none

def lostQuery : Event :=
  .breaking .missing ⟨"Query", some "query", some .operation⟩ ["query"]
    "The new API no longer has the operation 'query'"

def goneMissing : Event :=
  .progress ⟨"Gone", none, none⟩ "Type 'Gone' is missing"

def demandedSize : Event :=
  .breaking .stricter ⟨"Key", some "size", some .inputObject⟩ ["size"]
    "The new API has made the new input field 'size' non null and hence more strict for old consumers"

theorem lostSchema_events_placed :
    (∀ name definition, lostSchema.type? name = some definition → definition.name = name) ∧
      (diff default lostSchema foundSchema).failure? = some ⟨"Item", "Void"⟩ ∧
      (lostQuery ∈ (diff default lostSchema foundSchema).events ∧
        ∃ operation root, lostQuery.location.fieldName? = some operation.keyword ∧
          lostSchema.root? operation = some root ∧ foundSchema.root? operation = none) ∧
      (goneMissing ∈ (diff default lostSchema foundSchema).events ∧
        lostSchema.type? "Gone" = none) ∧
      (demandedSize ∈ (diff default lostSchema foundSchema).events ∧
        ∃ definition, lostSchema.type? "Key" = some definition ∧ definition.kind = .inputObject ∧
          "size" ∉ definition.fieldNames ∧ demandedSize.category? = some .stricter) ∧
      fieldLoss ⟨"Node", .interface⟩ "id" ∈ (diff default lostSchema foundSchema).events ∧
        ∃ definition, lostSchema.type? "Node" = some definition ∧ definition.kind = .interface ∧
          "id" ∈ definition.fieldNames := by
  have keyed : ∀ name definition, lostSchema.type? name = some definition →
      definition.name = name := Document.keyed_rooted lostTypes
  have gaveUp : (diff default lostSchema foundSchema).failure? = some ⟨"Item", "Void"⟩ := by cbv
  have reported : [lostQuery, goneMissing, demandedSize, fieldLoss ⟨"Node", .interface⟩ "id"].all
      (diff default lostSchema foundSchema).events.contains = true := by cbv
  simp only [List.all_cons, List.all_nil, Bool.and_true, Bool.and_eq_true,
    List.contains_iff_mem] at reported
  obtain ⟨queryReported, goneReported, sizeReported, idReported⟩ := reported
  have placed := events_point_at_old_schema default lostSchema foundSchema keyed
  obtain ⟨_, _, ofOperation, _⟩ := placed lostQuery queryReported
  obtain ⟨operation, root, place, _, isOld, isNew⟩ := ofOperation rfl
  obtain ⟨_, undefined, _, _⟩ := placed goneMissing goneReported
  obtain ⟨ofKey, _, _, keyField⟩ := placed demandedSize sizeReported
  obtain ⟨key, keyFound, keyKind⟩ := ofKey .inputObject rfl (by decide)
  have size := keyField key "size" keyFound (congrArg some keyKind.symm) rfl
  have lacking : "size" ∉ key.fieldNames := by
    have isKey : lostSchema.type? "Key" =
        some (.inputObject ⟨"Key", [⟨"id", .named "ID", none, []⟩], []⟩) := by cbv
    cases keyFound.symm.trans isKey
    decide
  obtain ⟨_, stricter, _⟩ := size.resolve_left lacking
  obtain ⟨ofNode, _, _, nodeField⟩ := placed _ idReported
  obtain ⟨node, nodeFound, nodeKind⟩ := ofNode .interface rfl (by decide)
  have id := nodeField node "id" nodeFound (congrArg some nodeKind.symm) rfl
  refine ⟨keyed, gaveUp, ⟨queryReported, operation, root, congrArg Location.fieldName? place, isOld,
    isNew⟩, ⟨goneReported, (undefined rfl).2⟩, ⟨sizeReported, key, keyFound, keyKind, lacking,
    stricter⟩, idReported, node, nodeFound, nodeKind, id.resolve_right fun demanded => ?_⟩
  rw [nodeKind] at demanded
  cases demanded.1

end Diff

end SchemaEvolution
