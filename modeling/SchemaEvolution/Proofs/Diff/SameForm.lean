import Mathlib.Data.List.Nodup
import SchemaEvolution.Proofs.Canonical
import SchemaEvolution.Proofs.Diff.Reachable
import SchemaEvolution.Proofs.Introspection

/-!
Documents of one canonical form. The form holds members as sets and a comparison takes the last
member of each name, so the two agree where members of one name are written alike; then a document
keeps all that another one of its form has, and their comparison finds no break.
-/

namespace SchemaEvolution

section Namesakes

variable {α β : Type} {name : α → String} {alike : α → α → Prop}

def NamesakesAlike (name : α → String) (alike : α → α → Prop) (items : List α) : Prop :=
  ∀ left ∈ items, ∀ right ∈ items, name left = name right → alike left right

theorem namesakesAlike_of_nodup {items : List α} (distinct : (items.map name).Nodup)
    (refl : ∀ item, alike item item) : NamesakesAlike name alike items := by
  intro left inLeft right inRight sameName
  have same : left = right := List.inj_on_of_nodup_map distinct inLeft inRight sameName
  exact same ▸ refl left

variable [Ord β] [Std.TransOrd β] [Std.LawfulEqOrd β] {form : α → β} {left right : List α}

theorem exists_of_same_forms
    (same : SortedSet.ofList (left.map form) = SortedSet.ofList (right.map form)) {item : α}
    (member : item ∈ left) : ∃ other ∈ right, form other = form item := by
  have inForms : form item ∈ (SortedSet.ofList (right.map form)).elements := by
    rw [← same, SortedSet.mem_elements_ofList]
    exact List.mem_map_of_mem member
  rw [SortedSet.mem_elements_ofList] at inForms
  exact List.mem_map.mp inForms

theorem exists_get?_index_of_same_forms
    (named : ∀ item other, form item = form other → name item = name other)
    (same : SortedSet.ofList (left.map form) = SortedSet.ofList (right.map form)) {key : String}
    {item : α} (found : (NameMap.index name left).get? key = some item) :
    ∃ other, (NameMap.index name right).get? key = some other := by
  obtain ⟨other, inRight, sameForm⟩ :=
    exists_of_same_forms same (NameMap.mem_of_get?_index found)
  have sameName : name other = key :=
    (named other item sameForm).trans (NameMap.name_of_get?_index found)
  exact sameName ▸ NameMap.exists_get?_index name inRight

theorem Diff.keptByName_of_same_forms {kept : α → α → Prop}
    (named : ∀ item other, form item = form other → name item = name other)
    (same : SortedSet.ofList (left.map form) = SortedSet.ofList (right.map form))
    (namesakes : NamesakesAlike name alike left)
    (keeps : ∀ oldItem ∈ left, ∀ namesake ∈ left, ∀ newItem ∈ right, alike oldItem namesake →
      form namesake = form newItem → kept oldItem newItem) :
    KeptByName name kept left right := by
  intro key oldItem oldFound
  obtain ⟨newItem, newFound⟩ := exists_get?_index_of_same_forms named same oldFound
  have inLeft := NameMap.mem_of_get?_index oldFound
  have inRight := NameMap.mem_of_get?_index newFound
  obtain ⟨namesake, isNamesake, sameForm⟩ := exists_of_same_forms same.symm inRight
  have sameName : name oldItem = name namesake := by
    rw [named namesake newItem sameForm, NameMap.name_of_get?_index oldFound,
      NameMap.name_of_get?_index newFound]
  have alikeNamesake := namesakes oldItem inLeft namesake isNamesake sameName
  exact ⟨newItem, newFound, keeps oldItem inLeft namesake isNamesake newItem inRight
    alikeNamesake sameForm⟩

end Namesakes

def InputValue.WrittenAlike (left right : InputValue) : Prop :=
  left.type = right.type ∧
    left.defaultValue?.map Value.text = right.defaultValue?.map Value.text

def Field.WrittenAlike (left right : Field) : Prop :=
  left.type = right.type ∧ left.canonical.arguments = right.canonical.arguments

/-- Fields of one name are written alike, and so are arguments of one name of a field. -/
structure FieldsAlike (fields : List Field) : Prop where
  namesakes : NamesakesAlike Field.name Field.WrittenAlike fields
  arguments : ∀ field ∈ fields,
    NamesakesAlike InputValue.name InputValue.WrittenAlike field.arguments

def TypeDefinition.MembersAlike : TypeDefinition → Prop
  | object type => FieldsAlike type.fields
  | interface type => FieldsAlike type.fields
  | inputObject type => NamesakesAlike InputValue.name InputValue.WrittenAlike type.fields
  | union _ | enum _ | scalar _ => True

def Document.MembersAlike (document : Document) : Prop :=
  ∀ definition ∈ document.types.values, definition.MembersAlike

namespace Diff

theorem keepsDirectives_default (old new : List Directive) : KeepsDirectives default old new :=
  fun enforced => absurd enforced (by decide)

theorem KeepsInput.of_same_texts {old new : InputValue} (oldLegible : old.IsLegible)
    (newLegible : new.IsLegible) (type : old.type.text = new.type.text)
    (defaultText : old.defaultValue?.map Value.text = new.defaultValue?.map Value.text) :
    KeepsInput default old new where
  type := by
    rw [TypeRef.text_inj oldLegible.type newLegible.type type]
    exact TypeRef.mismatch_self _
  defaultKind := by
    intro oldValue newValue oldDefault newDefault
    rw [oldDefault, newDefault] at defaultText
    exact (oldLegible.default _ oldDefault).kind_eq (newLegible.default _ newDefault)
      (Option.some.inj defaultText)
  directives := keepsDirectives_default _ _

theorem inputName_eq_of_form (left right : InputValue) (form : left.canonical = right.canonical) :
    left.name = right.name :=
  congrArg Canonical.InputValue.name form

theorem KeepsInputs.of_same_forms {old new : List InputValue}
    (same : SortedSet.ofList (old.map InputValue.canonical) =
      SortedSet.ofList (new.map InputValue.canonical))
    (namesakes : NamesakesAlike InputValue.name InputValue.WrittenAlike old)
    (oldLegible : ∀ input ∈ old, input.IsLegible) (newLegible : ∀ input ∈ new, input.IsLegible) :
    KeepsInputs default old new where
  kept := by
    apply keptByName_of_same_forms inputName_eq_of_form same namesakes
    rintro oldInput inOld namesake _ newInput inNew ⟨sameType, sameDefault⟩ sameForm
    apply KeepsInput.of_same_texts (oldLegible _ inOld) (newLegible _ inNew)
    · rw [sameType]
      exact congrArg Canonical.InputValue.type sameForm
    · rw [sameDefault]
      exact congrArg Canonical.InputValue.defaultText? sameForm
  added := by
    intro name input found absent
    obtain ⟨oldInput, present⟩ :=
      exists_get?_index_of_same_forms inputName_eq_of_form same.symm found
    rw [present] at absent
    cases absent

theorem fieldName_eq_of_form (left right : Field) (form : left.canonical = right.canonical) :
    left.name = right.name :=
  congrArg Canonical.Field.name form

theorem keepsFields_of_same_forms {old new : List Field}
    (same : SortedSet.ofList (old.map Field.canonical) =
      SortedSet.ofList (new.map Field.canonical))
    (alike : FieldsAlike old) (oldLegible : ∀ field ∈ old, field.IsLegible)
    (newLegible : ∀ field ∈ new, field.IsLegible) :
    KeptByName Field.name (KeepsField default) old new := by
  apply keptByName_of_same_forms fieldName_eq_of_form same alike.namesakes
  rintro oldField inOld namesake _ newField inNew ⟨sameType, sameArguments⟩ sameForm
  have newType : oldField.type.text = newField.type.text := by
    rw [sameType]
    exact congrArg Canonical.Field.type sameForm
  have newArguments : oldField.canonical.arguments = newField.canonical.arguments := by
    rw [sameArguments]
    exact congrArg Canonical.Field.arguments sameForm
  have oldTexts := oldLegible oldField inOld
  have newTexts := newLegible newField inNew
  refine ⟨?_, ?_, keepsDirectives_default _ _⟩
  · rw [TypeRef.text_inj oldTexts.type newTexts.type newType]
    exact TypeRef.mismatch_self _
  · exact KeepsInputs.of_same_forms newArguments (alike.arguments oldField inOld)
      oldTexts.arguments newTexts.arguments

theorem KeepsInterface.of_same_form {old new : InterfaceType}
    (same : (TypeDefinition.interface old).canonical = (TypeDefinition.interface new).canonical)
    (alike : FieldsAlike old.fields) (oldLegible : ∀ field ∈ old.fields, field.IsLegible)
    (newLegible : ∀ field ∈ new.fields, field.IsLegible) : KeepsInterface default old new where
  fields := keepsFields_of_same_forms (congrArg Canonical.TypeForm.fields same) alike
    oldLegible newLegible
  directives := keepsDirectives_default _ _

theorem KeepsDefinition.of_same_form {oldDocument newDocument : Document} {old new : TypeDefinition}
    (interfaces : ∀ name oldInterface, oldDocument.interface? name = some oldInterface →
      ∃ newInterface, newDocument.interface? name = some newInterface ∧
        KeepsInterface default oldInterface newInterface)
    (same : old.canonical = new.canonical) (alike : old.MembersAlike) (oldLegible : old.IsLegible)
    (newLegible : new.IsLegible) : KeepsDefinition default oldDocument newDocument old new := by
  have kind : old.kind = new.kind := TypeDefinition.kind_eq_of_canonical_eq same
  cases old <;> cases new
  case object.object old new =>
    have listed (name : String) : name ∈ old.interfaces ↔ name ∈ new.interfaces := by
      rw [← SortedSet.mem_elements_ofList name old.interfaces,
        ← SortedSet.mem_elements_ofList name new.interfaces]
      exact iff_of_eq (congrArg (name ∈ ·.interfaces.elements) same)
    refine ⟨?_, ?_, keepsDirectives_default _ _⟩
    · exact keepsFields_of_same_forms (congrArg Canonical.TypeForm.fields same) alike oldLegible
        newLegible
    · intro name inOld oldInterface found
      exact ⟨(listed name).mp inOld, interfaces name oldInterface found⟩
  case interface.interface old new =>
    exact KeepsInterface.of_same_form same alike oldLegible newLegible
  case union.union old new =>
    refine ⟨fun member inOld => ?_, keepsDirectives_default _ _⟩
    have members : SortedSet.ofList old.members = SortedSet.ofList new.members :=
      congrArg Canonical.TypeForm.members same
    rw [← SortedSet.mem_elements_ofList, ← members, SortedSet.mem_elements_ofList]
    exact inOld
  case enum.enum old new =>
    refine ⟨fun key oldValue found => ?_, keepsDirectives_default _ _⟩
    have values : SortedSet.ofList (old.values.map EnumValue.canonical) =
        SortedSet.ofList (new.values.map EnumValue.canonical) :=
      congrArg Canonical.TypeForm.values same
    have named (left right : EnumValue) (form : left.canonical = right.canonical) :
        left.name = right.name := congrArg Canonical.EnumValue.name form
    obtain ⟨newValue, newFound⟩ := exists_get?_index_of_same_forms named values found
    exact ⟨newValue, newFound, keepsDirectives_default _ _⟩
  case inputObject.inputObject old new =>
    refine ⟨?_, keepsDirectives_default _ _⟩
    exact KeepsInputs.of_same_forms (congrArg Canonical.TypeForm.inputFields same) alike oldLegible
      newLegible
  case scalar.scalar old new => exact keepsDirectives_default _ _
  all_goals cases kind

section Documents

variable {old new : Document} (oldConverted : old.IsConverted) (newConverted : new.IsConverted)
variable (same : old.canonical = new.canonical)

include same

include oldConverted newConverted

theorem exists_type_of_same_form {name : String} {definition : TypeDefinition}
    (found : old.type? name = some definition) :
    ∃ other, new.type? name = some other ∧ other.canonical = definition.canonical := by
  have types : SortedSet.ofList (old.types.values.map TypeDefinition.canonical) =
      SortedSet.ofList (new.types.values.map TypeDefinition.canonical) :=
    congrArg Canonical.DocumentForm.types same
  obtain ⟨other, inValues, sameForm⟩ :=
    exists_of_same_forms types (NameMap.mem_values_of_get? found)
  obtain ⟨key, otherFound⟩ := NameMap.exists_get?_of_mem_values inValues
  have isKey : key = name := by
    rw [← newConverted.keyed key other otherFound, ← TypeDefinition.canonical_name, sameForm,
      TypeDefinition.canonical_name]
    exact oldConverted.keyed name definition found
  exact ⟨other, isKey ▸ otherFound, sameForm⟩

variable (alike : old.MembersAlike)

include alike

theorem exists_interface_of_same_form {name : String} {oldInterface : InterfaceType}
    (found : old.interface? name = some oldInterface) :
    ∃ newInterface, new.interface? name = some newInterface ∧
      KeepsInterface default oldInterface newInterface := by
  have oldFound := (interface?_eq_some_iff old name oldInterface).mp found
  obtain ⟨other, otherFound, sameForm⟩ :=
    exists_type_of_same_form oldConverted newConverted same oldFound
  have kind : other.kind = .interface := TypeDefinition.kind_eq_of_canonical_eq sameForm
  cases other with
  | interface newInterface =>
      refine ⟨newInterface, (interface?_eq_some_iff new name newInterface).mpr otherFound,
        ?_⟩
      have interfaceAlike := alike _ (NameMap.mem_values_of_get? oldFound)
      exact KeepsInterface.of_same_form sameForm.symm interfaceAlike
        (oldConverted.legible name _ oldFound) (newConverted.legible name _ otherFound)
  | object _ | union _ | enum _ | scalar _ | inputObject _ => cases kind

/-- The script of a name and itself is quiet, whether or not the name can be reached. -/
theorem quiet_script_of_same_form (name : String) : Quiet (script default old new name name) := by
  rw [quiet_script_iff]
  intro definition _ found
  obtain ⟨other, otherFound, sameForm⟩ :=
    exists_type_of_same_form oldConverted newConverted same found
  have resolved : ResolvesInterfaces old definition := by
    cases definition with
    | object type => exact oldConverted.resolved name type found
    | interface _ | union _ | enum _ | scalar _ | inputObject _ => trivial
  refine ⟨resolved, other, otherFound, ?_⟩
  exact KeepsDefinition.of_same_form
    (fun _ _ => exists_interface_of_same_form oldConverted newConverted same alike)
    sameForm.symm (alike _ (NameMap.mem_values_of_get? found))
    (oldConverted.legible name _ found) (newConverted.legible name _ otherFound)

theorem breakingCount_of_same_form : (diff default old new).breakingCount = .ok 0 := by
  apply breakingCount_eq_ok_zero_of_quiet
  · intro operation oldRoot newRoot isOld isNew
    rw [Document.root?_eq_of_canonical_eq same operation, isNew] at isOld
    exact (Option.some.inj isOld).symm
  · intro operation offered
    rw [← Document.root?_eq_of_canonical_eq same operation]
    exact offered
  · exact fun name _ => quiet_script_of_same_form oldConverted newConverted same alike name

end Documents

end Diff

end SchemaEvolution
