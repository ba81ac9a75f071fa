import SchemaEvolution.Proofs.Diff.Comparisons
import SchemaEvolution.Proofs.SortedSet

/-!
What a comparison may report, one relation for each level of members: an event is listed with the
difference that it stands for. Texts of findings are left open, since nothing but their readers
depends on them; those of progress tell what was looked at and are given.
-/

namespace SchemaEvolution.Diff

inductive DirectiveReport (location : Location) (old new : List Directive) : Event → Prop
  | lost {name reason : String} {directive : Directive} :
      (NameMap.index Directive.name old).get? name = some directive →
      (NameMap.index Directive.name new).get? name = none →
      DirectiveReport location old new (.breaking .missing location [name] reason)
  | fewerArguments {name reason : String} {directive newDirective : Directive} :
      (NameMap.index Directive.name old).get? name = some directive →
      (NameMap.index Directive.name new).get? name = some newDirective →
      newDirective.arguments.size < directive.arguments.size →
      DirectiveReport location old new (.breaking .missing location [name] reason)
  | argumentLost {name argument reason : String} {directive newDirective : Directive}
      {value : Value} :
      (NameMap.index Directive.name old).get? name = some directive →
      (NameMap.index Directive.name new).get? name = some newDirective →
      directive.arguments.get? argument = some value →
      newDirective.arguments.get? argument = none →
      DirectiveReport location old new (.breaking .missing location [name, argument] reason)
  | argumentReformed {name argument reason : String} {directive newDirective : Directive}
      {value newValue : Value} :
      (NameMap.index Directive.name old).get? name = some directive →
      (NameMap.index Directive.name new).get? name = some newDirective →
      directive.arguments.get? argument = some value →
      newDirective.arguments.get? argument = some newValue →
      newValue.kind ≠ value.kind →
      DirectiveReport location old new (.breaking .invalid location [name, argument] reason)

inductive InputReport (options : Options) (location : Location) (old new : InputValue) :
    Event → Prop
  | retyped {category : Category} {reason : String} :
      old.type.mismatch new.type = some category →
      InputReport options location old new
        (.breaking category location [old.type.text, new.type.text] reason)
  | defaultReformed {oldValue newValue : Value} {reason : String} :
      old.defaultValue? = some oldValue → new.defaultValue? = some newValue →
      oldValue.kind ≠ newValue.kind →
      InputReport options location old new (.breaking .invalid location [old.name] reason)
  | defaultChanged {reason : String} :
      old.defaultValue? ≠ new.defaultValue? →
      InputReport options location old new (.dangerous .different location [old.name] reason)
  | directive {event : Event} :
      options.enforceDirectives = true →
      DirectiveReport location old.directives new.directives event →
      InputReport options location old new event

inductive FieldReport (options : Options) (owner : Owner) (old new : Field) : Event → Prop
  | retyped {category : Category} {reason : String} :
      old.type.mismatch new.type = some category →
      FieldReport options owner old new
        (.breaking category (owner.member old.name) [old.type.text, new.type.text] reason)
  | fewerArguments {reason : String} :
      (NameMap.index InputValue.name new.arguments).size <
        (NameMap.index InputValue.name old.arguments).size →
      FieldReport options owner old new (.breaking .missing (owner.member old.name) [] reason)
  | argument {name : String} {argument : InputValue} :
      (NameMap.index InputValue.name old.arguments).get? name = some argument →
      FieldReport options owner old new
        (.progress (owner.member old.name) s!"field argument '{name}' ...")
  | argumentLost {name reason : String} {argument : InputValue} :
      (NameMap.index InputValue.name old.arguments).get? name = some argument →
      (NameMap.index InputValue.name new.arguments).get? name = none →
      FieldReport options owner old new (.breaking .missing (owner.member old.name) [name] reason)
  | argumentKept {name : String} {argument newArgument : InputValue} {event : Event} :
      (NameMap.index InputValue.name old.arguments).get? name = some argument →
      (NameMap.index InputValue.name new.arguments).get? name = some newArgument →
      InputReport options (owner.member old.name) argument newArgument event →
      FieldReport options owner old new event
  | argumentDemanded {name reason : String} {argument : InputValue} :
      (NameMap.index InputValue.name new.arguments).get? name = some argument →
      (NameMap.index InputValue.name old.arguments).get? name = none →
      argument.isRequired = true →
      FieldReport options owner old new (.breaking .stricter (owner.member old.name) [name] reason)
  | directive {event : Event} :
      options.enforceDirectives = true →
      DirectiveReport (owner.member old.name) old.directives new.directives event →
      FieldReport options owner old new event

inductive FieldsReport (options : Options) (owner : Owner) (old new : List Field) : Event → Prop
  | field {name : String} {field : Field} :
      (NameMap.index Field.name old).get? name = some field →
      FieldsReport options owner old new (.progress (owner.member name) s!"field '{name}' ...")
  | lost {name reason : String} {field : Field} :
      (NameMap.index Field.name old).get? name = some field →
      (NameMap.index Field.name new).get? name = none →
      FieldsReport options owner old new (.breaking .missing (owner.member name) [] reason)
  | kept {name : String} {field newField : Field} {event : Event} :
      (NameMap.index Field.name old).get? name = some field →
      (NameMap.index Field.name new).get? name = some newField →
      FieldReport options owner field newField event →
      FieldsReport options owner old new event

inductive InterfaceReport (options : Options) (old new : InterfaceType) : Event → Prop
  | fields {event : Event} :
      FieldsReport options ⟨old.name, .interface⟩ old.fields new.fields event →
      InterfaceReport options old new event
  | directive {event : Event} :
      options.enforceDirectives = true →
      DirectiveReport ⟨old.name, none, some .interface⟩ old.directives new.directives event →
      InterfaceReport options old new event

inductive DefinitionReport (options : Options) (oldDocument newDocument : Document)
    (name : String) : TypeDefinition → TypeDefinition → Event → Prop
  | rekinded {old new : TypeDefinition} {reason : String} :
      old.kind ≠ new.kind →
      DefinitionReport options oldDocument newDocument name old new
        (.breaking .invalid ⟨name, none, some old.kind⟩ [old.kind.text, new.kind.text] reason)
  | fields {old new : ObjectType} {event : Event} :
      FieldsReport options ⟨old.name, .object⟩ old.fields new.fields event →
      DefinitionReport options oldDocument newDocument name (.object old) (.object new) event
  | interface {old new : InterfaceType} {event : Event} :
      InterfaceReport options old new event →
      DefinitionReport options oldDocument newDocument name (.interface old) (.interface new) event
  | implemented {old new : ObjectType} {implemented : String}
      {oldInterface newInterface : InterfaceType} {event : Event} :
      implemented ∈ old.interfaces →
      oldDocument.interface? implemented = some oldInterface →
      implemented ∈ new.interfaces →
      newDocument.interface? implemented = some newInterface →
      InterfaceReport options oldInterface newInterface event →
      DefinitionReport options oldDocument newDocument name (.object old) (.object new) event
  | interfaceLost {old new : ObjectType} {implemented reason : String}
      {oldInterface : InterfaceType} :
      implemented ∈ old.interfaces →
      oldDocument.interface? implemented = some oldInterface →
      (implemented ∈ new.interfaces → newDocument.interface? implemented = none) →
      DefinitionReport options oldDocument newDocument name (.object old) (.object new)
        (.breaking .missing ⟨old.name, none, some .object⟩ [implemented] reason)
  | memberLost {old new : UnionType} {member reason : String} :
      member ∈ old.members → member ∉ new.members →
      DefinitionReport options oldDocument newDocument name (.union old) (.union new)
        (.breaking .missing ⟨old.name, none, some .union⟩ [member] reason)
  | memberAdded {old new : UnionType} {member reason : String} :
      member ∈ new.members → member ∉ old.members →
      DefinitionReport options oldDocument newDocument name (.union old) (.union new)
        (.dangerous .addition ⟨old.name, none, some .union⟩ [member] reason)
  | valueLost {old new : EnumType} {key reason : String} {value : EnumValue} :
      (NameMap.index EnumValue.name old.values).get? key = some value →
      (NameMap.index EnumValue.name new.values).get? key = none →
      DefinitionReport options oldDocument newDocument name (.enum old) (.enum new)
        (.breaking .missing ⟨old.name, none, some .enum⟩ [key] reason)
  | valueAdded {old new : EnumType} {key reason : String} {value : EnumValue} :
      (NameMap.index EnumValue.name new.values).get? key = some value →
      (NameMap.index EnumValue.name old.values).get? key = none →
      DefinitionReport options oldDocument newDocument name (.enum old) (.enum new)
        (.dangerous .addition ⟨old.name, none, some .enum⟩ [key] reason)
  | valueKept {old new : EnumType} {key : String} {value newValue : EnumValue} {event : Event} :
      (NameMap.index EnumValue.name old.values).get? key = some value →
      (NameMap.index EnumValue.name new.values).get? key = some newValue →
      options.enforceDirectives = true →
      DirectiveReport ⟨old.name, none, some .enum⟩ value.directives newValue.directives event →
      DefinitionReport options oldDocument newDocument name (.enum old) (.enum new) event
  | inputFieldLost {old new : InputObjectType} {key reason : String} {field : InputValue} :
      (NameMap.index InputValue.name old.fields).get? key = some field →
      (NameMap.index InputValue.name new.fields).get? key = none →
      DefinitionReport options oldDocument newDocument name (.inputObject old) (.inputObject new)
        (.breaking .missing ⟨old.name, some key, some .inputObject⟩ [] reason)
  | inputFieldKept {old new : InputObjectType} {key : String} {field newField : InputValue}
      {event : Event} :
      (NameMap.index InputValue.name old.fields).get? key = some field →
      (NameMap.index InputValue.name new.fields).get? key = some newField →
      InputReport options ⟨old.name, some key, some .inputObject⟩ field newField event →
      DefinitionReport options oldDocument newDocument name (.inputObject old) (.inputObject new)
        event
  | inputFieldDemanded {old new : InputObjectType} {key reason : String} {field : InputValue} :
      (NameMap.index InputValue.name new.fields).get? key = some field →
      (NameMap.index InputValue.name old.fields).get? key = none →
      field.isRequired = true →
      DefinitionReport options oldDocument newDocument name (.inputObject old) (.inputObject new)
        (.breaking .stricter ⟨old.name, some key, some .inputObject⟩ [key] reason)
  | directive {old new : TypeDefinition} {event : Event} :
      old.kind = new.kind → options.enforceDirectives = true →
      DirectiveReport ⟨old.name, none, some old.kind⟩ old.directives new.directives event →
      DefinitionReport options oldDocument newDocument name old new event

/-- The reports about an old type that is turned to, together with a new one. -/
inductive TypeReport (options : Options) (oldDocument newDocument : Document)
    (oldName newName : String) : Event → Prop
  | undefined :
      isExempt oldName = false → oldDocument.type? oldName = none →
      TypeReport options oldDocument newDocument oldName newName
        (.progress ⟨oldName, none, none⟩ s!"Type '{oldName}' is missing")
  | examined {old : TypeDefinition} :
      isExempt oldName = false → oldDocument.type? oldName = some old →
      TypeReport options oldDocument newDocument oldName newName
        (.progress ⟨oldName, none, some old.kind⟩ s!"Examining type '{oldName}' ...")
  | lost {old : TypeDefinition} {reason : String} :
      isExempt oldName = false → oldDocument.type? oldName = some old →
      newDocument.type? newName = none →
      TypeReport options oldDocument newDocument oldName newName
        (.breaking .missing ⟨oldName, none, some old.kind⟩ [] reason)
  | definition {old new : TypeDefinition} {event : Event} :
      isExempt oldName = false → oldDocument.type? oldName = some old →
      newDocument.type? newName = some new →
      DefinitionReport options oldDocument newDocument oldName old new event →
      TypeReport options oldDocument newDocument oldName newName event

inductive OperationReport (oldDocument newDocument : Document) : Event → Prop
  | lost {operation : OperationType} {root reason : String} :
      oldDocument.root? operation = some root → newDocument.root? operation = none →
      OperationReport oldDocument newDocument
        (.breaking .missing
          ⟨operation.conventionalName, some operation.keyword, some .operation⟩
          [operation.keyword] reason)

/-! ### Scripts report nothing else -/

section Inversion

variable {options : Options} {event : Event}

private theorem directiveReport_of_arguments {location : Location} {name : String}
    {olds news : List Directive} {old new : Directive}
    (oldFound : (NameMap.index Directive.name olds).get? name = some old)
    (newFound : (NameMap.index Directive.name news).get? name = some new)
    (member : event ∈ directiveArgumentEvents location name old new) :
    DirectiveReport location olds news event := by
  unfold directiveArgumentEvents at member
  split at member
  · rename_i fewer
    cases List.mem_singleton.mp member
    exact .fewerArguments oldFound newFound fewer
  · rw [NameMap.mem_flatMap_entries_iff] at member
    obtain ⟨argument, value, has, inEntry⟩ := member
    dsimp only at inEntry
    split at inEntry
    · rename_i newHas
      cases List.mem_singleton.mp inEntry
      exact .argumentLost oldFound newFound has newHas
    · rename_i newValue newHas
      split at inEntry
      · cases inEntry
      · rename_i different
        cases List.mem_singleton.mp inEntry
        exact .argumentReformed oldFound newFound has newHas different

theorem directiveReport_of_mem {location : Location} {old new : List Directive}
    (member : .report event ∈ directivesScript options location old new) :
    options.enforceDirectives = true ∧ DirectiveReport location old new event := by
  unfold directivesScript at member
  split at member
  · rename_i enforced
    refine ⟨enforced, ?_⟩
    rw [NameMap.mem_flatMap_entries_iff] at member
    obtain ⟨name, directive, found, inEntry⟩ := member
    dsimp only at inEntry
    split at inEntry
    · rename_i newFound
      cases List.mem_singleton.mp inEntry
      exact .lost found newFound
    · rename_i newDirective newFound
      obtain ⟨other, inEvents, same⟩ := List.mem_map.mp inEntry
      cases same
      exact directiveReport_of_arguments found newFound inEvents
  · cases member

private theorem inputReport_of_default {location : Location} {subject : String}
    {old new : InputValue}
    (member : .report event ∈ defaultScript location subject old new) :
    InputReport options location old new event := by
  rcases List.mem_append.mp member with formChange | change
  · split at formChange
    · rename_i oldValue newValue had has
      split at formChange
      · cases formChange
      · rename_i different
        cases List.mem_singleton.mp formChange
        exact .defaultReformed had has different
    · cases formChange
  · split at change
    · cases change
    · rename_i different
      cases List.mem_singleton.mp change
      exact .defaultChanged different

theorem inputReport_of_mem_argumentScript {owner : Owner} {fieldName : String}
    {old new : InputValue}
    (member : .report event ∈ argumentScript options owner fieldName old new) :
    InputReport options (owner.member fieldName) old new event := by
  unfold argumentScript at member
  rcases List.mem_append.mp member with ofType | ofDirectives
  · rcases List.mem_append.mp ofType with typeSteps | ofDefault
    · split at typeSteps
      · rename_i category mismatched
        cases List.mem_singleton.mp typeSteps
        exact .retyped mismatched
      · cases List.mem_singleton.mp typeSteps
    · exact inputReport_of_default ofDefault
  · obtain ⟨enforced, report⟩ := directiveReport_of_mem ofDirectives
    exact .directive enforced report

theorem inputReport_of_mem_inputFieldScript {owner : Owner} {name : String} {old new : InputValue}
    (member : .report event ∈ inputFieldScript options owner name old new) :
    InputReport options (owner.member name) old new event := by
  unfold inputFieldScript at member
  rcases List.mem_append.mp member with reports | followed
  · rcases List.mem_append.mp reports with ofType | ofDirectives
    · rcases List.mem_append.mp ofType with typeChange | ofDefault
      · split at typeChange
        · rename_i category mismatched
          cases List.mem_singleton.mp typeChange
          exact .retyped mismatched
        · cases typeChange
      · exact inputReport_of_default ofDefault
    · obtain ⟨enforced, report⟩ := directiveReport_of_mem ofDirectives
      exact .directive enforced report
  · split at followed
    · cases List.mem_singleton.mp followed
    · cases followed

private theorem absent_and_required {inputs : List InputValue} {name : String} {input : InputValue}
    (demanded : (!(NameMap.index InputValue.name inputs).contains name && input.isRequired) = true) :
    (NameMap.index InputValue.name inputs).get? name = none ∧ input.isRequired = true := by
  obtain ⟨absent, required⟩ := Bool.and_eq_true_iff.mp demanded
  rw [Bool.not_eq_true', NameMap.contains_eq_false_iff] at absent
  exact ⟨absent, required⟩

private theorem fieldReport_of_arguments {owner : Owner} {old new : Field}
    (member : .report event ∈ argumentsScript options owner old new) :
    FieldReport options owner old new event := by
  unfold argumentsScript at member
  dsimp only at member
  split at member
  · rename_i fewer
    cases List.mem_singleton.mp member
    exact .fewerArguments fewer
  · rcases List.mem_append.mp member with kept | added
    · rw [NameMap.mem_flatMap_entries_iff] at kept
      obtain ⟨name, argument, found, inEntry⟩ := kept
      rcases List.mem_cons.mp inEntry with atHead | further
      · cases atHead
        exact .argument found
      · dsimp only at further
        split at further
        · rename_i newArgument newFound
          exact .argumentKept found newFound (inputReport_of_mem_argumentScript further)
        · rename_i newFound
          cases List.mem_singleton.mp further
          exact .argumentLost found newFound
    · rw [NameMap.mem_flatMap_entries_iff] at added
      obtain ⟨name, argument, found, inEntry⟩ := added
      dsimp only at inEntry
      split at inEntry
      · rename_i demanded
        obtain ⟨absent, required⟩ := absent_and_required demanded
        cases List.mem_singleton.mp inEntry
        exact .argumentDemanded found absent required
      · cases inEntry

theorem fieldReport_of_mem {owner : Owner} {old new : Field}
    (member : .report event ∈ fieldScript options owner old new) :
    FieldReport options owner old new event := by
  unfold fieldScript at member
  rcases List.mem_append.mp member with reports | followed
  · rcases List.mem_append.mp reports with ofType | ofDirectives
    · rcases List.mem_append.mp ofType with typeChange | ofArguments
      · split at typeChange
        · rename_i category mismatched
          cases List.mem_singleton.mp typeChange
          exact .retyped mismatched
        · cases typeChange
      · exact fieldReport_of_arguments ofArguments
    · obtain ⟨enforced, report⟩ := directiveReport_of_mem ofDirectives
      exact .directive enforced report
  · cases List.mem_singleton.mp followed

theorem fieldsReport_of_mem {owner : Owner} {old new : List Field}
    (member : .report event ∈ fieldsScript options owner old new) :
    FieldsReport options owner old new event := by
  rw [fieldsScript, NameMap.mem_flatMap_entries_iff] at member
  obtain ⟨name, field, found, inEntry⟩ := member
  rcases List.mem_cons.mp inEntry with atHead | further
  · cases atHead
    exact .field found
  · split at further
    · rename_i newField newFound
      exact .kept found newFound (fieldReport_of_mem further)
    · rename_i newFound
      cases List.mem_singleton.mp further
      exact .lost found newFound

theorem interfaceReport_of_mem {old new : InterfaceType}
    (member : .report event ∈ interfaceScript options old new) :
    InterfaceReport options old new event := by
  rcases List.mem_append.mp member with ofFields | ofDirectives
  · exact .fields (fieldsReport_of_mem ofFields)
  · obtain ⟨enforced, report⟩ := directiveReport_of_mem ofDirectives
    exact .directive enforced report

section Definitions

variable {oldDocument newDocument : Document} {name : String}

private theorem definitionReport_of_implemented {old new : ObjectType}
    (member : .report event ∈ implementedScript options oldDocument newDocument old new) :
    DefinitionReport options oldDocument newDocument name (.object old) (.object new) event := by
  obtain ⟨implemented, inOld, inEntry⟩ := List.mem_flatMap.mp member
  rw [SortedSet.mem_elements_ofList] at inOld
  split at inEntry
  · cases List.mem_singleton.mp inEntry
  · rename_i oldInterface oldIs
    split at inEntry
    · rename_i newInterface newIs
      split at newIs
      · rename_i inNew
        exact .implemented inOld oldIs inNew newIs (interfaceReport_of_mem inEntry)
      · cases newIs
    · rename_i newIs
      cases List.mem_singleton.mp inEntry
      exact .interfaceLost inOld oldIs fun inNew => by simpa only [inNew, if_true] using newIs

private theorem definitionReport_of_object {old new : ObjectType}
    (member : .report event ∈ objectScript options oldDocument newDocument old new) :
    DefinitionReport options oldDocument newDocument name (.object old) (.object new) event := by
  rcases List.mem_append.mp member with ofMembers | ofDirectives
  · rcases List.mem_append.mp ofMembers with ofFields | ofInterfaces
    · exact .fields (fieldsReport_of_mem ofFields)
    · exact definitionReport_of_implemented ofInterfaces
  · obtain ⟨enforced, report⟩ := directiveReport_of_mem ofDirectives
    exact .directive rfl enforced report

private theorem definitionReport_of_union {old new : UnionType}
    (member : .report event ∈ unionScript options old new) :
    DefinitionReport options oldDocument newDocument name (.union old) (.union new) event := by
  rcases List.mem_append.mp member with reports | followed
  · rcases List.mem_append.mp reports with ofMembers | ofDirectives
    · rcases List.mem_append.mp ofMembers with lost | added
      · obtain ⟨other, inLost, same⟩ := List.mem_map.mp lost
        cases same
        simp only [List.mem_filter, SortedSet.mem_elements_ofList, decide_eq_true_eq] at inLost
        exact .memberLost inLost.1 inLost.2
      · obtain ⟨other, inAdded, same⟩ := List.mem_map.mp added
        cases same
        simp only [List.mem_filter, SortedSet.mem_elements_ofList, decide_eq_true_eq] at inAdded
        exact .memberAdded inAdded.1 inAdded.2
    · obtain ⟨enforced, report⟩ := directiveReport_of_mem ofDirectives
      exact .directive rfl enforced report
  · obtain ⟨other, _, impossible⟩ := List.mem_map.mp followed
    cases impossible

private theorem definitionReport_of_enum {old new : EnumType}
    (member : .report event ∈ enumScript options old new) :
    DefinitionReport options oldDocument newDocument name (.enum old) (.enum new) event := by
  rcases List.mem_append.mp member with ofValues | ofDirectives
  · rcases List.mem_append.mp ofValues with kept | added
    · rw [NameMap.mem_flatMap_entries_iff] at kept
      obtain ⟨key, value, found, inEntry⟩ := kept
      dsimp only at inEntry
      split at inEntry
      · rename_i newValue newFound
        obtain ⟨enforced, report⟩ := directiveReport_of_mem inEntry
        exact .valueKept found newFound enforced report
      · rename_i newFound
        cases List.mem_singleton.mp inEntry
        exact .valueLost found newFound
    · obtain ⟨key, inNew, inEntry⟩ := List.mem_flatMap.mp added
      obtain ⟨value, newFound⟩ := (NameMap.mem_names_iff _ key).mp inNew
      split at inEntry
      · cases inEntry
      · rename_i absent
        cases List.mem_singleton.mp inEntry
        rw [Bool.not_eq_true, NameMap.contains_eq_false_iff] at absent
        exact .valueAdded newFound absent
  · obtain ⟨enforced, report⟩ := directiveReport_of_mem ofDirectives
    exact .directive rfl enforced report

private theorem definitionReport_of_inputObject {old new : InputObjectType}
    (member : .report event ∈ inputObjectScript options old new) :
    DefinitionReport options oldDocument newDocument name (.inputObject old) (.inputObject new)
      event := by
  rcases List.mem_append.mp member with ofFields | ofDirectives
  · rcases List.mem_append.mp ofFields with kept | added
    · rw [NameMap.mem_flatMap_entries_iff] at kept
      obtain ⟨key, field, found, inEntry⟩ := kept
      dsimp only at inEntry
      split at inEntry
      · rename_i newField newFound
        exact .inputFieldKept found newFound (inputReport_of_mem_inputFieldScript inEntry)
      · rename_i newFound
        cases List.mem_singleton.mp inEntry
        exact .inputFieldLost found newFound
    · rw [NameMap.mem_flatMap_entries_iff] at added
      obtain ⟨key, field, found, inEntry⟩ := added
      dsimp only at inEntry
      split at inEntry
      · rename_i demanded
        obtain ⟨absent, required⟩ := absent_and_required demanded
        cases List.mem_singleton.mp inEntry
        exact .inputFieldDemanded found absent required
      · cases inEntry
  · obtain ⟨enforced, report⟩ := directiveReport_of_mem ofDirectives
    exact .directive rfl enforced report

theorem definitionReport_of_mem {old new : TypeDefinition}
    (member : .report event ∈
      definitionScript options oldDocument newDocument name old new) :
    DefinitionReport options oldDocument newDocument name old new event := by
  cases old <;> cases new
  case object.object old new => exact definitionReport_of_object member
  case interface.interface old new => exact .interface (interfaceReport_of_mem member)
  case union.union old new => exact definitionReport_of_union member
  case enum.enum old new => exact definitionReport_of_enum member
  case inputObject.inputObject old new => exact definitionReport_of_inputObject member
  case scalar.scalar old new =>
    obtain ⟨enforced, report⟩ := directiveReport_of_mem member
    exact .directive rfl enforced report
  all_goals
    cases List.mem_singleton.mp member
    exact .rekinded (by simp [TypeDefinition.kind])

theorem typeReport_of_mem {oldName newName : String}
    (member : .report event ∈ script options oldDocument newDocument oldName newName) :
    TypeReport options oldDocument newDocument oldName newName event := by
  unfold script at member
  split at member
  · cases member
  · rename_i notExempt
    have compared : isExempt oldName = false := Bool.eq_false_iff.mpr notExempt
    split at member
    · rename_i oldFound
      cases List.mem_singleton.mp member
      exact .undefined compared oldFound
    · rename_i old oldFound
      rcases List.mem_cons.mp member with atHead | further
      · cases atHead
        exact .examined compared oldFound
      · split at further
        · rename_i newFound
          cases List.mem_singleton.mp further
          exact .lost compared oldFound newFound
        · rename_i new newFound
          exact .definition compared oldFound newFound (definitionReport_of_mem further)

theorem operationReport_of_mem (member : .report event ∈ operationsScript oldDocument newDocument) :
    OperationReport oldDocument newDocument event := by
  obtain ⟨operation, inScript⟩ := (mem_operationsScript_iff _ _ _).mp member
  unfold operationScript at inScript
  split at inScript
  · cases inScript
  · rename_i oldRoot isOld
    split at inScript
    · rename_i isNew
      cases List.mem_singleton.mp inScript
      exact .lost isOld isNew
    · split at inScript
      · cases inScript
      · cases List.mem_singleton.mp inScript

/-- Whatever a comparison reports, also one that gives up, is about an operation or about a type
that it turned to. -/
theorem report_of_mem_diff_events
    (member : event ∈ (diff options oldDocument newDocument).events) :
    OperationReport oldDocument newDocument event ∨
      ∃ pair ∈ comparisons options oldDocument newDocument,
        TypeReport options oldDocument newDocument pair.1 pair.2 event := by
  rcases mem_of_mem_walk_events member with atStart | ⟨pair, compared, inScript⟩
  · exact Or.inl (operationReport_of_mem ((mem_reported_iff event _).mp atStart))
  · exact Or.inr ⟨pair, compared, typeReport_of_mem ((mem_reported_iff event _).mp inScript)⟩

end Definitions

/-! ### The places that reports are about -/

section Places

variable {location : Location} {owner : Owner}

theorem DirectiveReport.location_eq {old new : List Directive}
    (report : DirectiveReport location old new event) : event.location = location := by
  cases report <;> rfl

theorem InputReport.location_eq {old new : InputValue}
    (report : InputReport options location old new event) : event.location = location := by
  cases report with
  | retyped | defaultReformed | defaultChanged => rfl
  | directive _ report => exact report.location_eq

theorem FieldReport.location_eq {old new : Field}
    (report : FieldReport options owner old new event) :
    event.location = owner.member old.name := by
  cases report with
  | retyped | fewerArguments | argument | argumentLost | argumentDemanded => rfl
  | argumentKept _ _ report => exact report.location_eq
  | directive _ report => exact report.location_eq

/-- The field is one of the old ones, also where its arguments or directives are reported. -/
theorem FieldsReport.exists_location {old new : List Field}
    (report : FieldsReport options owner old new event) :
    ∃ field ∈ old, event.location = owner.member field.name := by
  cases report with
  | field found | lost found _ =>
      exact ⟨_, NameMap.mem_of_get?_index found,
        congrArg owner.member (NameMap.name_of_get?_index found).symm⟩
  | @kept _ field _ _ found _ report =>
      exact ⟨field, NameMap.mem_of_get?_index found, report.location_eq⟩

end Places

end Inversion

end SchemaEvolution.Diff
