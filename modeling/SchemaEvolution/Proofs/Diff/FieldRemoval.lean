import Mathlib
import SchemaEvolution.Proofs.Diff.Relevance
import SchemaEvolution.Proofs.Diff.SelfComparison

/-!
A schema compared with itself less one field. The walk goes as far as it can without the field.
Wherever it comes upon the fields of the type, be it at the type or, for an interface, at an object
that implements it, it reports the loss, and it finds nothing else.
-/

namespace SchemaEvolution

theorem flatMap_ite_eq_replicate {α β : Type} (items : List α) (holds : α → Bool) (outcome : β) :
    (items.flatMap fun item => if holds item then [outcome] else []) =
      List.replicate (items.countP holds) outcome := by
  induction items with
  | nil => rfl
  | cons first rest ih =>
      rw [List.flatMap_cons, ih, List.countP_cons]
      cases holds first <;> simp [List.replicate_succ]

/-- In a list without repetition one key is met at most once. -/
theorem flatMap_ite_eq_of_nodup {α β : Type} [DecidableEq α] {items : List α}
    (distinct : items.Nodup) (key : α) (outcome : β) :
    (items.flatMap fun item => if item = key then [outcome] else []) =
      if key ∈ items then [outcome] else [] := by
  have replicated := flatMap_ite_eq_replicate items (fun item => item == key) outcome
  simp only [beq_iff_eq] at replicated
  rw [replicated, ← List.count, List.Nodup.count distinct]
  split <;> rfl

theorem sum_map_ite_eq_countP {α : Type} (items : List α) (holds : α → Bool) :
    (items.map fun item => if holds item then 1 else 0).sum = items.countP holds := by
  induction items with
  | nil => rfl
  | cons first rest ih => rw [List.map_cons, List.sum_cons, ih, List.countP_cons, Nat.add_comm]

/-! ### Schemas without a field -/

namespace TypeDefinition

def fields : TypeDefinition → List Field
  | object type => type.fields
  | interface type => type.fields
  | union _ | enum _ | scalar _ | inputObject _ => []

def withoutField (key : String) : TypeDefinition → TypeDefinition
  | object type => object { type with fields := type.fields.filter fun field => field.name ≠ key }
  | interface type =>
      interface { type with fields := type.fields.filter fun field => field.name ≠ key }
  | union type => union type
  | enum type => enum type
  | scalar type => scalar type
  | inputObject type => inputObject type

end TypeDefinition

namespace Document

/-- The schema less a field of one of its types. -/
def withoutField (document : Document) (typeName fieldName : String) : Document :=
  match document.type? typeName with
  | some definition =>
      { document with
        types := document.types.insert typeName (definition.withoutField fieldName) }
  | none => document

def implementors (document : Document) (interface : String) : List String :=
  document.types.names.filter fun name =>
    ((document.type? name).elim [] TypeDefinition.interfaces).contains interface

/-- The types at which a comparison comes upon the fields of a type. -/
def observers (document : Document) (typeName : String) : List String :=
  typeName :: (if (document.interface? typeName).isSome then document.implementors typeName else [])

variable {document : Document} {typeName fieldName name : String}

theorem type?_withoutField :
    (document.withoutField typeName fieldName).type? name =
      (document.type? name).map fun definition =>
        if name = typeName then definition.withoutField fieldName else definition := by
  unfold withoutField
  cases found : document.type? typeName with
  | none =>
      by_cases own : name = typeName
      · simp [own, found]
      · simp [own]
  | some definition =>
      dsimp only [type?]
      rw [NameMap.get?_insert]
      by_cases own : name = typeName
      · have here : document.types.get? typeName = some definition := found
        simp [own, here]
      · simp [own]

theorem type?_withoutField_of_ne (other : name ≠ typeName) :
    (document.withoutField typeName fieldName).type? name = document.type? name := by
  simp [type?_withoutField, other]

theorem root?_withoutField (operation : OperationType) :
    (document.withoutField typeName fieldName).root? operation = document.root? operation := by
  have declared (operation : OperationType) :
      (document.withoutField typeName fieldName).declaredRoot? operation =
        document.declaredRoot? operation := by
    unfold withoutField
    cases document.type? typeName <;> cases operation <;> rfl
  have declares : (document.withoutField typeName fieldName).hasDeclaredRoots =
      document.hasDeclaredRoots := by
    unfold hasDeclaredRoots
    simp only [declared]
  unfold root?
  rw [declares, declared, type?_withoutField]
  cases document.type? operation.conventionalName with
  | none => rfl
  | some definition =>
      by_cases own : operation.conventionalName = typeName
      · cases definition <;> simp [own, TypeDefinition.withoutField]
      · simp [own]

theorem agreesOn_withoutField :
    document.AgreesOn (fun name => name ≠ typeName) (document.withoutField typeName fieldName) :=
  ⟨root?_withoutField, fun _ other => type?_withoutField_of_ne other⟩

theorem interface?_withoutField_of_none (notInterface : document.interface? typeName = none)
    (name : String) :
    (document.withoutField typeName fieldName).interface? name = document.interface? name := by
  by_cases own : name = typeName
  · subst own
    rw [notInterface]
    unfold interface? at notInterface ⊢
    rw [type?_withoutField]
    cases found : document.type? name with
    | none => rfl
    | some definition =>
        rw [found] at notInterface
        rw [Option.map_some, if_pos rfl]
        cases definition with
        | interface type => cases notInterface
        | object _ | union _ | enum _ | scalar _ | inputObject _ => rfl
  · exact agreesOn_withoutField.interface? own

theorem mem_implementors_iff (interface : String) :
    name ∈ document.implementors interface ↔
      ∃ type, document.type? name = some (.object type) ∧ interface ∈ type.interfaces := by
  unfold implementors
  rw [List.mem_filter, NameMap.mem_names_iff]
  constructor
  · rintro ⟨⟨definition, found⟩, listed⟩
    have isOne : document.type? name = some definition := found
    rw [isOne, Option.elim_some, List.contains_iff_mem] at listed
    cases definition with
    | object type => exact ⟨type, isOne, listed⟩
    | interface _ | union _ | enum _ | scalar _ | inputObject _ => cases listed
  · rintro ⟨type, found, listed⟩
    refine ⟨⟨_, found⟩, ?_⟩
    rw [found, Option.elim_some, List.contains_iff_mem]
    exact listed

theorem mem_observers_iff :
    name ∈ document.observers typeName ↔ name = typeName ∨
      (document.interface? typeName).isSome ∧ name ∈ document.implementors typeName := by
  unfold observers
  rw [List.mem_cons]
  split <;> simp [*]

theorem nodup_observers : (document.observers typeName).Nodup := by
  unfold observers
  refine List.nodup_cons.mpr ⟨fun again => ?_, ?_⟩
  · split at again
    · rename_i isInterface
      obtain ⟨type, isType⟩ := Option.isSome_iff_exists.mp isInterface
      obtain ⟨object, isObject, _⟩ := (mem_implementors_iff _).mp again
      rw [Diff.interface?_eq_some_iff, isObject] at isType
      cases isType
    · cases again
  · split
    · exact document.types.ascend.nodup_names.filter _
    · exact List.nodup_nil

end Document

theorem Document.keyed_rooted (types : List TypeDefinition) :
    ∀ name definition, (rooted types).type? name = some definition → definition.name = name := by
  have extended (document : Document) (keyed : ∀ name definition,
      document.type? name = some definition → definition.name = name) :
      ∀ name definition, (types.foldl insert document).type? name = some definition →
        definition.name = name := by
    induction types generalizing document with
    | nil => exact keyed
    | cons first rest ih =>
        refine ih _ fun name definition found => ?_
        change (document.types.insert first.name first).get? name = some definition at found
        rw [NameMap.get?_insert] at found
        split at found
        · cases found
          exact (‹_› : name = _).symm
        · exact keyed name definition found
  exact extended _ fun name definition found => by cases found

namespace Diff

/-! ### What scripts find -/

/-- The reported events that are not progress. -/
def findings (steps : List Step) : List Event :=
  (reported steps).filter fun event => !event.isProgress

def Silent (steps : List Step) : Prop :=
  ∀ event, .report event ∈ steps → event.isProgress = true

theorem findings_append (first second : List Step) :
    findings (first ++ second) = findings first ++ findings second := by
  rw [findings, reported_append, List.filter_append]
  rfl

theorem findings_flatMap {α : Type} (items : List α) (steps : α → List Step) :
    findings (items.flatMap steps) = items.flatMap fun item => findings (steps item) := by
  induction items with
  | nil => rfl
  | cons item rest ih => rw [List.flatMap_cons, findings_append, ih, List.flatMap_cons]

theorem findings_progress (location : Location) (text : String) (steps : List Step) :
    findings (.report (.progress location text) :: steps) = findings steps :=
  rfl

theorem Silent.findings_eq_nil {steps : List Step} (silent : Silent steps) :
    findings steps = [] := by
  rw [findings, List.filter_eq_nil_iff]
  intro event member
  rw [silent event ((mem_reported_iff event steps).mp member)]
  exact Bool.false_ne_true

def fieldLoss (owner : Owner) (key : String) : Event :=
  .breaking .missing (owner.member key) [] s!"The new API is missing the field '{key}'"

section Scripts

variable (options : Options) {document : Document} {typeName fieldName name : String}

theorem silent_directivesScript_self (location : Location) (directives : List Directive) :
    Silent (directivesScript options location directives directives) :=
  fun _ member => absurd (directiveReport_of_mem member).2 DirectiveReport.not_self

theorem silent_fieldScript_self (owner : Owner) (field : Field) :
    Silent (fieldScript options owner field field) :=
  fun _ member => (fieldReport_of_mem member).isProgress_self

theorem silent_fieldsScript_self (owner : Owner) (fields : List Field) :
    Silent (fieldsScript options owner fields fields) :=
  fun _ member => (fieldsReport_of_mem member).isProgress_self

theorem silent_interfaceScript_self (type : InterfaceType) :
    Silent (interfaceScript options type type) :=
  fun _ member => (interfaceReport_of_mem member).isProgress_self

theorem silent_definitionScript_self (document : Document) (name : String)
    (definition : TypeDefinition) :
    Silent (definitionScript options document document name definition definition) :=
  fun _ member => (definitionReport_of_mem member).isProgress_self

theorem findings_fieldsScript_filter (owner : Owner) {fields : List Field} {key : String}
    (present : key ∈ fields.map Field.name) :
    findings (fieldsScript options owner fields (fields.filter fun field => field.name ≠ key)) =
      [fieldLoss owner key] := by
  have isName : key ∈ (NameMap.index Field.name fields).entries.map Prod.fst :=
    (NameMap.mem_names_index_iff _ _ _).mpr present
  have once := flatMap_ite_eq_of_nodup (NameMap.index Field.name fields).ascend.nodup_names key
    (fieldLoss owner key)
  rw [List.flatMap_map, if_pos isName] at once
  unfold fieldsScript
  rw [findings_flatMap, ← once]
  refine List.flatMap_congr ?_
  rintro ⟨other, field⟩ inEntries
  have found := (NameMap.mem_entries_iff _ _ _).mp inEntries
  dsimp only
  rw [findings_progress, NameMap.get?_index_filter, found]
  by_cases own : other = key
  · subst own
    simp only [if_true]
    rfl
  · simp only [own, if_false]
    exact (silent_fieldScript_self options owner field).findings_eq_nil

/-- The losses that the comparison of an object meets at the interfaces that it implements. -/
theorem findings_implementedScript_withoutField {old new : ObjectType}
    (same : new.interfaces = old.interfaces) {type : InterfaceType}
    (isInterface : document.interface? typeName = some type)
    (present : fieldName ∈ type.fields.map Field.name) :
    findings (implementedScript options document (document.withoutField typeName fieldName)
        old new) =
      if typeName ∈ old.interfaces then [fieldLoss ⟨type.name, .interface⟩ fieldName] else [] := by
  have once := flatMap_ite_eq_of_nodup (SortedSet.ofList old.interfaces).nodup_elements typeName
    (fieldLoss ⟨type.name, .interface⟩ fieldName)
  simp only [SortedSet.mem_elements_ofList] at once
  unfold implementedScript
  rw [findings_flatMap, ← once]
  refine List.flatMap_congr fun implemented inSet => ?_
  have listed : implemented ∈ new.interfaces :=
    same ▸ (SortedSet.mem_elements_ofList implemented old.interfaces).mp inSet
  rw [if_pos listed]
  by_cases own : implemented = typeName
  · subst own
    have found := (interface?_eq_some_iff _ _ _).mp isInterface
    have isNewInterface : (document.withoutField implemented fieldName).interface? implemented =
        some { type with fields := type.fields.filter fun field => field.name ≠ fieldName } := by
      rw [interface?_eq_some_iff, Document.type?_withoutField, found, Option.map_some, if_pos rfl]
      rfl
    simp only [isInterface, isNewInterface, if_true]
    rw [interfaceScript, findings_append, findings_fieldsScript_filter options _ present,
      (silent_directivesScript_self options _ _).findings_eq_nil, List.append_nil]
  · rw [Document.agreesOn_withoutField.interface? own, if_neg own]
    cases document.interface? implemented with
    | none => rfl
    | some other => exact (silent_interfaceScript_self options other).findings_eq_nil

theorem findings_implementedScript_of_not_interface {old new : ObjectType}
    (same : new.interfaces = old.interfaces) (notInterface : document.interface? typeName = none) :
    findings (implementedScript options document (document.withoutField typeName fieldName)
        old new) = [] := by
  unfold implementedScript
  rw [findings_flatMap, List.flatMap_eq_nil_iff]
  intro implemented inSet
  have listed : implemented ∈ new.interfaces :=
    same ▸ (SortedSet.mem_elements_ofList implemented old.interfaces).mp inSet
  rw [if_pos listed, Document.interface?_withoutField_of_none notInterface]
  cases document.interface? implemented with
  | none => rfl
  | some other => exact (silent_interfaceScript_self options other).findings_eq_nil

variable (keyed : ∀ name definition, document.type? name = some definition →
  definition.name = name)

include keyed

theorem findings_definitionScript_withoutField {definition : TypeDefinition}
    (found : document.type? typeName = some definition)
    (present : fieldName ∈ definition.fields.map Field.name) :
    findings (definitionScript options document (document.withoutField typeName fieldName) typeName
        definition (definition.withoutField fieldName)) =
      [fieldLoss ⟨typeName, definition.kind⟩ fieldName] := by
  have quiet (location : Location) (directives : List Directive) :=
    (silent_directivesScript_self options location directives).findings_eq_nil
  cases definition with
  | object type =>
      have named : type.name = typeName := keyed typeName _ found
      have notInterface : document.interface? typeName = none := by
        unfold Document.interface?
        rw [found]
      have lost := findings_fieldsScript_filter options ⟨type.name, .object⟩ present
      change findings (objectScript options document _ type _) = _
      rw [objectScript, findings_append, findings_append, quiet,
        findings_implementedScript_of_not_interface options (by rfl) notInterface, List.append_nil,
        List.append_nil]
      exact lost.trans (by rw [named]; rfl)
  | interface type =>
      have named : type.name = typeName := keyed typeName _ found
      have lost := findings_fieldsScript_filter options ⟨type.name, .interface⟩ present
      change findings (interfaceScript options type _) = _
      rw [interfaceScript, findings_append, quiet, List.append_nil]
      exact lost.trans (by rw [named]; rfl)
  | union _ | enum _ | scalar _ | inputObject _ => cases present

theorem findings_definitionScript_of_ne {definition other : TypeDefinition}
    (found : document.type? typeName = some definition)
    (present : fieldName ∈ definition.fields.map Field.name) :
    findings (definitionScript options document (document.withoutField typeName fieldName) name
        other other) =
      if typeName ∈ other.interfaces ∧ (document.interface? typeName).isSome then
        [fieldLoss ⟨typeName, definition.kind⟩ fieldName]
      else [] := by
  have itself := (silent_definitionScript_self options document name other).findings_eq_nil
  cases other with
  | object type =>
      change findings (objectScript options document _ type type) = _
      rw [objectScript, findings_append, findings_append,
        (silent_fieldsScript_self options _ _).findings_eq_nil,
        (silent_directivesScript_self options _ _).findings_eq_nil, List.append_nil, List.nil_append]
      cases isInterface : document.interface? typeName with
      | none => simp [findings_implementedScript_of_not_interface options rfl isInterface]
      | some interface =>
          have isDefinition := (interface?_eq_some_iff _ _ _).mp isInterface
          rw [found] at isDefinition
          cases isDefinition
          have named : interface.name = typeName := keyed typeName _ found
          rw [findings_implementedScript_withoutField options rfl isInterface present, named]
          simp [TypeDefinition.interfaces, TypeDefinition.kind]
  | interface type | union type | enum type | scalar type | inputObject type =>
      rw [if_neg fun listed => List.not_mem_nil listed.1]
      exact itself

theorem findings_script_withoutField {definition : TypeDefinition}
    (found : document.type? typeName = some definition)
    (present : fieldName ∈ definition.fields.map Field.name) :
    findings (script options document (document.withoutField typeName fieldName) name name) =
      if isExempt name = false ∧ name ∈ document.observers typeName then
        [fieldLoss ⟨typeName, definition.kind⟩ fieldName]
      else [] := by
  unfold script
  cases exempt : isExempt name with
  | true => simp [findings, reported]
  | false =>
      simp only [Bool.false_eq_true, if_false, true_and]
      rw [Document.type?_withoutField]
      cases isOther : document.type? name with
      | none =>
          have notObserver : name ∉ document.observers typeName := by
            rw [Document.mem_observers_iff, Document.mem_implementors_iff, isOther]
            rintro (rfl | ⟨_, _, impossible, _⟩)
            · rw [found] at isOther
              cases isOther
            · cases impossible
          rw [if_neg notObserver]
          rfl
      | some other =>
          simp only [Option.map_some, findings_progress]
          by_cases own : name = typeName
          · subst own
            rw [found] at isOther
            cases isOther
            rw [if_pos rfl, findings_definitionScript_withoutField options keyed found present,
              if_pos (Document.mem_observers_iff.mpr (Or.inl rfl))]
          · rw [if_neg own, findings_definitionScript_of_ne options keyed found present]
            refine if_congr ?_ rfl rfl
            rw [Document.mem_observers_iff, Document.mem_implementors_iff, isOther]
            cases other <;> simp [own, TypeDefinition.interfaces, and_comm]

end Scripts

/-! ### Which names are compared -/

section Walk

variable {options : Options} {document : Document} {typeName fieldName name : String}

theorem MeetingFields.eq_or_filter {owner : Owner} {oldFields newFields : List Field}
    (meeting : MeetingFields document (document.withoutField typeName fieldName) name name owner
      oldFields newFields) :
    newFields = oldFields ∨ newFields = oldFields.filter fun field => field.name ≠ fieldName := by
  cases meeting with
  | object oldFound newFound | interface oldFound newFound =>
      rw [Document.type?_withoutField, oldFound, Option.map_some] at newFound
      split at newFound
      · cases newFound
        exact Or.inr rfl
      · cases newFound
        exact Or.inl rfl
  | implemented _ _ _ oldIs _ newIs =>
      rw [interface?_eq_some_iff] at oldIs newIs
      rw [Document.type?_withoutField, oldIs, Option.map_some] at newIs
      split at newIs
      · cases newIs
        exact Or.inr rfl
      · cases newIs
        exact Or.inl rfl

theorem MeetingField.eq_of_withoutField {owner : Owner} {old new : Field}
    (meeting : MeetingField document (document.withoutField typeName fieldName) name name owner
      old new) : old = new := by
  obtain ⟨_, oldFields, newFields, key, inFields, oldFound, newFound⟩ := meeting
  rcases inFields.eq_or_filter with rfl | rfl
  · rw [oldFound] at newFound
    exact Option.some.inj newFound
  · rw [NameMap.get?_index_filter, oldFound] at newFound
    split at newFound
    · cases newFound
    · exact Option.some.inj newFound

theorem MeetingInput.eq_of_withoutField {location : Location} {old new : InputValue}
    (meeting : MeetingInput document (document.withoutField typeName fieldName) name name location
      old new) : old = new := by
  cases meeting with
  | argument inField _ oldHas newHas =>
      cases inField.eq_of_withoutField
      rw [oldHas] at newHas
      exact Option.some.inj newHas
  | inputField _ oldFound newFound oldHas newHas =>
      rw [Document.type?_withoutField, oldFound, Option.map_some] at newFound
      have same := Option.some.inj newFound
      rw [TypeDefinition.withoutField, ite_self] at same
      cases same
      rw [oldHas] at newHas
      exact Option.some.inj newHas

theorem eq_of_mem_comparisons_withoutField {oldName newName : String}
    (compared : (oldName, newName) ∈
      comparisons options document (document.withoutField typeName fieldName)) :
    oldName = newName := by
  have sameRoots : SameRoots document (document.withoutField typeName fieldName) := by
    intro operation oldRoot newRoot isOld isNew
    rw [Document.root?_withoutField] at isNew
    exact SameRoots.self document operation oldRoot newRoot isOld isNew
  refine sameRoots.eq_of_leadsTo (fun _ _ _ _ leads => ?_) compared
  cases leads with
  | field meeting => rw [meeting.eq_of_withoutField]
  | input meeting _ => rw [meeting.eq_of_withoutField]
  | member _ _ _ _ _ => rfl

theorem diff_withoutField_failure? {ownOptions : Options}
    (complete : (diff ownOptions document document).failure? = none) :
    (diff options document (document.withoutField typeName fieldName)).failure? = none := by
  rw [failure?_eq_none_iff_self] at complete
  rw [diff_failure?_eq_none_iff_resolved]
  rintro ⟨oldName, newName⟩ compared type _ notExempt found _
  exact complete oldName type (reachable_of_mem_comparisons compared notExempt) found

theorem script_withoutField_of_ne (notInterface : document.interface? typeName = none)
    (other : name ≠ typeName) :
    script options document (document.withoutField typeName fieldName) name name =
      script options document document name name := by
  unfold script
  rw [Document.type?_withoutField_of_ne other]
  cases document.type? name with
  | none => rfl
  | some definition =>
      cases definition with
      | object type =>
          simp only [definitionScript, objectScript, implementedScript,
            Document.interface?_withoutField_of_none notInterface]
      | interface _ | union _ | enum _ | scalar _ | inputObject _ => rfl

/-- Without a field of an object the walk still comes to the object, since the ways to it need not
lead through it. -/
theorem mem_comparisons_withoutField_of_reachable
    (notInterface : document.interface? typeName = none) (reachable : document.Reachable typeName) :
    (typeName, typeName) ∈ comparisons options document (document.withoutField typeName fieldName) := by
  have withItself {first : String} (found : ∃ other,
      (first, other) ∈ comparisons options document (document.withoutField typeName fieldName)) :
      (first, first) ∈ comparisons options document (document.withoutField typeName fieldName) := by
    obtain ⟨other, compared⟩ := found
    have same := eq_of_mem_comparisons_withoutField compared
    subst same
    exact compared
  suffices onWay : ∀ name, document.Reachable name →
      (typeName, typeName) ∈ comparisons options document (document.withoutField typeName fieldName) ∨
        (name, name) ∈ comparisons options document (document.withoutField typeName fieldName) from
    (onWay typeName reachable).elim id id
  intro name onWay
  induction onWay with
  | root isRoot defined _ =>
      exact Or.inr (withItself (exists_comparison_of_roots isRoot
        ((Document.root?_withoutField _).trans isRoot) defined))
  | @step name next earlier refers _ ih =>
      rcases ih with arrived | compared
      · exact Or.inl arrived
      · by_cases own : name = typeName
        · exact Or.inl (own ▸ compared)
        · have leads := leadsTo_self_of_refersTo earlier.isExempt_eq_false refers
          have follows : .follow next next ∈ script options document document name name :=
            follow_mem_script_iff.mpr leads
          rw [← script_withoutField_of_ne notInterface own] at follows
          exact Or.inr (withItself
            (exists_comparison_of_leadsTo compared (follow_mem_script_iff.mp follows)))

end Walk

/-! ### What is found in all -/

section Findings

variable {options : Options} {oldDocument newDocument : Document} {name : String}

theorem findings_diff_perm (finished : (diff options oldDocument newDocument).failure? = none) :
    ((diff options oldDocument newDocument).events.filter fun event => !event.isProgress).Perm
      (findings (operationsScript oldDocument newDocument) ++
        (comparisons options oldDocument newDocument).flatMap fun pair =>
          findings (script options oldDocument newDocument pair.1 pair.2)) := by
  refine ((walk_events_perm finished).filter _).trans ?_
  rw [List.filter_append, List.filter_flatMap]
  exact List.Perm.refl _

theorem countP_examines_eq (finished : (diff options oldDocument newDocument).failure? = none)
    (defined : (oldDocument.type? name).isSome) :
    (diff options oldDocument newDocument).events.countP (Event.examines name) =
      if isExempt name = false ∧ name ∈ comparedNames options oldDocument newDocument then 1
      else 0 := by
  split
  · rename_i examined
    obtain ⟨newName, compared⟩ := (mem_comparedNames_iff name).mp examined.2
    exact countP_examines_eq_one finished compared examined.1 defined
  · rename_i notExamined
    rw [List.countP_eq_zero]
    intro event member examines
    obtain ⟨notExempt, _, newName, compared⟩ := compared_of_examines member examines
    exact notExamined ⟨notExempt, (mem_comparedNames_iff name).mpr ⟨newName, compared⟩⟩

end Findings

section Removal

variable (options : Options) {document : Document} {typeName fieldName : String}
variable {definition : TypeDefinition} (found : document.type? typeName = some definition)

theorem silent_operationsScript_withoutField :
    Silent (operationsScript document (document.withoutField typeName fieldName)) := by
  intro event member
  cases operationReport_of_mem member with
  | lost isOld isNew =>
      rw [Document.root?_withoutField, isOld] at isNew
      cases isNew

include found

theorem isSome_of_mem_observers {name : String} (observer : name ∈ document.observers typeName) :
    (document.type? name).isSome := by
  rcases Document.mem_observers_iff.mp observer with rfl | ⟨_, implements⟩
  · exact Option.isSome_of_eq_some found
  · obtain ⟨type, isObject, _⟩ := (Document.mem_implementors_iff _).mp implements
    exact Option.isSome_of_eq_some isObject

/-- The observers that are examined, and the compared names that are observers, are the same. -/
theorem countP_observers_eq
    (finished :
      (diff options document (document.withoutField typeName fieldName)).failure? = none) :
    (comparedNames options document (document.withoutField typeName fieldName)).countP (fun name =>
        isExempt name = false ∧ name ∈ document.observers typeName) =
      ((document.observers typeName).map fun name =>
        (diff options document (document.withoutField typeName fieldName)).events.countP
          (Event.examines name)).sum := by
  have perObserver : ∀ name ∈ document.observers typeName,
      (diff options document (document.withoutField typeName fieldName)).events.countP
          (Event.examines name) =
        if decide (isExempt name = false ∧
          name ∈ comparedNames options document (document.withoutField typeName fieldName)) then 1
        else 0 := by
    intro name observer
    rw [countP_examines_eq finished (isSome_of_mem_observers found observer)]
    simp only [decide_eq_true_eq]
  rw [List.map_congr_left perObserver, sum_map_ite_eq_countP, List.countP_eq_length_filter,
    List.countP_eq_length_filter]
  refine List.Perm.length_eq ?_
  rw [List.perm_ext_iff_of_nodup ((nodup_comparedNames _ _ _).filter _)
    (Document.nodup_observers.filter _)]
  intro name
  simp only [List.mem_filter, decide_eq_true_eq]
  tauto

variable (keyed : ∀ name definition, document.type? name = some definition →
  definition.name = name)
variable (present : fieldName ∈ definition.fields.map Field.name)

include keyed present

theorem findings_diff_withoutField
    (finished :
      (diff options document (document.withoutField typeName fieldName)).failure? = none) :
    ((diff options document (document.withoutField typeName fieldName)).events.filter fun event =>
        !event.isProgress) =
      List.replicate ((document.observers typeName).map fun name =>
          (diff options document (document.withoutField typeName fieldName)).events.countP
            (Event.examines name)).sum
        (fieldLoss ⟨typeName, definition.kind⟩ fieldName) := by
  rw [← countP_observers_eq options found finished, ← List.perm_replicate]
  refine (findings_diff_perm finished).trans (List.Perm.of_eq ?_)
  rw [silent_operationsScript_withoutField.findings_eq_nil, List.nil_append,
    ← flatMap_ite_eq_replicate, comparedNames, List.flatMap_map]
  apply List.flatMap_congr
  rintro ⟨oldName, newName⟩ compared
  have same := eq_of_mem_comparisons_withoutField compared
  subst same
  simpa using findings_script_withoutField options keyed found present

end Removal

/-- If all findings are one breaking event, over and over, they are the breaks. -/
theorem breaks_of_findings_eq_replicate {events : List Event} {count : Nat} {loss : Event}
    (findings : (events.filter fun event => !event.isProgress) = List.replicate count loss)
    (breaking : loss.isBreaking = true) :
    events.countP Event.isBreaking = count ∧
      ∀ event ∈ events, event.isDangerous = false ∧ (event.isBreaking = true → event = loss) := by
  have notProgress (event : Event) : (event.isBreaking && !event.isProgress) = event.isBreaking := by
    obtain ⟨_, finding, _⟩ := event
    cases finding <;> rfl
  refine ⟨?_, fun event member => ?_⟩
  · have counted := congrArg (List.countP Event.isBreaking) findings
    rw [List.countP_filter, List.countP_replicate, if_pos breaking] at counted
    simpa only [notProgress] using counted
  · cases progress : event.isProgress with
    | true =>
        obtain ⟨_, finding, _⟩ := event
        cases finding with
        | progress => exact ⟨rfl, Bool.noConfusion⟩
        | breaking _ _ | dangerous _ _ => cases progress
    | false =>
        have inFindings : event ∈ events.filter fun event => !event.isProgress :=
          List.mem_filter.mpr ⟨member, by rw [progress]; rfl⟩
        rw [findings] at inFindings
        have same := List.eq_of_mem_replicate inFindings
        subst same
        obtain ⟨_, finding, _⟩ := event
        cases finding with
        | breaking _ _ => exact ⟨rfl, fun _ => rfl⟩
        | progress | dangerous _ _ => cases breaking

theorem countP_examines_of_object {options : Options} {document : Document} {typeName fieldName : String}
    (notInterface : document.interface? typeName = none)
    (finished :
      (diff options document (document.withoutField typeName fieldName)).failure? = none)
    (defined : (document.type? typeName).isSome) :
    (document.Reachable typeName →
      (diff options document (document.withoutField typeName fieldName)).events.countP
        (Event.examines typeName) = 1) ∧
    (¬document.Reachable typeName →
      (diff options document (document.withoutField typeName fieldName)).events.countP
        (Event.examines typeName) = 0) := by
  rw [countP_examines_eq finished defined]
  refine ⟨fun reachable => ?_, fun unreached => if_neg ?_⟩
  · refine if_pos ⟨reachable.isExempt_eq_false, (mem_comparedNames_iff typeName).mpr ?_⟩
    exact ⟨typeName, mem_comparisons_withoutField_of_reachable notInterface reachable⟩
  · rintro ⟨notExempt, compared⟩
    obtain ⟨newName, inComparisons⟩ := (mem_comparedNames_iff typeName).mp compared
    exact unreached (reachable_of_mem_comparisons inComparisons notExempt)

/-- A schema that can be compared with itself, and the same schema less a field of a type. The one
finding is that the field is lost, and it is reported as often as the type is examined and, if it is
an interface, as objects are examined that implement it. So for an object it is reported once if the
object can be reached, and else not at all. -/
theorem fieldLoss_reported_where_seen (options ownOptions : Options) (document : Document)
    {typeName fieldName : String} {definition : TypeDefinition}
    (keyed : ∀ name definition, document.type? name = some definition → definition.name = name)
    (complete : (diff ownOptions document document).failure? = none)
    (found : document.type? typeName = some definition)
    (present : fieldName ∈ definition.fields.map Field.name) :
    ∃ count, (diff options document (document.withoutField typeName fieldName)).breakingCount =
        .ok count ∧
      count = ((document.observers typeName).map fun name =>
        (diff options document (document.withoutField typeName fieldName)).events.countP
          (Event.examines name)).sum ∧
      (∀ event ∈ (diff options document (document.withoutField typeName fieldName)).events,
        event.isDangerous = false ∧ (event.isBreaking = true →
          event = fieldLoss ⟨typeName, definition.kind⟩ fieldName)) ∧
      (definition.kind = .object →
        (document.Reachable typeName → count = 1) ∧ (¬document.Reachable typeName → count = 0)) := by
  have finished : (diff options document (document.withoutField typeName fieldName)).failure? =
      none := diff_withoutField_failure? complete
  obtain ⟨counted, only⟩ := breaks_of_findings_eq_replicate
    (findings_diff_withoutField options found keyed present finished) rfl
  refine ⟨_, ?_, rfl, only, fun isObject => ?_⟩
  · unfold Trace.breakingCount
    rw [finished, counted]
  · have notInterface : document.interface? typeName = none := by
      unfold Document.interface?
      rw [found]
      cases definition with
      | interface _ => cases isObject
      | object _ | union _ | enum _ | scalar _ | inputObject _ => rfl
    have alone : document.observers typeName = [typeName] := by
      rw [Document.observers, notInterface]
      rfl
    rw [alone, List.map_singleton, List.sum_singleton]
    exact countP_examines_of_object notInterface finished (Option.isSome_of_eq_some found)

def petSchema : Document :=
  .rooted [.object ⟨"Root", [⟨"pet", .named "Pet", [], []⟩, ⟨"node", .named "Node", [], []⟩], [], []⟩,
    .object ⟨"Pet", [⟨"id", .named "ID", [], []⟩], ["Node"], []⟩,
    .object ⟨"Fox", [⟨"id", .named "ID", [], []⟩], ["Node"], []⟩,
    .interface ⟨"Node", [⟨"id", .named "ID", [], []⟩], []⟩]

/-- The field of the interface is missed there and at the pet, but not at the fox, which is not
examined; that of an object is missed there or nowhere. -/
theorem petSchema_without_ids :
    (diff default petSchema petSchema).failure? = none ∧
      (diff default petSchema (petSchema.withoutField "Node" "id")).breakingCount = .ok 2 ∧
      petSchema.Reachable "Pet" ∧
      (diff default petSchema (petSchema.withoutField "Pet" "id")).breakingCount = .ok 1 ∧
      ¬petSchema.Reachable "Fox" ∧
      (diff default petSchema (petSchema.withoutField "Fox" "id")).breakingCount = .ok 0 := by
  have complete : (diff default petSchema petSchema).failure? = none := by cbv
  have compared : comparisons default petSchema petSchema =
      [("Root", "Root"), ("Node", "Node"), ("ID", "ID"), ("Pet", "Pet")] := by cbv
  have reachable : petSchema.Reachable "Pet" := by
    rw [reachable_iff_mem_comparisons_self default, compared]
    decide
  have unreached : ¬petSchema.Reachable "Fox" := by
    rw [reachable_iff_mem_comparisons_self default, compared]
    decide
  have seenTwice : ((petSchema.observers "Node").map fun name =>
      (diff default petSchema (petSchema.withoutField "Node" "id")).events.countP
        (Event.examines name)).sum = 2 := by
    cbv
  have loses (typeName : String) {definition : TypeDefinition}
      (found : petSchema.type? typeName = some definition)
      (present : "id" ∈ definition.fields.map Field.name) :=
    fieldLoss_reported_where_seen default default petSchema (Document.keyed_rooted _) complete
      found present
  obtain ⟨_, nodeCount, rfl, _⟩ := loses "Node" rfl (by decide)
  obtain ⟨_, petCount, _, _, petOnce⟩ := loses "Pet" rfl (by decide)
  obtain ⟨_, foxCount, _, _, foxNever⟩ := loses "Fox" rfl (by decide)
  rw [seenTwice] at nodeCount
  rw [(petOnce rfl).1 reachable] at petCount
  rw [(foxNever rfl).2 unreached] at foxCount
  exact ⟨complete, nodeCount, reachable, petCount, unreached, foxCount⟩

end Diff

end SchemaEvolution
