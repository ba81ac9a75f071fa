import Mathlib
import SchemaEvolution.Proofs.Diff.Reachable
import SchemaEvolution.Proofs.Diff.Reports

/-!
What the enforcement of directives adds to a comparison. Scripts give up and lead on in the same
places with it as without it, and it puts in reports about directives only. So the comparison that
leaves directives out ends as the enforcing one does, and reports the same but for what is about
directives.
-/

namespace SchemaEvolution

def Field.allDirectives (field : Field) : List Directive :=
  field.directives ++ field.arguments.flatMap InputValue.directives

def TypeDefinition.allDirectives : TypeDefinition → List Directive
  | object type => type.directives ++ type.fields.flatMap Field.allDirectives
  | interface type => type.directives ++ type.fields.flatMap Field.allDirectives
  | union type => type.directives
  | enum type => type.directives ++ type.values.flatMap EnumValue.directives
  | scalar type => type.directives
  | inputObject type => type.directives ++ type.fields.flatMap InputValue.directives

def Document.allDirectives (document : Document) : List Directive :=
  document.types.values.flatMap TypeDefinition.allDirectives

theorem Field.argumentDirectives_subset {field : Field} {argument : InputValue}
    (member : argument ∈ field.arguments) : argument.directives ⊆ field.allDirectives :=
  fun _ applied => List.mem_append_right _ (List.mem_flatMap.mpr ⟨argument, member, applied⟩)

theorem Document.allDirectives_of_type? {document : Document} {name : String}
    {definition : TypeDefinition} (found : document.type? name = some definition) :
    definition.allDirectives ⊆ document.allDirectives :=
  fun _ applied => List.mem_flatMap.mpr ⟨definition, NameMap.mem_values_of_get? found, applied⟩

@[simp]
def directivePhrases : List String :=
  ["The new API does not have a directive named '", "The new API has less arguments on directive '",
    "The new API does not have an argument named '",
    "The new API has changed value types on argument named '"]

@[simp]
def otherPhrases : List String :=
  ["Type '", "Examining type '", "field '", "field argument '",
    "The new API no longer has the operation '", "The new API does not have a type called '",
    "The new API has changed '", "The new API has changed field '",
    "The new API has changed input field '", "The new API has changed default value types on ",
    "The new API has changed default value on ", "The new API has less arguments on field '",
    "The new API is missing the field argument '", "The new API is missing the field '",
    "The new API is missing the interface named '", "The new API is missing an enum value '",
    "The new API is missing an input field '", "The new API has made the new argument '",
    "The new API has made the new input field '",
    "The new API does not contain union member type '",
    "The new API has added a new union member type '", "The new API has added a new enum value '"]

def StartsAs (phrases : List String) (text : String) : Prop :=
  ∃ phrase ∈ phrases, phrase.toList <+: text.toList

@[simp]
theorem startsAs_toString_append {phrases : List String} {start : String}
    (listed : start ∈ phrases) (rest : String) : StartsAs phrases (toString start ++ rest) := by
  refine ⟨start, listed, ?_⟩
  rw [toString, instToStringString, String.toList_append]
  exact List.prefix_append _ _

@[simp]
theorem startsAs_append_assoc (phrases : List String) (first second third : String) :
    StartsAs phrases (first ++ second ++ third) ↔
      StartsAs phrases (first ++ (second ++ third)) := by
  rw [String.append_assoc]

private theorem phrases_apart : ((directivePhrases.map String.toList).all fun phrase =>
    (otherPhrases.map String.toList).all fun other =>
      !(phrase.isPrefixOf other || other.isPrefixOf phrase)) = true := by
  simp only [directivePhrases, otherPhrases, List.map_cons, List.map_nil]
  -- Literals are taken apart one by one, which is cheaper than to evaluate them.
  repeat rw [String.toList_ofList]
  decide +kernel

theorem not_startsAs_directivePhrases {text : String} (otherwise : StartsAs otherPhrases text) :
    ¬StartsAs directivePhrases text := by
  obtain ⟨start, listed, starts⟩ := otherwise
  rintro ⟨phrase, isPhrase, startsToo⟩
  have apart := List.all_eq_true.mp (List.all_eq_true.mp phrases_apart _
    (List.mem_map_of_mem isPhrase)) _ (List.mem_map_of_mem listed)
  rw [Bool.not_eq_true', Bool.or_eq_false_iff] at apart
  rcases List.prefix_or_prefix_of_prefix startsToo starts with shorter | longer
  · exact Bool.eq_false_iff.mp apart.1 (List.isPrefixOf_iff_prefix.mpr shorter)
  · exact Bool.eq_false_iff.mp apart.2 (List.isPrefixOf_iff_prefix.mpr longer)

namespace Event

def isAboutDirectives (event : Event) : Bool :=
  directivePhrases.any fun phrase => phrase.toList.isPrefixOf event.reason.toList

/-- The report names a directive of the list, or an argument of it, as lost or changed. -/
structure BlamesDirective (directives : List Directive) (event : Event) : Prop where
  breaking : event.isBreaking = true
  category : event.category? = some .missing ∨ event.category? = some .invalid
  components : ∃ directive ∈ directives, event.finding.components = [directive.name] ∨
    ∃ argument, event.finding.components = [directive.name, argument]

theorem isAboutDirectives_iff (event : Event) :
    event.isAboutDirectives = true ↔ StartsAs directivePhrases event.reason := by
  simp only [isAboutDirectives, StartsAs, List.any_eq_true, List.isPrefixOf_iff_prefix]

theorem isAboutDirectives_eq_false {event : Event}
    (otherwise : StartsAs otherPhrases event.reason) : event.isAboutDirectives = false := by
  rw [← Bool.not_eq_true, isAboutDirectives_iff]
  exact not_startsAs_directivePhrases otherwise

@[simp]
theorem reason_progress (location : Location) (reason : String) :
    (progress location reason).reason = reason :=
  rfl

@[simp]
theorem reason_breaking (category : Category) (location : Location) (components : List String)
    (reason : String) : (breaking category location components reason).reason = reason :=
  rfl

@[simp]
theorem reason_dangerous (category : Category) (location : Location) (components : List String)
    (reason : String) : (dangerous category location components reason).reason = reason :=
  rfl

end Event

namespace Diff

def Step.isAboutDirectives : Step → Bool
  | .report event => event.isAboutDirectives
  | .follow _ _ | .giveUp _ => false

/-- The second list of steps is the first one with reports put in that blame some directives. -/
inductive Enriched (directives : List Directive) : List Step → List Step → Prop
  | nil : Enriched directives [] []
  | same {step : Step} {plain full : List Step} :
      step.isAboutDirectives = false → Enriched directives plain full →
      Enriched directives (step :: plain) (step :: full)
  | extra {event : Event} {plain full : List Step} :
      event.isAboutDirectives = true → event.BlamesDirective directives →
      Enriched directives plain full → Enriched directives plain (.report event :: full)

namespace Enriched

variable {directives : List Directive} {plain full plainRest fullRest : List Step}

theorem append (enriched : Enriched directives plain full)
    (restEnriched : Enriched directives plainRest fullRest) :
    Enriched directives (plain ++ plainRest) (full ++ fullRest) := by
  induction enriched with
  | nil => exact restEnriched
  | same other _ ih => exact .same other ih
  | extra about blames _ ih => exact .extra about blames ih

theorem flatMap {α : Type} {items : List α} {plainOf fullOf : α → List Step}
    (enriched : ∀ item ∈ items, Enriched directives (plainOf item) (fullOf item)) :
    Enriched directives (items.flatMap plainOf) (items.flatMap fullOf) := by
  induction items with
  | nil => exact .nil
  | cons item rest ih =>
      rw [List.flatMap_cons, List.flatMap_cons]
      exact (enriched item List.mem_cons_self).append
        (ih fun other member => enriched other (List.mem_cons_of_mem _ member))

theorem flatMap_index {α : Type} {name : α → String} {items : List α}
    {plainOf fullOf : String × α → List Step}
    (enriched : ∀ key, ∀ item ∈ items, Enriched directives (plainOf (key, item)) (fullOf (key, item))) :
    Enriched directives ((NameMap.index name items).entries.flatMap plainOf)
      ((NameMap.index name items).entries.flatMap fullOf) := by
  apply flatMap
  rintro ⟨key, item⟩ inEntries
  have found := (NameMap.mem_entries_iff _ _ _).mp inEntries
  exact enriched key item (NameMap.mem_of_get?_index found)

theorem self {steps : List Step} (others : ∀ step ∈ steps, step.isAboutDirectives = false) :
    Enriched directives steps steps := by
  induction steps with
  | nil => exact .nil
  | cons step rest ih =>
      exact .same (others step List.mem_cons_self)
        (ih fun other member => others other (List.mem_cons_of_mem _ member))

theorem extras {steps : List Step}
    (blame : ∀ step ∈ steps, ∃ event, step = .report event ∧ event.isAboutDirectives = true ∧
      event.BlamesDirective directives) : Enriched directives [] steps := by
  induction steps with
  | nil => exact .nil
  | cons step rest ih =>
      obtain ⟨event, rfl, about, blames⟩ := blame step List.mem_cons_self
      exact .extra about blames (ih fun other member => blame other (List.mem_cons_of_mem _ member))

theorem report {event : Event} (otherwise : StartsAs otherPhrases event.reason)
    (rest : Enriched directives plain full) :
    Enriched directives (.report event :: plain) (.report event :: full) :=
  .same (Event.isAboutDirectives_eq_false otherwise) rest

theorem follow (oldName newName : String) :
    Enriched directives [.follow oldName newName] [.follow oldName newName] :=
  .same rfl .nil

theorem filter_eq (enriched : Enriched directives plain full) :
    (full.filter fun step => !step.isAboutDirectives) = plain := by
  induction enriched with
  | nil => rfl
  | same other _ ih => simp [other, ih]
  | extra about _ _ ih => simpa [Step.isAboutDirectives, about] using ih

theorem blames (enriched : Enriched directives plain full) {event : Event}
    (member : .report event ∈ full) (about : event.isAboutDirectives = true) :
    event.BlamesDirective directives := by
  induction enriched with
  | nil => cases member
  | @same step plain full other _ ih =>
      rcases List.mem_cons.mp member with rfl | further
      · exact absurd about (by simpa [Step.isAboutDirectives] using other)
      · exact ih further
  | extra _ blames _ ih =>
      rcases List.mem_cons.mp member with atHead | further
      · cases atHead
        exact blames
      · exact ih further

end Enriched

/-! ### Scripts with and without the enforcement -/

section Scripts

variable {directives : List Directive} (options : Options)

theorem DirectiveReport.blames {location : Location} {old new : List Directive} {event : Event}
    (report : DirectiveReport location old new event) (contained : old ⊆ directives) :
    event.BlamesDirective directives := by
  have named {name : String} {directive : Directive}
      (found : (NameMap.index Directive.name old).get? name = some directive) :
      ∃ other ∈ directives, name = other.name :=
    ⟨directive, contained (NameMap.mem_of_get?_index found),
      (NameMap.name_of_get?_index found).symm⟩
  cases report with
  | lost found | fewerArguments found =>
      obtain ⟨directive, member, rfl⟩ := named found
      exact ⟨rfl, Or.inl rfl, directive, member, Or.inl rfl⟩
  | argumentLost found =>
      obtain ⟨directive, member, rfl⟩ := named found
      exact ⟨rfl, Or.inl rfl, directive, member, Or.inr ⟨_, rfl⟩⟩
  | argumentReformed found =>
      obtain ⟨directive, member, rfl⟩ := named found
      exact ⟨rfl, Or.inr rfl, directive, member, Or.inr ⟨_, rfl⟩⟩

theorem isAboutDirectives_of_mem_directiveArgumentEvents {location : Location} {name : String}
    {old new : Directive} {event : Event}
    (member : event ∈ directiveArgumentEvents location name old new) :
    event.isAboutDirectives = true := by
  rw [Event.isAboutDirectives_iff]
  unfold directiveArgumentEvents at member
  split at member
  · cases List.mem_singleton.mp member
    simp
  · rw [NameMap.mem_flatMap_entries_iff] at member
    obtain ⟨argument, value, _, inEntry⟩ := member
    dsimp only at inEntry
    split at inEntry
    · cases List.mem_singleton.mp inEntry
      simp
    · split at inEntry
      · cases inEntry
      · cases List.mem_singleton.mp inEntry
        simp

theorem exists_report_of_mem_directivesScript {location : Location} {old new : List Directive}
    {step : Step} (member : step ∈ directivesScript options location old new) :
    ∃ event, step = .report event ∧ event.isAboutDirectives = true := by
  unfold directivesScript at member
  split at member
  · rw [NameMap.mem_flatMap_entries_iff] at member
    obtain ⟨name, directive, _, inEntry⟩ := member
    dsimp only at inEntry
    split at inEntry
    · refine ⟨_, List.mem_singleton.mp inEntry, ?_⟩
      rw [Event.isAboutDirectives_iff]
      simp
    · obtain ⟨event, inEvents, rfl⟩ := List.mem_map.mp inEntry
      exact ⟨event, rfl, isAboutDirectives_of_mem_directiveArgumentEvents inEvents⟩
  · cases member

theorem enriched_directivesScript (location : Location) {old : List Directive}
    (new : List Directive) (contained : old ⊆ directives) :
    Enriched directives (directivesScript default location old new)
      (directivesScript options location old new) := by
  apply Enriched.extras
  intro step member
  obtain ⟨event, rfl, about⟩ := exists_report_of_mem_directivesScript options member
  exact ⟨event, rfl, about, (directiveReport_of_mem member).2.blames contained⟩

theorem enriched_defaultScript (location : Location) {subject : String} (old new : InputValue) :
    Enriched directives (defaultScript location subject old new)
      (defaultScript location subject old new) := by
  apply Enriched.append
  · split
    · split
      · exact .nil
      · exact .report (by simp) .nil
    · exact .nil
  · split
    · exact .nil
    · exact .report (by simp) .nil

theorem enriched_argumentScript (owner : Owner) (fieldName : String) {old : InputValue}
    (new : InputValue) (contained : old.directives ⊆ directives) :
    Enriched directives (argumentScript default owner fieldName old new)
      (argumentScript options owner fieldName old new) := by
  unfold argumentScript
  refine .append (.append ?_ (enriched_defaultScript _ old new))
    (enriched_directivesScript options _ new.directives contained)
  split
  · exact .report (by simp) .nil
  · exact .follow _ _

theorem enriched_argumentsScript (owner : Owner) {old : Field} (new : Field)
    (contained : old.allDirectives ⊆ directives) :
    Enriched directives (argumentsScript default owner old new)
      (argumentsScript options owner old new) := by
  unfold argumentsScript
  dsimp only
  split
  · exact .report (by simp) .nil
  · refine .append (.flatMap_index fun name argument member => ?_) (.flatMap_index fun _ _ _ => ?_)
    · refine .report (by simp) ?_
      dsimp only
      split
      · have ofArgument := List.Subset.trans (Field.argumentDirectives_subset member) contained
        exact enriched_argumentScript options owner old.name _ ofArgument
      · exact .report (by simp) .nil
    · dsimp only
      split
      · exact .report (by simp) .nil
      · exact .nil

theorem enriched_fieldScript (owner : Owner) {old : Field} (new : Field)
    (contained : old.allDirectives ⊆ directives) :
    Enriched directives (fieldScript default owner old new) (fieldScript options owner old new) := by
  have ofField := (List.append_subset.mp contained).1
  unfold fieldScript
  refine .append (.append (.append ?_ (enriched_argumentsScript options owner new contained))
    (enriched_directivesScript options _ new.directives ofField)) (.follow _ _)
  split
  · exact .report (by simp) .nil
  · exact .nil

theorem enriched_fieldsScript (owner : Owner) {old : List Field} (new : List Field)
    (contained : old.flatMap Field.allDirectives ⊆ directives) :
    Enriched directives (fieldsScript default owner old new)
      (fieldsScript options owner old new) := by
  unfold fieldsScript
  refine .flatMap_index fun name field member => ?_
  refine .report (by simp) ?_
  split
  · have ofField : field.allDirectives ⊆ directives := fun directive applied =>
      contained (List.mem_flatMap.mpr ⟨field, member, applied⟩)
    exact enriched_fieldScript options owner _ ofField
  · exact .report (by simp) .nil

theorem enriched_interfaceScript {old : InterfaceType} (new : InterfaceType)
    (contained : (TypeDefinition.interface old).allDirectives ⊆ directives) :
    Enriched directives (interfaceScript default old new) (interfaceScript options old new) := by
  obtain ⟨ofType, ofFields⟩ := List.append_subset.mp contained
  exact .append (enriched_fieldsScript options _ new.fields ofFields)
    (enriched_directivesScript options _ new.directives ofType)

theorem enriched_unionScript {old : UnionType} (new : UnionType)
    (contained : old.directives ⊆ directives) :
    Enriched directives (unionScript default old new) (unionScript options old new) := by
  unfold unionScript
  refine .append (.append (.append (.self ?_) (.self ?_))
    (enriched_directivesScript options _ new.directives contained)) (.self ?_)
  · rintro step inLost
    obtain ⟨member, _, rfl⟩ := List.mem_map.mp inLost
    exact Event.isAboutDirectives_eq_false
      (by simp)
  · rintro step inAdded
    obtain ⟨member, _, rfl⟩ := List.mem_map.mp inAdded
    exact Event.isAboutDirectives_eq_false
      (by simp)
  · rintro step inShared
    obtain ⟨member, _, rfl⟩ := List.mem_map.mp inShared
    rfl

theorem enriched_enumScript {old : EnumType} (new : EnumType)
    (contained : (TypeDefinition.enum old).allDirectives ⊆ directives) :
    Enriched directives (enumScript default old new) (enumScript options old new) := by
  obtain ⟨ofType, ofValues⟩ := List.append_subset.mp contained
  unfold enumScript
  refine .append (.append (.flatMap_index fun name value member => ?_) (.flatMap fun name _ => ?_))
    (enriched_directivesScript options _ new.directives ofType)
  · dsimp only
    split
    · have ofValue : value.directives ⊆ directives := fun directive applied =>
        ofValues (List.mem_flatMap.mpr ⟨value, member, applied⟩)
      exact enriched_directivesScript options _ _ ofValue
    · exact .report (by simp) .nil
  · split
    · exact .nil
    · exact .report (by simp) .nil

theorem enriched_inputFieldScript (owner : Owner) (name : String) {old : InputValue}
    (new : InputValue) (contained : old.directives ⊆ directives) :
    Enriched directives (inputFieldScript default owner name old new)
      (inputFieldScript options owner name old new) := by
  unfold inputFieldScript
  refine .append (.append (.append ?_ (enriched_defaultScript _ old new))
    (enriched_directivesScript options _ new.directives contained)) ?_
  · split
    · exact .report (by simp) .nil
    · exact .nil
  · split
    · exact .follow _ _
    · exact .nil

theorem enriched_inputObjectScript {old : InputObjectType} (new : InputObjectType)
    (contained : (TypeDefinition.inputObject old).allDirectives ⊆ directives) :
    Enriched directives (inputObjectScript default old new) (inputObjectScript options old new) := by
  obtain ⟨ofType, ofFields⟩ := List.append_subset.mp contained
  unfold inputObjectScript
  refine .append (.append (.flatMap_index fun name field member => ?_)
    (.flatMap_index fun _ _ _ => ?_)) (enriched_directivesScript options _ new.directives ofType)
  · dsimp only
    split
    · have ofField : field.directives ⊆ directives := fun directive applied =>
        ofFields (List.mem_flatMap.mpr ⟨field, member, applied⟩)
      exact enriched_inputFieldScript options _ name _ ofField
    · exact .report (by simp) .nil
  · dsimp only
    split
    · exact .report (by simp) .nil
    · exact .nil

variable (oldDocument newDocument : Document)

theorem enriched_implementedScript (old new : ObjectType) :
    Enriched oldDocument.allDirectives
      (implementedScript default oldDocument newDocument old new)
      (implementedScript options oldDocument newDocument old new) := by
  unfold implementedScript
  refine .flatMap fun name _ => ?_
  cases isOld : oldDocument.interface? name with
  | none => exact .same rfl .nil
  | some oldInterface =>
      dsimp only
      split
      · have found := (interface?_eq_some_iff _ _ _).mp isOld
        exact enriched_interfaceScript options _ (Document.allDirectives_of_type? found)
      · exact .report (by simp) .nil

theorem enriched_definitionScript (name : String) {old : TypeDefinition} (new : TypeDefinition)
    (contained : old.allDirectives ⊆ oldDocument.allDirectives) :
    Enriched oldDocument.allDirectives
      (definitionScript default oldDocument newDocument name old new)
      (definitionScript options oldDocument newDocument name old new) := by
  cases old <;> cases new
  case object.object old new =>
    obtain ⟨ofType, ofFields⟩ := List.append_subset.mp contained
    exact .append (.append (enriched_fieldsScript options _ new.fields ofFields)
      (enriched_implementedScript options oldDocument newDocument old new))
      (enriched_directivesScript options _ new.directives ofType)
  case interface.interface old new => exact enriched_interfaceScript options new contained
  case union.union old new => exact enriched_unionScript options new contained
  case enum.enum old new => exact enriched_enumScript options new contained
  case inputObject.inputObject old new => exact enriched_inputObjectScript options new contained
  case scalar.scalar old new =>
    exact enriched_directivesScript options _ new.directives contained
  all_goals exact .report (by simp) .nil

/-- The enforcing script has the same steps, and reports about directives of the old schema between
them. -/
theorem enriched_script (oldName newName : String) :
    Enriched oldDocument.allDirectives
      (script default oldDocument newDocument oldName newName)
      (script options oldDocument newDocument oldName newName) := by
  unfold script
  split
  · exact .nil
  · cases oldFound : oldDocument.type? oldName with
    | none => exact .report (by simp) .nil
    | some old =>
        refine .report (by simp) ?_
        split
        · exact .report (by simp) .nil
        · exact enriched_definitionScript options oldDocument newDocument oldName _
            (Document.allDirectives_of_type? oldFound)

theorem enriched_operationsScript :
    Enriched oldDocument.allDirectives (operationsScript oldDocument newDocument)
      (operationsScript oldDocument newDocument) := by
  refine .flatMap fun operation _ => ?_
  unfold operationScript
  split
  · exact .nil
  · split
    · exact .report (by simp) .nil
    · split
      · exact .nil
      · exact .follow _ _

end Scripts

/-! ### Walks with and without the enforcement -/

def Trace.withoutDirectives (trace : Trace) : Trace :=
  { trace with events := trace.events.filter fun event => !event.isAboutDirectives }

theorem Trace.withoutDirectives_after (event : Event) (trace : Trace) :
    (Trace.after event trace).withoutDirectives =
      if event.isAboutDirectives then trace.withoutDirectives
      else .after event trace.withoutDirectives := by
  cases about : event.isAboutDirectives <;> simp [after, withoutDirectives, about]

section Walk

variable (options : Options) (oldDocument newDocument : Document)

/-- Reports about directives can be left out before a walk or after it. -/
theorem walk_filter (unexamined : List String) (agenda : List Step) :
    walk default oldDocument newDocument unexamined
        (agenda.filter fun step => !step.isAboutDirectives) =
      (walk options oldDocument newDocument unexamined agenda).withoutDirectives := by
  fun_induction walk options oldDocument newDocument unexamined agenda with
  | case1 unexamined => exact walk.eq_1 ..
  | case2 unexamined error rest => exact walk.eq_2 ..
  | case3 unexamined event rest ih =>
      rw [Trace.withoutDirectives_after, ← ih]
      cases about : event.isAboutDirectives with
      | true => simp [Step.isAboutDirectives, about]
      | false => simp [Step.isAboutDirectives, about, walk]
  | case4 unexamined oldName newName rest isNew ih =>
      have sameScript := (enriched_script options oldDocument newDocument oldName newName).filter_eq
      rw [List.filter_append, sameScript] at ih
      rw [List.filter_cons_of_pos rfl, walk, dif_pos isNew, ih]
  | case5 unexamined oldName newName rest notNew ih =>
      rw [List.filter_cons_of_pos rfl, walk, dif_neg notNew, ih]

theorem diff_default_eq :
    diff default oldDocument newDocument =
      (diff options oldDocument newDocument).withoutDirectives := by
  have walked := walk_filter options oldDocument newDocument oldDocument.mentions
    (operationsScript oldDocument newDocument)
  rw [(enriched_operationsScript oldDocument newDocument).filter_eq] at walked
  exact walked

variable {options oldDocument newDocument}

theorem blamesDirective_of_mem_diff_events {event : Event}
    (member : event ∈ (diff options oldDocument newDocument).events)
    (about : event.isAboutDirectives = true) :
    event.BlamesDirective oldDocument.allDirectives := by
  rcases mem_of_mem_walk_events member with atStart | ⟨pair, _, inScript⟩
  · exact (enriched_operationsScript oldDocument newDocument).blames
      ((mem_reported_iff _ _).mp atStart) about
  · exact (enriched_script options oldDocument newDocument pair.1 pair.2).blames
      ((mem_reported_iff _ _).mp inScript) about

end Walk

/-- The enforcement of directives ends a comparison in the same way, and adds to its events those
that blame a directive of the old schema. Progress and dangers stay, so breaks can only become more.
-/
theorem enforcement_adds_directive_events (old new : Document) :
    (diff default old new).failure? = (diff .enforcing old new).failure? ∧
      (diff default old new).events.Sublist (diff .enforcing old new).events ∧
      (diff default old new).events =
        (diff .enforcing old new).events.filter (fun event => !event.isAboutDirectives) ∧
      (∀ event ∈ (diff .enforcing old new).events, event.isAboutDirectives = true →
        event.BlamesDirective old.allDirectives) ∧
      (diff default old new).events.filter (fun event => !event.isBreaking) =
        (diff .enforcing old new).events.filter (fun event => !event.isBreaking) ∧
      ∀ count, (diff default old new).breakingCount = .ok count →
        ∃ enforced, (diff .enforcing old new).breakingCount = .ok enforced ∧ count ≤ enforced := by
  have same := diff_default_eq .enforcing old new
  have sameEnd : (diff default old new).failure? = (diff .enforcing old new).failure? := by
    rw [same, Trace.withoutDirectives]
  have filtered : (diff default old new).events =
      (diff .enforcing old new).events.filter (fun event => !event.isAboutDirectives) := by
    rw [same, Trace.withoutDirectives]
  have sublist : (diff default old new).events.Sublist (diff .enforcing old new).events :=
    filtered ▸ List.filter_sublist
  have blamed : ∀ event ∈ (diff .enforcing old new).events, event.isAboutDirectives = true →
      event.BlamesDirective old.allDirectives :=
    fun _ member about => blamesDirective_of_mem_diff_events member about
  refine ⟨sameEnd, sublist, filtered, blamed, ?_, fun count succeeded => ?_⟩
  · rw [filtered, List.filter_filter]
    refine List.filter_congr fun event member => ?_
    cases about : event.isAboutDirectives with
    | true => simp [(blamed event member about).breaking]
    | false => exact Bool.and_true _
  · unfold Trace.breakingCount at succeeded ⊢
    rw [sameEnd] at succeeded
    cases ended : (diff .enforcing old new).failure? with
    | some error =>
        rw [ended] at succeeded
        cases succeeded
    | none =>
        rw [ended] at succeeded
        cases succeeded
        exact ⟨_, rfl, sublist.countP_le⟩

def taggedSchema (directives : List Directive) : Document :=
  .rooted [.object ⟨"Root", [⟨"id", .named "ID", [], []⟩], [], directives⟩]

def lostTag : Event :=
  .breaking .missing ⟨"Root", none, some .object⟩ ["tag"]
    "The new API does not have a directive named 'tag'"

/-- The tag is missed only by the comparison that enforces directives. -/
theorem lostTag_enforced :
    (diff default (taggedSchema [⟨"tag", .empty⟩]) (taggedSchema [])).breakingCount = .ok 0 ∧
      (∃ enforced, (diff .enforcing (taggedSchema [⟨"tag", .empty⟩])
        (taggedSchema [])).breakingCount = .ok enforced ∧ 0 ≤ enforced) ∧
      lostTag ∈ (diff .enforcing (taggedSchema [⟨"tag", .empty⟩]) (taggedSchema [])).events ∧
      lostTag.isAboutDirectives = true ∧
      lostTag.BlamesDirective (taggedSchema [⟨"tag", .empty⟩]).allDirectives := by
  have clean :
      (diff default (taggedSchema [⟨"tag", .empty⟩]) (taggedSchema [])).breakingCount = .ok 0 := by
    cbv
  have third : (diff .enforcing (taggedSchema [⟨"tag", .empty⟩])
      (taggedSchema [])).events[2]? = some lostTag := by
    cbv
  have member := List.mem_of_getElem? third
  have about : lostTag.isAboutDirectives = true := by cbv
  obtain ⟨_, _, _, blames, _, counts⟩ :=
    enforcement_adds_directive_events (taggedSchema [⟨"tag", .empty⟩]) (taggedSchema [])
  exact ⟨clean, counts 0 clean, member, about, blames lostTag member about⟩

end Diff

end SchemaEvolution
