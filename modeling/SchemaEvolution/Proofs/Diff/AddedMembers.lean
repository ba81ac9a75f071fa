import Mathlib
import SchemaEvolution.Proofs.Diff.Additions
import SchemaEvolution.Proofs.Diff.SelfComparison

/-!
The comparison of a schema with one that was made from it by additions. It finds no break, and of
all additions it reports the values of enums and the members of unions that it examines, each once.
-/

namespace SchemaEvolution

def addedChoices : TypeDefinition → TypeDefinition → List String
  | .enum old, .enum new =>
      (new.values.map EnumValue.name).dedup.filter fun value =>
        value ∉ old.values.map EnumValue.name
  | .union old, .union new => new.members.dedup.filter fun member => member ∉ old.members
  | _, _ => []

def TypeDefinition.additionEvent (old : TypeDefinition) (choice : String) : Event :=
  .dangerous .addition ⟨old.name, none, some old.kind⟩ [choice]
    (if old.kind = .enum then s!"The new API has added a new enum value '{choice}'"
    else s!"The new API has added a new union member type '{choice}'")

def additionEvents (old new : Document) (name : String) : List Event :=
  match old.type? name, new.type? name with
  | some oldType, some newType => (addedChoices oldType newType).map oldType.additionEvent
  | _, _ => []

namespace Diff

variable {options : Options} {oldDocument newDocument : Document} {event : Event}

def dangers (steps : List Step) : List Event :=
  (reported steps).filter Event.isDangerous

theorem dangers_append (first second : List Step) :
    dangers (first ++ second) = dangers first ++ dangers second := by
  rw [dangers, reported_append, List.filter_append]
  rfl

def Harmless (steps : List Step) : Prop :=
  ∀ event, .report event ∈ steps → event.isDangerous = false

theorem Harmless.dangers_eq_nil {steps : List Step} (harmless : Harmless steps) :
    dangers steps = [] := by
  rw [dangers, List.filter_eq_nil_iff]
  intro event member
  rw [harmless event ((mem_reported_iff event steps).mp member)]
  exact Bool.false_ne_true

theorem dangers_append_harmless {steps : List Step} (harmless : Harmless steps) (others : List Step) :
    dangers (others ++ steps) = dangers others := by
  rw [dangers_append, harmless.dangers_eq_nil, List.append_nil]

theorem dangers_harmless_append {steps : List Step} (harmless : Harmless steps) (others : List Step) :
    dangers (steps ++ others) = dangers others := by
  rw [dangers_append, harmless.dangers_eq_nil, List.nil_append]

theorem dangers_map_report {items : List String} {event : String → Event}
    (dangerous : ∀ item, (event item).isDangerous = true) :
    dangers (items.map fun item => .report (event item)) = items.map event := by
  simp [dangers, reported, Step.event?, List.filterMap_map, Function.comp_def, dangerous]

/-- The loop over new names that reports those that the old side does not have. -/
theorem dangers_flatMap_report {names : List String} {isOld : String → Bool} {event : String → Event}
    (dangerous : ∀ name, (event name).isDangerous = true) :
    dangers (names.flatMap fun name => if isOld name then [] else [.report (event name)]) =
      (names.filter fun name => !isOld name).map event := by
  rw [← dangers_map_report dangerous]
  congr 1
  induction names with
  | nil => rfl
  | cons name rest ih =>
      rw [List.flatMap_cons, ih]
      cases known : isOld name <;> simp [known]

theorem DirectiveReport.isDangerous_eq_false {location : Location} {old new : List Directive}
    (report : DirectiveReport location old new event) : event.isDangerous = false := by
  cases report <;> rfl

theorem harmless_directivesScript (options : Options) (location : Location)
    (old new : List Directive) : Harmless (directivesScript options location old new) :=
  fun _ member => (directiveReport_of_mem member).2.isDangerous_eq_false

theorem dangers_enumScript_perm (options : Options) (old new : EnumType) :
    (dangers (enumScript options old new)).Perm
      ((addedChoices (.enum old) (.enum new)).map (TypeDefinition.enum old).additionEvent) := by
  unfold enumScript
  rw [dangers_append_harmless (harmless_directivesScript _ _ _ _), dangers_harmless_append,
    dangers_flatMap_report fun _ => rfl]
  · apply List.Perm.map
    have distinct := (NameMap.index EnumValue.name new.values).ascend.nodup_names
    apply (List.perm_ext_iff_of_nodup (distinct.filter _) ((List.nodup_dedup _).filter _)).mpr
    intro value
    rw [List.mem_filter, List.mem_filter, List.mem_dedup]
    apply and_congr (NameMap.mem_names_index_iff EnumValue.name new.values value)
    rw [Bool.not_eq_true', NameMap.contains_eq_false_iff, NameMap.get?_index_eq_none_iff,
      decide_eq_true_eq]
  · intro event member
    obtain ⟨name, oldValue, _, inEntry⟩ := (NameMap.mem_flatMap_entries_iff _ _ _).mp member
    dsimp only at inEntry
    split at inEntry
    · exact harmless_directivesScript _ _ _ _ event inEntry
    · cases List.mem_singleton.mp inEntry
      rfl

theorem dangers_unionScript_perm (options : Options) (old new : UnionType) :
    (dangers (unionScript options old new)).Perm
      ((addedChoices (.union old) (.union new)).map (TypeDefinition.union old).additionEvent) := by
  unfold unionScript
  dsimp only
  rw [dangers_append_harmless, dangers_append_harmless (harmless_directivesScript _ _ _ _),
    dangers_harmless_append, dangers_map_report fun _ => rfl]
  · apply List.Perm.map
    have distinct := (SortedSet.ofList new.members).nodup_elements
    apply (List.perm_ext_iff_of_nodup (distinct.filter _) ((List.nodup_dedup _).filter _)).mpr
    intro member
    simp only [List.mem_filter, List.mem_dedup, SortedSet.mem_elements_ofList]
  · intro event member
    obtain ⟨_, _, same⟩ := List.mem_map.mp member
    cases same
    rfl
  · intro event member
    obtain ⟨_, _, impossible⟩ := List.mem_map.mp member
    cases impossible

theorem InputReport.not_of_kept {inputs newInputs : List InputValue} {key : String}
    {location : Location} {input newInput : InputValue}
    (kept : KeptByName InputValue.name Eq inputs newInputs)
    (oldFound : (NameMap.index InputValue.name inputs).get? key = some input)
    (newFound : (NameMap.index InputValue.name newInputs).get? key = some newInput) :
    ¬InputReport options location input newInput event := by
  obtain ⟨other, otherFound, rfl⟩ := kept key input oldFound
  rw [newFound] at otherFound
  cases otherFound
  exact InputReport.not_self

theorem FieldReport.isDangerous_eq_false {owner : Owner} {old new : Field}
    (report : FieldReport options owner old new event)
    (kept : KeptByName InputValue.name Eq old.arguments new.arguments) :
    event.isDangerous = false := by
  cases report with
  | retyped | fewerArguments | argument | argumentLost | argumentDemanded => rfl
  | argumentKept oldFound newFound report =>
      exact absurd report (InputReport.not_of_kept kept oldFound newFound)
  | directive _ report => exact report.isDangerous_eq_false

theorem FieldsReport.isDangerous_eq_false {owner : Owner} {old new : List Field}
    (report : FieldsReport options owner old new event)
    (retained : KeptByName Field.name RetainsField old new) : event.isDangerous = false := by
  cases report with
  | field | lost => rfl
  | @kept name field newField _ oldFound newFound report =>
      obtain ⟨other, otherFound, retainedField⟩ := retained name field oldFound
      rw [newFound] at otherFound
      cases otherFound
      exact report.isDangerous_eq_false retainedField.arguments.kept

theorem InterfaceReport.isDangerous_eq_false {old new : InterfaceType}
    (report : InterfaceReport options old new event)
    (retained : RetainsDefinition (.interface old) (.interface new)) :
    event.isDangerous = false := by
  cases retained with
  | interface fields _ =>
      cases report with
      | fields report => exact report.isDangerous_eq_false fields
      | directive _ report => exact report.isDangerous_eq_false

/-- Apart from enums and unions there is nothing dangerous in additions. -/
theorem DefinitionReport.isDangerous_eq_false {name : String} {old new : TypeDefinition}
    (report : DefinitionReport options oldDocument newDocument name old new event)
    (document : RetainsDocument oldDocument newDocument) (retained : RetainsDefinition old new)
    (notEnum : old.kind ≠ .enum) (notUnion : old.kind ≠ .union) : event.isDangerous = false := by
  cases report with
  | rekinded | interfaceLost | memberLost | valueLost | inputFieldLost | inputFieldDemanded => rfl
  | fields report =>
      cases retained with
      | object fields _ _ => exact report.isDangerous_eq_false fields
  | interface report => exact report.isDangerous_eq_false retained
  | implemented _ isOld _ isNew report =>
      obtain ⟨other, isOther, retainedInterface⟩ := document.interface? isOld
      rw [isNew] at isOther
      cases isOther
      exact report.isDangerous_eq_false retainedInterface
  | memberAdded => exact absurd rfl notUnion
  | valueAdded | valueKept => exact absurd rfl notEnum
  | inputFieldKept oldFound newFound report =>
      cases retained with
      | inputObject fields _ =>
          exact absurd report (InputReport.not_of_kept fields.kept oldFound newFound)
  | directive _ _ report => exact report.isDangerous_eq_false

theorem dangers_definitionScript_perm {name : String} {old new : TypeDefinition}
    (document : RetainsDocument oldDocument newDocument) (retained : RetainsDefinition old new) :
    (dangers (definitionScript options oldDocument newDocument name old new)).Perm
      ((addedChoices old new).map old.additionEvent) := by
  have harmless (notEnum : old.kind ≠ .enum) (notUnion : old.kind ≠ .union) :
      Harmless (definitionScript options oldDocument newDocument name old new) :=
    fun event member => (definitionReport_of_mem member).isDangerous_eq_false document retained
      notEnum notUnion
  cases retained with
  | enum _ _ => exact dangers_enumScript_perm options _ _
  | union _ _ => exact dangers_unionScript_perm options _ _
  | object _ _ _ | interface _ _ | scalar _ | inputObject _ _ =>
      rw [(harmless TypeKind.noConfusion TypeKind.noConfusion).dangers_eq_nil]
      exact List.Perm.refl []

theorem dangers_script_perm (options : Options) (name : String)
    (document : RetainsDocument oldDocument newDocument) :
    (dangers (script options oldDocument newDocument name name)).Perm
      (if isExempt name then [] else additionEvents oldDocument newDocument name) := by
  unfold script additionEvents
  split
  · exact List.Perm.refl []
  · cases oldFound : oldDocument.type? name with
    | none => exact List.Perm.refl []
    | some old =>
        obtain ⟨new, newFound, retained⟩ := document.types name old oldFound
        simp only [newFound]
        exact dangers_definitionScript_perm document retained

def examinedNames (options : Options) (oldDocument newDocument : Document) : List String :=
  oldDocument.types.names.filter fun name =>
    (diff options oldDocument newDocument).events.any (Event.examines name)

theorem mem_examinedNames_iff {name : String}
    (finished : (diff options oldDocument newDocument).failure? = none) :
    name ∈ examinedNames options oldDocument newDocument ↔
      isExempt name = false ∧ (oldDocument.type? name).isSome ∧
        name ∈ comparedNames options oldDocument newDocument := by
  unfold examinedNames
  rw [List.mem_filter, List.any_eq_true, mem_comparedNames_iff]
  constructor
  · rintro ⟨_, event, member, examines⟩
    exact compared_of_examines member examines
  · rintro ⟨notExempt, defined, newName, compared⟩
    have once := countP_examines_eq_one finished compared notExempt defined
    have positive : 0 < (diff options oldDocument newDocument).events.countP
        (Event.examines name) := by omega
    exact ⟨(NameMap.mem_names_iff _ name).mpr (Option.isSome_iff_exists.mp defined),
      List.countP_pos_iff.mp positive⟩

theorem filter_comparedNames_perm
    (finished : (diff options oldDocument newDocument).failure? = none) :
    ((comparedNames options oldDocument newDocument).filter fun name =>
        decide (name ∈ examinedNames options oldDocument newDocument)).Perm
      (examinedNames options oldDocument newDocument) := by
  have distinct : (examinedNames options oldDocument newDocument).Nodup :=
    oldDocument.types.ascend.nodup_names.filter _
  rw [List.perm_ext_iff_of_nodup ((nodup_comparedNames _ _ _).filter _) distinct]
  intro name
  rw [List.mem_filter, decide_eq_true_eq, and_iff_right_iff_imp]
  exact fun examined => ((mem_examinedNames_iff finished).mp examined).2.2

theorem harmless_operationsScript (oldDocument newDocument : Document) :
    Harmless (operationsScript oldDocument newDocument) := by
  intro event member
  cases operationReport_of_mem member
  rfl

theorem dangers_diff_perm (finished : (diff options oldDocument newDocument).failure? = none) :
    ((diff options oldDocument newDocument).events.filter Event.isDangerous).Perm
      ((comparisons options oldDocument newDocument).flatMap fun pair =>
        dangers (script options oldDocument newDocument pair.1 pair.2)) := by
  refine ((walk_events_perm finished).filter Event.isDangerous).trans ?_
  rw [List.filter_append, List.filter_flatMap]
  change (dangers (operationsScript oldDocument newDocument) ++ _).Perm _
  rw [(harmless_operationsScript oldDocument newDocument).dangers_eq_nil, List.nil_append]
  exact List.Perm.refl _

section Retained

variable (retained : RetainsDocument oldDocument newDocument)
  (clean : (diff options oldDocument newDocument).breakingCount = .ok 0)

include retained clean

theorem dangers_diff_perm_comparedNames :
    ((diff options oldDocument newDocument).events.filter Event.isDangerous).Perm
      ((comparedNames options oldDocument newDocument).flatMap fun name =>
        dangers (script options oldDocument newDocument name name)) := by
  have finished := ((breakingCount_eq_ok_zero_iff_events _).mp clean).1
  refine (dangers_diff_perm finished).trans (List.Perm.of_eq ?_)
  rw [comparedNames, List.flatMap_map]
  apply List.flatMap_congr
  rintro ⟨oldName, newName⟩ compared
  have same := eq_of_mem_comparisons clean retained.sameRoots compared
  subst same
  rfl

/-- A name that is turned to but not examined is exempt or stands for nothing. -/
theorem dangers_script_eq_nil_of_not_examined {name : String}
    (compared : name ∈ comparedNames options oldDocument newDocument)
    (notExamined : name ∉ examinedNames options oldDocument newDocument) :
    dangers (script options oldDocument newDocument name name) = [] := by
  have finished := ((breakingCount_eq_ok_zero_iff_events _).mp clean).1
  have reports := dangers_script_perm options name retained
  cases exempt : isExempt name with
  | true =>
      rw [exempt] at reports
      exact reports.eq_nil
  | false =>
      have undefined : oldDocument.type? name = none := by
        by_contra defined
        rw [mem_examinedNames_iff finished] at notExamined
        exact notExamined ⟨exempt, Option.isSome_iff_ne_none.mpr defined, compared⟩
      simp only [exempt, additionEvents, undefined] at reports
      exact reports.eq_nil

theorem dangers_diff_perm_additions :
    ((diff options oldDocument newDocument).events.filter Event.isDangerous).Perm
      ((examinedNames options oldDocument newDocument).flatMap
        (additionEvents oldDocument newDocument)) := by
  have finished := ((breakingCount_eq_ok_zero_iff_events _).mp clean).1
  let dangersOf := fun name => dangers (script options oldDocument newDocument name name)
  let isExamined := fun name => decide (name ∈ examinedNames options oldDocument newDocument)
  have apart := (List.filter_append_perm isExamined
    (comparedNames options oldDocument newDocument)).flatMap_right dangersOf
  have othersSilent : ((comparedNames options oldDocument newDocument).filter fun name =>
      !isExamined name).flatMap dangersOf = [] := by
    rw [List.flatMap_eq_nil_iff]
    intro name member
    obtain ⟨compared, notExamined⟩ := List.mem_filter.mp member
    exact dangers_script_eq_nil_of_not_examined retained clean compared
      (by simpa [isExamined] using notExamined)
  rw [List.flatMap_append, othersSilent, List.append_nil] at apart
  have ofExamined : ∀ name ∈ (comparedNames options oldDocument newDocument).filter isExamined,
      (dangersOf name).Perm (additionEvents oldDocument newDocument name) := by
    intro name member
    have examined : name ∈ examinedNames options oldDocument newDocument := by
      simpa [isExamined] using (List.mem_filter.mp member).2
    have reports := dangers_script_perm options name retained
    rw [((mem_examinedNames_iff finished).mp examined).1] at reports
    exact reports
  exact (dangers_diff_perm_comparedNames retained clean).trans
    (apart.symm.trans ((filter_comparedNames_perm finished).flatMap ofExamined))

theorem mem_examinedNames_iff_reachable {name : String} :
    name ∈ examinedNames options oldDocument newDocument ↔
      oldDocument.Reachable name ∧ (oldDocument.type? name).isSome := by
  rw [mem_examinedNames_iff ((breakingCount_eq_ok_zero_iff_events _).mp clean).1,
    mem_comparedNames_iff]
  constructor
  · rintro ⟨notExempt, defined, newName, compared⟩
    exact ⟨reachable_of_mem_comparisons compared notExempt, defined⟩
  · rintro ⟨reachable, defined⟩
    exact ⟨reachable.isExempt_eq_false, defined, name,
      mem_comparisons_of_reachable clean retained.sameRoots reachable⟩

end Retained

/-- A schema that was made from an old one by additions does not break it, if the old schema is
complete. The comparison examines what can be reached in the old schema. Of the additions it reports
the values and members of the enums and unions among these types, and nothing else as dangerous. -/
theorem additions_reported (options ownOptions : Options) (old new : Document)
    (complete : (diff ownOptions old old).failure? = none)
    (grown : Relation.ReflTransGen Document.AddsTo old new) :
    (diff options old new).breakingCount = .ok 0 ∧
      (∀ name, name ∈ examinedNames options old new ↔
        old.Reachable name ∧ (old.type? name).isSome) ∧
      ((diff options old new).events.filter Event.isDangerous).Perm
        ((examinedNames options old new).flatMap (additionEvents old new)) := by
  have retained := retains_of_additions grown
  have clean : (diff options old new).breakingCount = .ok 0 := by
    apply retained.breakingCount
    intro name definition reachable found
    cases definition with
    | object type => exact failure?_eq_none_iff_self.mp complete name type reachable found
    | interface _ | union _ | enum _ | scalar _ | inputObject _ => trivial
  exact ⟨clean, fun _ => mem_examinedNames_iff_reachable retained clean,
    dangers_diff_perm_additions retained clean⟩

def hueType (values : List EnumValue) : TypeDefinition :=
  .enum ⟨"Hue", values, []⟩

def thingType (members : List String) : TypeDefinition :=
  .union ⟨"Any", members, []⟩

def tileType : TypeDefinition :=
  .object ⟨"Tile", [⟨"id", .named "ID", [], []⟩], [], []⟩

def palette : Document :=
  .rooted [.object ⟨"Root", [⟨"hue", .named "Hue", [], []⟩, ⟨"any", .named "Any", [], []⟩], [], []⟩,
    hueType [⟨"RED", []⟩], thingType ["Root"]]

def richerPalette : Document :=
  ((palette.insert tileType).insert (thingType ["Root", "Tile"])).insert
    (hueType [⟨"BLUE", []⟩, ⟨"RED", []⟩])

theorem richerPalette_grown : Relation.ReflTransGen Document.AddsTo palette richerPalette := by
  have tileAdded : palette.AddsTo (palette.insert tileType) := .type (by decide)
  have tileListed : AddsItem id (fun _ => True) ["Root"] ["Root", "Tile"] :=
    @AddsItem.insert _ id _ ["Root"] [] "Tile" (by decide) trivial
  have blueListed : AddsItem EnumValue.name (fun _ => True) [⟨"RED", []⟩]
      [⟨"BLUE", []⟩, ⟨"RED", []⟩] :=
    @AddsItem.insert _ EnumValue.name _ [] [⟨"RED", []⟩] ⟨"BLUE", []⟩ (by decide) trivial
  have memberAdded := @Document.AddsTo.member (palette.insert tileType) "Any" _ _ (by decide)
    (@TypeDefinition.AddsTo.member ⟨"Any", ["Root"], []⟩ _ tileListed)
  exact .tail (.tail (.single tileAdded) memberAdded)
    (.member (by decide) (@TypeDefinition.AddsTo.value ⟨"Hue", [⟨"RED", []⟩], []⟩ _ blueListed))

theorem richerPalette_reported :
    (diff default palette palette).failure? = none ∧
      Relation.ReflTransGen Document.AddsTo palette richerPalette ∧
      (diff default palette richerPalette).breakingCount = .ok 0 ∧
      ((diff default palette richerPalette).events.filter Event.isDangerous).Perm
        [(thingType ["Root"]).additionEvent "Tile", (hueType [⟨"RED", []⟩]).additionEvent "BLUE"] := by
  have complete : (diff default palette palette).failure? = none := by cbv
  have examined : examinedNames default palette richerPalette = ["Any", "Hue", "Root"] := by cbv
  have expected : ["Any", "Hue", "Root"].flatMap (additionEvents palette richerPalette) =
      [(thingType ["Root"]).additionEvent "Tile", (hueType [⟨"RED", []⟩]).additionEvent "BLUE"] := by
    cbv
  obtain ⟨clean, _, reported⟩ :=
    additions_reported default default palette richerPalette complete richerPalette_grown
  rw [examined, expected] at reported
  exact ⟨complete, richerPalette_grown, clean, reported⟩

end Diff

end SchemaEvolution
