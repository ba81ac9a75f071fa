import SchemaEvolution.Proofs.Diff.Comparisons
import SchemaEvolution.Proofs.SortedSet

/-!
When a comparison gives up: some object of the old schema that is compared with an object implements
what is no interface there. No other script gives up.
-/

namespace SchemaEvolution.Diff

theorem goesOn_nil : GoesOn [] :=
  fun _ => List.not_mem_nil

theorem goesOn_report (event : Event) : GoesOn [.report event] :=
  (goesOn_cons_report _ _).mpr goesOn_nil

theorem goesOn_follow (oldName newName : String) : GoesOn [.follow oldName newName] :=
  (goesOn_cons_follow _ _ _).mpr goesOn_nil

theorem goesOn_flatMap_iff {α : Type} (items : List α) (steps : α → List Step) :
    GoesOn (items.flatMap steps) ↔ ∀ item ∈ items, GoesOn (steps item) := by
  constructor
  · intro goesOn item member error inSteps
    exact goesOn error (List.mem_flatMap.mpr ⟨item, member, inSteps⟩)
  · intro goesOn error member
    obtain ⟨item, inItems, inSteps⟩ := List.mem_flatMap.mp member
    exact goesOn item inItems error inSteps

theorem goesOn_map_report {α : Type} (items : List α) (event : α → Event) :
    GoesOn (items.map fun item => .report (event item)) := by
  intro error member
  obtain ⟨item, _, impossible⟩ := List.mem_map.mp member
  cases impossible

theorem goesOn_map_follow {α : Type} (items : List α) (oldName newName : α → String) :
    GoesOn (items.map fun item => .follow (oldName item) (newName item)) := by
  intro error member
  obtain ⟨item, _, impossible⟩ := List.mem_map.mp member
  cases impossible

section Scripts

variable (options : Options)

theorem goesOn_directivesScript (location : Location) (old new : List Directive) :
    GoesOn (directivesScript options location old new) := by
  unfold directivesScript
  split
  · refine (goesOn_flatMap_iff _ _).mpr fun entry _ => ?_
    dsimp only
    split
    · exact goesOn_report _
    · exact goesOn_map_report _ _
  · exact goesOn_nil

theorem goesOn_defaultScript (location : Location) (subject : String) (old new : InputValue) :
    GoesOn (defaultScript location subject old new) := by
  refine (goesOn_append _ _).mpr ⟨?_, ?_⟩
  · split
    · split
      · exact goesOn_nil
      · exact goesOn_report _
    · exact goesOn_nil
  · split
    · exact goesOn_nil
    · exact goesOn_report _

theorem goesOn_argumentScript (owner : Owner) (fieldName : String) (old new : InputValue) :
    GoesOn (argumentScript options owner fieldName old new) := by
  unfold argumentScript
  simp only [goesOn_append, goesOn_defaultScript, goesOn_directivesScript, and_true]
  split
  · exact goesOn_report _
  · exact goesOn_follow _ _

theorem goesOn_argumentsScript (owner : Owner) (old new : Field) :
    GoesOn (argumentsScript options owner old new) := by
  unfold argumentsScript
  dsimp only
  split
  · exact goesOn_report _
  · refine (goesOn_append _ _).mpr ⟨(goesOn_flatMap_iff _ _).mpr fun entry _ => ?_,
      (goesOn_flatMap_iff _ _).mpr fun entry _ => ?_⟩
    · refine (goesOn_cons_report _ _).mpr ?_
      split
      · exact goesOn_argumentScript options owner old.name entry.2 _
      · exact goesOn_report _
    · split
      · exact goesOn_report _
      · exact goesOn_nil

theorem goesOn_fieldScript (owner : Owner) (old new : Field) :
    GoesOn (fieldScript options owner old new) := by
  unfold fieldScript
  simp only [goesOn_append, goesOn_argumentsScript, goesOn_directivesScript, and_true]
  refine ⟨?_, goesOn_follow _ _⟩
  split
  · exact goesOn_report _
  · exact goesOn_nil

theorem goesOn_fieldsScript (owner : Owner) (old new : List Field) :
    GoesOn (fieldsScript options owner old new) := by
  refine (goesOn_flatMap_iff _ _).mpr fun entry _ => (goesOn_cons_report _ _).mpr ?_
  split
  · exact goesOn_fieldScript options owner entry.2 _
  · exact goesOn_report _

theorem goesOn_interfaceScript (old new : InterfaceType) :
    GoesOn (interfaceScript options old new) :=
  (goesOn_append _ _).mpr ⟨goesOn_fieldsScript options _ old.fields new.fields,
    goesOn_directivesScript options _ old.directives new.directives⟩

theorem goesOn_unionScript (old new : UnionType) : GoesOn (unionScript options old new) := by
  unfold unionScript
  simp only [goesOn_append, goesOn_directivesScript, and_true]
  exact ⟨⟨goesOn_map_report _ _, goesOn_map_report _ _⟩, goesOn_map_follow _ _ _⟩

theorem goesOn_enumScript (old new : EnumType) : GoesOn (enumScript options old new) := by
  unfold enumScript
  simp only [goesOn_append, goesOn_directivesScript, and_true]
  refine ⟨(goesOn_flatMap_iff _ _).mpr fun entry _ => ?_,
    (goesOn_flatMap_iff _ _).mpr fun name _ => ?_⟩
  · split
    · exact goesOn_directivesScript options _ _ _
    · exact goesOn_report _
  · split
    · exact goesOn_nil
    · exact goesOn_report _

theorem goesOn_inputFieldScript (owner : Owner) (name : String) (old new : InputValue) :
    GoesOn (inputFieldScript options owner name old new) := by
  unfold inputFieldScript
  simp only [goesOn_append, goesOn_defaultScript, goesOn_directivesScript, and_true]
  constructor
  · split
    · exact goesOn_report _
    · exact goesOn_nil
  · split
    · exact goesOn_follow _ _
    · exact goesOn_nil

theorem goesOn_inputObjectScript (old new : InputObjectType) :
    GoesOn (inputObjectScript options old new) := by
  unfold inputObjectScript
  simp only [goesOn_append, goesOn_directivesScript, and_true]
  refine ⟨(goesOn_flatMap_iff _ _).mpr fun entry _ => ?_,
    (goesOn_flatMap_iff _ _).mpr fun entry _ => ?_⟩
  · split
    · exact goesOn_inputFieldScript options _ _ _ _
    · exact goesOn_report _
  · split
    · exact goesOn_report _
    · exact goesOn_nil

variable (oldDocument newDocument : Document)

theorem goesOn_implementedScript_iff (old new : ObjectType) :
    GoesOn (implementedScript options oldDocument newDocument old new) ↔
      ∀ implemented ∈ old.interfaces, (oldDocument.interface? implemented).isSome := by
  unfold implementedScript
  rw [goesOn_flatMap_iff]
  simp only [SortedSet.mem_elements_ofList]
  refine forall₂_congr fun implemented _ => ?_
  cases oldDocument.interface? implemented with
  | none =>
      simp only [Option.isSome_none, Bool.false_eq_true, iff_false]
      exact fun goesOn => goesOn _ (List.mem_singleton_self _)
  | some oldInterface =>
      simp only [Option.isSome_some, iff_true]
      split
      · exact goesOn_interfaceScript options oldInterface _
      · exact goesOn_report _

theorem goesOn_definitionScript_iff (name : String) (old new : TypeDefinition) :
    GoesOn (definitionScript options oldDocument newDocument name old new) ↔
      ∀ oldType newType, old = .object oldType → new = .object newType →
        ∀ implemented ∈ oldType.interfaces, (oldDocument.interface? implemented).isSome := by
  cases old <;> cases new
  case object.object old new =>
    simp only [definitionScript, objectScript, goesOn_append, goesOn_fieldsScript,
      goesOn_directivesScript, goesOn_implementedScript_iff, true_and, and_true]
    constructor
    · rintro resolved _ _ ⟨⟩ ⟨⟩
      exact resolved
    · exact fun resolved => resolved old new rfl rfl
  case interface.interface old new => simp [definitionScript, goesOn_interfaceScript]
  case union.union old new => simp [definitionScript, goesOn_unionScript]
  case enum.enum old new => simp [definitionScript, goesOn_enumScript]
  case inputObject.inputObject old new => simp [definitionScript, goesOn_inputObjectScript]
  case scalar.scalar old new => simp [definitionScript, scalarScript, goesOn_directivesScript]
  all_goals simp [definitionScript, goesOn_report]

/-- The script of two names goes on unless it compares an object that implements no interfaces. -/
theorem goesOn_script_iff (oldName newName : String) :
    GoesOn (script options oldDocument newDocument oldName newName) ↔
      ∀ oldType newType, isExempt oldName = false →
        oldDocument.type? oldName = some (.object oldType) →
        newDocument.type? newName = some (.object newType) →
        ∀ implemented ∈ oldType.interfaces, (oldDocument.interface? implemented).isSome := by
  unfold script
  cases isExempt oldName with
  | true => simp [goesOn_nil]
  | false =>
      cases oldDocument.type? oldName with
      | none => simp [goesOn_report]
      | some old =>
          cases newDocument.type? newName with
          | none => simp [goesOn_cons_report, goesOn_nil]
          | some new => simp [goesOn_cons_report, goesOn_definitionScript_iff]

theorem goesOn_operationsScript : GoesOn (operationsScript oldDocument newDocument) := by
  refine (goesOn_flatMap_iff _ _).mpr fun operation _ => ?_
  unfold operationScript
  split
  · exact goesOn_nil
  · split
    · exact goesOn_report _
    · split
      · exact goesOn_nil
      · exact goesOn_follow _ _

/-- A comparison comes to its end exactly if all objects that it compares implement interfaces. -/
theorem diff_failure?_eq_none_iff_resolved :
    (diff options oldDocument newDocument).failure? = none ↔
      ∀ pair ∈ comparisons options oldDocument newDocument, ∀ oldType newType,
        isExempt pair.1 = false → oldDocument.type? pair.1 = some (.object oldType) →
        newDocument.type? pair.2 = some (.object newType) →
        ∀ implemented ∈ oldType.interfaces, (oldDocument.interface? implemented).isSome := by
  rw [diff_failure?_eq_none_iff]
  simp only [goesOn_operationsScript, true_and, goesOn_script_iff]

end Scripts

section Origins

variable {options : Options} {oldDocument newDocument : Document} {error : UnresolvedInterface}

theorem giveUp_mem_of_walk {unexamined : List String} {agenda : List Step}
    (failed : (walk options oldDocument newDocument unexamined agenda).failure? = some error) :
    .giveUp error ∈ agenda ∨
      ∃ pair ∈ visits options oldDocument newDocument unexamined agenda,
        .giveUp error ∈ script options oldDocument newDocument pair.1 pair.2 := by
  fun_induction visits options oldDocument newDocument unexamined agenda with
  | case1 unexamined =>
      rw [walk] at failed
      cases failed
  | case2 unexamined event rest ih =>
      rw [walk] at failed
      exact (ih failed).imp_left (List.mem_cons_of_mem _)
  | case3 unexamined other rest ih =>
      rw [walk] at failed
      cases failed
      exact Or.inl List.mem_cons_self
  | case4 unexamined firstOld firstNew rest isNew ih =>
      rw [walk, dif_pos isNew] at failed
      rcases ih failed with onAgenda | ⟨pair, visited, inScript⟩
      · rcases List.mem_append.mp onAgenda with inScript | inRest
        · exact Or.inr ⟨_, List.mem_cons_self, inScript⟩
        · exact Or.inl (List.mem_cons_of_mem _ inRest)
      · exact Or.inr ⟨pair, List.mem_cons_of_mem _ visited, inScript⟩
  | case5 unexamined firstOld firstNew rest notNew ih =>
      rw [walk, dif_neg notNew] at failed
      exact (ih failed).imp_left (List.mem_cons_of_mem _)

theorem unresolved_of_giveUp_mem_implementedScript {old new : ObjectType}
    (member : .giveUp error ∈ implementedScript options oldDocument newDocument old new) :
    error.typeName = old.name ∧ error.interface ∈ old.interfaces ∧
      oldDocument.interface? error.interface = none := by
  obtain ⟨implemented, inSet, inEntry⟩ := List.mem_flatMap.mp member
  rw [SortedSet.mem_elements_ofList] at inSet
  split at inEntry
  · rename_i unresolved
    cases List.mem_singleton.mp inEntry
    exact ⟨rfl, inSet, unresolved⟩
  · split at inEntry
    · exact absurd inEntry (goesOn_interfaceScript options _ _ error)
    · cases List.mem_singleton.mp inEntry

theorem unresolved_of_giveUp_mem_script {oldName newName : String}
    (member : .giveUp error ∈ script options oldDocument newDocument oldName newName) :
    ∃ type, oldDocument.type? oldName = some (.object type) ∧ error.typeName = type.name ∧
      error.interface ∈ type.interfaces ∧ oldDocument.interface? error.interface = none := by
  have stops : ¬GoesOn (script options oldDocument newDocument oldName newName) :=
    fun goesOn => goesOn error member
  rw [goesOn_script_iff] at stops
  push Not at stops
  obtain ⟨oldType, newType, notExempt, oldFound, newFound, _⟩ := stops
  refine ⟨oldType, oldFound, ?_⟩
  unfold script at member
  simp only [notExempt, oldFound, newFound, Bool.false_eq_true, if_false, List.mem_cons,
    reduceCtorEq, false_or, definitionScript, objectScript, List.mem_append] at member
  rcases member with (ofFields | ofInterfaces) | ofDirectives
  · exact absurd ofFields (goesOn_fieldsScript options _ _ _ error)
  · exact unresolved_of_giveUp_mem_implementedScript ofInterfaces
  · exact absurd ofDirectives (goesOn_directivesScript options _ _ _ error)

/-- A comparison gives up at an object of the old schema that it turned to, for the reason that the
error gives. -/
theorem unresolved_of_diff_failure
    (failed : (diff options oldDocument newDocument).failure? = some error) :
    ∃ pair ∈ comparisons options oldDocument newDocument, ∃ type,
      oldDocument.type? pair.1 = some (.object type) ∧ error.typeName = type.name ∧
      error.interface ∈ type.interfaces ∧ oldDocument.interface? error.interface = none := by
  rcases giveUp_mem_of_walk failed with atStart | ⟨pair, compared, inScript⟩
  · exact absurd atStart (goesOn_operationsScript oldDocument newDocument error)
  · exact ⟨pair, compared, unresolved_of_giveUp_mem_script inScript⟩

end Origins

end SchemaEvolution.Diff
