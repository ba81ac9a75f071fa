import Mathlib
import SchemaEvolution.Proofs.Diff.Reports
import SchemaEvolution.Proofs.Diff.Retyping

/-!
What it means that a type as a whole is reported, as lost or as changed in kind. The old type was
held against the new type of its name, and the report is true of that one, or else against a type
that a retyped field refers to. A field is reported before its type is followed, so in the second
case the report of the field is there as well, even if the comparison gives up later.
-/

namespace SchemaEvolution.Diff

section Announcements

variable {announces : String → String → Event → Prop} {done : List Event} {steps : List Step}

/-- Steps that are carried out when some events have been reported already: before two names that
differ are followed there is an event that announces them. -/
def Announced (announces : String → String → Event → Prop) : List Event → List Step → Prop
  | _, [] => True
  | done, .report event :: rest => Announced announces (event :: done) rest
  | done, .follow oldName newName :: rest =>
      (oldName ≠ newName → ∃ event ∈ done, announces oldName newName event) ∧
        Announced announces done rest
  | done, .giveUp _ :: rest => Announced announces done rest

theorem Announced.mono {more : List Event} (announced : Announced announces done steps)
    (subset : done ⊆ more) : Announced announces more steps := by
  induction steps generalizing done more with
  | nil => trivial
  | cons step rest ih =>
      cases step with
      | report event => exact ih announced (List.cons_subset_cons event subset)
      | follow oldName newName =>
          refine ⟨fun different => ?_, ih announced.2 subset⟩
          obtain ⟨event, isDone, announcesIt⟩ := announced.1 different
          exact ⟨event, subset isDone, announcesIt⟩
      | giveUp error => exact ih announced subset

theorem Announced.imp {tells : String → String → Event → Prop}
    (announced : Announced announces done steps)
    (more : ∀ oldName newName event, announces oldName newName event →
      tells oldName newName event) : Announced tells done steps := by
  induction steps generalizing done with
  | nil => trivial
  | cons step rest ih =>
      cases step with
      | report event => exact ih announced
      | follow oldName newName =>
          refine ⟨fun different => ?_, ih announced.2⟩
          obtain ⟨event, isDone, announcesIt⟩ := announced.1 different
          exact ⟨event, isDone, more oldName newName event announcesIt⟩
      | giveUp error => exact ih announced

theorem Announced.append {later : List Step} (announced : Announced announces done steps)
    (laterAnnounced : Announced announces (reported steps ++ done) later) :
    Announced announces done (steps ++ later) := by
  induction steps generalizing done with
  | nil => exact laterAnnounced
  | cons step rest ih =>
      cases step with
      | report event =>
          refine ih announced (laterAnnounced.mono fun other member => ?_)
          rw [reported_cons_report] at member
          simp only [List.mem_append, List.mem_cons] at member ⊢
          tauto
      | follow oldName newName => exact ⟨announced.1, ih announced.2 laterAnnounced⟩
      | giveUp error => exact ih announced laterAnnounced

theorem announced_flatMap {α : Type} {items : List α} {stepsOf : α → List Step}
    (announced : ∀ item ∈ items, Announced announces [] (stepsOf item)) :
    Announced announces [] (items.flatMap stepsOf) := by
  induction items with
  | nil => trivial
  | cons item rest ih =>
      rw [List.flatMap_cons]
      apply (announced item List.mem_cons_self).append
      exact (ih fun other member => announced other (List.mem_cons_of_mem _ member)).mono
        (List.nil_subset _)

theorem announced_of_alike
    (alike : ∀ oldName newName, .follow oldName newName ∈ steps → oldName = newName) :
    Announced announces done steps := by
  induction steps generalizing done with
  | nil => trivial
  | cons step rest ih =>
      have restAlike : ∀ oldName newName, .follow oldName newName ∈ rest → oldName = newName :=
        fun oldName newName member => alike oldName newName (List.mem_cons_of_mem _ member)
      cases step with
      | report event => exact ih restAlike
      | follow oldName newName =>
          exact ⟨fun different => absurd (alike oldName newName List.mem_cons_self) different,
            ih restAlike⟩
      | giveUp error => exact ih restAlike

/-- In a walk through such scripts, whatever is reported of two names that differ stands beside the
event that announced them, whether or not the walk gives up. -/
theorem exists_announcement {options : Options} {oldDocument newDocument : Document}
    {unexamined : List String} {agenda : List Step} {event : Event}
    (atStart : Announced announces done agenda)
    (scripts : ∀ pair ∈ visits options oldDocument newDocument unexamined agenda,
      Announced announces [] (script options oldDocument newDocument pair.1 pair.2))
    (member : event ∈ (walk options oldDocument newDocument unexamined agenda).events) :
    event ∈ reported agenda ∨
      ∃ pair ∈ visits options oldDocument newDocument unexamined agenda,
        event ∈ reported (script options oldDocument newDocument pair.1 pair.2) ∧
        (pair.1 ≠ pair.2 → ∃ announcement,
          (announcement ∈ done ∨
            announcement ∈ (walk options oldDocument newDocument unexamined agenda).events) ∧
          announces pair.1 pair.2 announcement) := by
  fun_induction visits options oldDocument newDocument unexamined agenda generalizing done with
  | case1 unexamined =>
      rw [walk] at member
      cases member
  | case2 unexamined first rest ih =>
      rw [walk] at member ⊢
      rcases List.mem_cons.mp member with atHead | later
      · exact Or.inl (atHead ▸ List.mem_cons_self)
      · rcases ih atStart scripts later with inRest | ⟨pair, visited, inScript, announced⟩
        · exact Or.inl (List.mem_cons_of_mem _ inRest)
        · refine Or.inr ⟨pair, visited, inScript, fun different => ?_⟩
          obtain ⟨announcement, place, announcesIt⟩ := announced different
          refine ⟨announcement, ?_, announcesIt⟩
          change _ ∨ announcement ∈ first :: _
          simp only [List.mem_cons] at place ⊢
          tauto
  | case3 unexamined error rest ih =>
      rw [walk] at member
      cases member
  | case4 unexamined firstOld firstNew rest isNew ih =>
      rw [walk, dif_pos isNew] at member ⊢
      have scriptAnnounced := (scripts _ List.mem_cons_self).mono (List.nil_subset done)
      have onward := scriptAnnounced.append (atStart.2.mono (List.subset_append_right _ _))
      rcases ih onward (fun pair visited => scripts pair (List.mem_cons_of_mem _ visited)) member with
        onAgenda | ⟨pair, visited, inScript, announced⟩
      · rw [reported_append] at onAgenda
        rcases List.mem_append.mp onAgenda with inScript | inRest
        · refine Or.inr ⟨_, List.mem_cons_self, inScript, fun different => ?_⟩
          obtain ⟨announcement, isDone, announcesIt⟩ := atStart.1 different
          exact ⟨announcement, Or.inl isDone, announcesIt⟩
        · exact Or.inl inRest
      · exact Or.inr ⟨pair, List.mem_cons_of_mem _ visited, inScript, announced⟩
  | case5 unexamined firstOld firstNew rest notNew ih =>
      rw [walk, dif_neg notNew] at member ⊢
      exact ih atStart.2 scripts member

end Announcements

section Scripts

variable {options : Options} {oldDocument newDocument : Document} {oldName newName : String}

/-- The event reports a field of two types that refers to the first name in the old type and to the
second in the new one. -/
def ReportsRetyping (oldDocument newDocument : Document) (oldName newName name other : String)
    (event : Event) : Prop :=
  ∃ owner old new reason, MeetingField oldDocument newDocument oldName newName owner old new ∧
    old.type.name = name ∧ new.type.name = other ∧
    event = .breaking .invalid (owner.member old.name) [old.type.text, new.type.text] reason

theorem announced_fieldScript {owner : Owner} {old new : Field}
    (meeting : MeetingField oldDocument newDocument oldName newName owner old new) :
    Announced (ReportsRetyping oldDocument newDocument oldName newName) []
      (fieldScript options owner old new) := by
  have reports (different : old.type.name ≠ new.type.name) :
      ∃ reason, Step.report (.breaking .invalid (owner.member old.name)
        [old.type.text, new.type.text] reason) ∈ fieldScript options owner old new :=
    invalid_mem_fieldScript different
  unfold fieldScript at reports ⊢
  apply Announced.append
  · apply announced_of_alike
    intro nextOld nextNew member
    simp only [List.mem_append, follow_not_mem_directivesScript, or_false] at member
    rcases member with typeChange | inArguments
    · split at typeChange <;> simp at typeChange
    · obtain ⟨_, _, oldArgument, newArgument, _, _, inArgument⟩ := argument_of_follow inArguments
      obtain ⟨compatible, rfl, rfl⟩ := (follow_mem_argumentScript_iff _ _ _ _).mp inArgument
      exact TypeRef.name_eq_of_mismatch compatible
  · refine ⟨fun different => ?_, trivial⟩
    obtain ⟨reason, inField⟩ := reports different
    refine ⟨_, ?_, owner, old, new, reason, meeting, rfl, rfl, rfl⟩
    rcases List.mem_append.mp inField with before | atEnd
    · exact List.mem_append_left _ ((mem_reported_iff _ _).mpr before)
    · cases List.mem_singleton.mp atEnd

theorem announced_fieldsScript {owner : Owner} {oldFields newFields : List Field}
    (notExempt : isExempt oldName = false)
    (meeting : MeetingFields oldDocument newDocument oldName newName owner oldFields newFields) :
    Announced (ReportsRetyping oldDocument newDocument oldName newName) []
      (fieldsScript options owner oldFields newFields) := by
  apply announced_flatMap
  rintro ⟨name, oldField⟩ inEntries
  have oldFound := (NameMap.mem_entries_iff _ _ _).mp inEntries
  change Announced _ [_] _
  cases newFound : (NameMap.index Field.name newFields).get? name with
  | none => trivial
  | some newField =>
      exact (announced_fieldScript ⟨notExempt, _, _, name, meeting, oldFound, newFound⟩).mono
        (List.nil_subset _)

theorem announced_interfaceScript {old new : InterfaceType} (notExempt : isExempt oldName = false)
    (meeting : MeetingFields oldDocument newDocument oldName newName ⟨old.name, .interface⟩
      old.fields new.fields) :
    Announced (ReportsRetyping oldDocument newDocument oldName newName) []
      (interfaceScript options old new) := by
  apply (announced_fieldsScript notExempt meeting).append
  exact announced_of_alike fun _ _ member =>
    absurd member (follow_not_mem_directivesScript _ _ _ _ _ _)

theorem announced_objectScript {old new : ObjectType} (notExempt : isExempt oldName = false)
    (oldFound : oldDocument.type? oldName = some (.object old))
    (newFound : newDocument.type? newName = some (.object new)) :
    Announced (ReportsRetyping oldDocument newDocument oldName newName) []
      (objectScript options oldDocument newDocument old new) := by
  have implementedAnnounced : Announced (ReportsRetyping oldDocument newDocument oldName newName) []
      (implementedScript options oldDocument newDocument old new) := by
    apply announced_flatMap
    intro name inSet
    have inOld := (SortedSet.mem_elements_ofList name old.interfaces).mp inSet
    split
    · trivial
    · rename_i oldInterface oldIs
      split
      · rename_i newInterface newIs
        split at newIs
        · rename_i inNew
          exact announced_interfaceScript notExempt
            (.implemented oldFound newFound inOld oldIs inNew newIs)
        · cases newIs
      · trivial
  apply Announced.append
  · apply (announced_fieldsScript notExempt (.object oldFound newFound)).append
    exact implementedAnnounced.mono (List.nil_subset _)
  · exact announced_of_alike fun _ _ member =>
      absurd member (follow_not_mem_directivesScript _ _ _ _ _ _)

/-- Only objects and interfaces have fields, and all else is followed under one name. -/
theorem announced_script (options : Options) (oldDocument newDocument : Document)
    (oldName newName : String) :
    Announced (ReportsRetyping oldDocument newDocument oldName newName) []
      (script options oldDocument newDocument oldName newName) := by
  by_cases meets : ∃ owner oldFields newFields,
      MeetingFields oldDocument newDocument oldName newName owner oldFields newFields
  · cases exempt : isExempt oldName with
    | true => simp [script, exempt, Announced]
    | false =>
        obtain ⟨owner, oldFields, newFields, meeting⟩ := meets
        cases meeting with
        | object oldFound newFound | implemented oldFound newFound =>
            simp only [script, exempt, oldFound, newFound, Bool.false_eq_true, if_false]
            exact (announced_objectScript exempt oldFound newFound).mono (List.nil_subset _)
        | interface oldFound newFound =>
            simp only [script, exempt, oldFound, newFound, Bool.false_eq_true, if_false]
            exact (announced_interfaceScript exempt (.interface oldFound newFound)).mono
              (List.nil_subset _)
  · apply announced_of_alike
    intro nextOld nextNew member
    cases follow_mem_script_iff.mp member with
    | field meeting =>
        obtain ⟨_, oldFields, newFields, _, inFields, _⟩ := meeting
        exact absurd ⟨_, _, _, inFields⟩ meets
    | input _ compatible => exact TypeRef.name_eq_of_mismatch compatible
    | member _ _ _ _ _ => rfl

end Scripts

section Findings

variable {options : Options} {oldDocument newDocument : Document} {event : Event}

/-- The new type of that name, or else one that a retyped field refers to. -/
def IsCounterpart (options : Options) (oldDocument newDocument : Document) (name other : String) :
    Prop :=
  other = name ∨ TakenAway options oldDocument newDocument name other

/-- Whatever is reported, also by a comparison that gives up, is about an operation or about an old
type and its counterpart. -/
theorem report_of_mem_events (sameRoots : SameRoots oldDocument newDocument)
    (member : event ∈ (diff options oldDocument newDocument).events) :
    OperationReport oldDocument newDocument event ∨
      ∃ name other, TypeReport options oldDocument newDocument name other event ∧
        IsCounterpart options oldDocument newDocument name other := by
  let announces : String → String → Event → Prop := fun name other announcement =>
    ∃ pair ∈ comparisons options oldDocument newDocument,
      ReportsRetyping oldDocument newDocument pair.1 pair.2 name other announcement
  have atStart : Announced announces [] (operationsScript oldDocument newDocument) := by
    apply announced_of_alike
    intro oldRoot newRoot follows
    obtain ⟨operation, isOld, isNew, _⟩ := (follow_mem_operationsScript_iff _ _ _ _).mp follows
    exact sameRoots operation oldRoot newRoot isOld isNew
  have scripts : ∀ pair ∈ comparisons options oldDocument newDocument, Announced announces []
      (script options oldDocument newDocument pair.1 pair.2) := by
    intro pair compared
    exact (announced_script options oldDocument newDocument pair.1 pair.2).imp
      fun _ _ _ reports => ⟨pair, compared, reports⟩
  rcases exists_announcement atStart scripts member with
    inAgenda | ⟨⟨name, other⟩, compared, inScript, announced⟩
  · exact Or.inl (operationReport_of_mem ((mem_reported_iff event _).mp inAgenda))
  · refine Or.inr ⟨name, other, typeReport_of_mem ((mem_reported_iff event _).mp inScript), ?_⟩
    by_cases same : other = name
    · exact Or.inl same
    · obtain ⟨announcement, place, pair, earlier, owner, old, new, reason, meeting, ofOld, ofNew,
        rfl⟩ := announced (Ne.symm same)
      have reported := place.resolve_left List.not_mem_nil
      exact Or.inr ⟨same, compared, pair, earlier, owner, old, new, reason, meeting, ofOld, ofNew,
        reported⟩

theorem DefinitionReport.kinds_of_typeFinding {name : String} {old new : TypeDefinition}
    (report : DefinitionReport default oldDocument newDocument name old new event)
    (ofType : event.location.fieldName? = none) :
    event.finding ≠ .breaking .missing [] ∧
      ∀ oldKind newKind, event.finding = .breaking .invalid [oldKind, newKind] →
        event.location = ⟨name, none, some old.kind⟩ ∧ old.kind ≠ new.kind ∧
          oldKind = old.kind.text ∧ newKind = new.kind.text := by
  have notOfMember {owner : Owner} {oldFields newFields : List Field}
      (report : FieldsReport default owner oldFields newFields event) : False := by
    obtain ⟨_, _, place⟩ := report.exists_location
    rw [place] at ofType
    cases ofType
  have notOfInterface {oldType newType : InterfaceType}
      (report : InterfaceReport default oldType newType event) : False := by
    cases report with
    | fields report => exact notOfMember report
    | directive enforced _ => cases enforced
  cases report with
  | rekinded different =>
      refine ⟨nofun, fun oldKind newKind same => ?_⟩
      cases same
      exact ⟨rfl, different, rfl, rfl⟩
  | fields report => exact (notOfMember report).elim
  | interface report | implemented _ _ _ _ report => exact (notOfInterface report).elim
  | interfaceLost | memberLost | memberAdded | valueLost | valueAdded => exact ⟨nofun, nofun⟩
  | valueKept _ _ enforced _ | directive _ enforced _ => cases enforced
  | inputFieldLost | inputFieldDemanded => cases ofType
  | inputFieldKept _ _ report =>
      rw [report.location_eq] at ofType
      cases ofType

/-- A type is reported as lost only if its counterpart in the new schema is not defined, and as
changed in kind only if the counterpart is of another kind. -/
theorem counterpart_of_typeFinding (oldDocument newDocument : Document)
    (sameRoots : SameRoots oldDocument newDocument) (event : Event)
    (member : event ∈ (diff default oldDocument newDocument).events)
    (ofType : event.location.fieldName? = none) :
    (event.finding = .breaking .missing [] →
      ∃ old counterpart, oldDocument.type? event.location.typeName = some old ∧
        event.location.kind? = some old.kind ∧
        IsCounterpart default oldDocument newDocument event.location.typeName counterpart ∧
        newDocument.type? counterpart = none) ∧
    ∀ oldKind newKind, event.finding = .breaking .invalid [oldKind, newKind] →
      ∃ old new counterpart, oldDocument.type? event.location.typeName = some old ∧
        event.location.kind? = some old.kind ∧
        IsCounterpart default oldDocument newDocument event.location.typeName counterpart ∧
        newDocument.type? counterpart = some new ∧
        old.kind.text = oldKind ∧ new.kind.text = newKind ∧ old.kind ≠ new.kind := by
  rcases report_of_mem_events sameRoots member with ⟨_, _⟩ | ⟨name, other, report, origin⟩
  · cases ofType
  · cases report with
    | undefined | examined => exact ⟨nofun, nofun⟩
    | @lost old _ _ oldFound newFound =>
        exact ⟨fun _ => ⟨old, other, oldFound, rfl, origin, newFound⟩, nofun⟩
    | @definition old new _ _ oldFound newFound report =>
        obtain ⟨notLost, rekinded⟩ := report.kinds_of_typeFinding ofType
        refine ⟨fun lost => absurd lost notLost, fun oldKind newKind invalid => ?_⟩
        obtain ⟨place, different, rfl, rfl⟩ := rekinded oldKind newKind invalid
        rw [place]
        exact ⟨old, new, other, oldFound, rfl, origin, newFound, rfl, rfl, different⟩

end Findings

def lostType (name : String) (kind : TypeKind) : Event :=
  .breaking .missing ⟨name, none, some kind⟩ []
    s!"The new API does not have a type called '{name}'"

def changedKind (name : String) (kind newKind : TypeKind) : Event :=
  .breaking .invalid ⟨name, none, some kind⟩ [kind.text, newKind.text]
    s!"The new API has changed '{name}' from a '{kind.text}' to a '{newKind.text}'"

def labelled (name : String) : TypeDefinition :=
  .object ⟨name, [⟨"label", .named "String", [], []⟩], [], []⟩

def storeQuery (itemType unitType : String) : TypeDefinition :=
  .object ⟨"Root", [⟨"item", .named itemType, [], []⟩, ⟨"unit", .named unitType, [], []⟩], [], []⟩

def storeSchema : Document :=
  .rooted [storeQuery "Item" "Unit", labelled "Item", labelled "Unit"]

def emptyStoreSchema : Document :=
  .rooted [storeQuery "Item" "Unit", .enum ⟨"Unit", [⟨"PIECE", []⟩], []⟩]

theorem emptyStore_counterparts :
    SameRoots storeSchema emptyStoreSchema ∧
      lostType "Item" .object ∈ (diff default storeSchema emptyStoreSchema).events ∧
      changedKind "Unit" .object .enum ∈ (diff default storeSchema emptyStoreSchema).events ∧
      (∃ counterpart, IsCounterpart default storeSchema emptyStoreSchema "Item" counterpart ∧
        emptyStoreSchema.type? counterpart = none) ∧
      ∃ new counterpart, IsCounterpart default storeSchema emptyStoreSchema "Unit" counterpart ∧
        emptyStoreSchema.type? counterpart = some new ∧ new.kind.text = "Enum" := by
  have sameRoots : SameRoots storeSchema emptyStoreSchema := by decide
  have reported : [lostType "Item" .object, changedKind "Unit" .object .enum].all
      (diff default storeSchema emptyStoreSchema).events.contains = true := by cbv
  simp only [List.all_cons, List.all_nil, Bool.and_true, Bool.and_eq_true,
    List.contains_iff_mem] at reported
  obtain ⟨hasLost, hasChanged⟩ := reported
  obtain ⟨_, itemPlace, _, _, itemOrigin, itemLost⟩ :=
    (counterpart_of_typeFinding storeSchema emptyStoreSchema sameRoots _ hasLost rfl).1 rfl
  obtain ⟨_, new, unitPlace, _, _, unitOrigin, unitFound, _, isEnum, _⟩ :=
    (counterpart_of_typeFinding storeSchema emptyStoreSchema sameRoots _ hasChanged rfl).2 _ _ rfl
  exact ⟨sameRoots, hasLost, hasChanged, ⟨itemPlace, itemOrigin, itemLost⟩,
    new, unitPlace, unitOrigin, unitFound, isEnum⟩

def retypedStoreSchema : Document :=
  .rooted [storeQuery "Gone" "Kind", labelled "Item", labelled "Unit",
    .enum ⟨"Kind", [⟨"PIECE", []⟩], []⟩]

/-- The new types of the fields are not those of the old names, of which nothing has changed. -/
theorem retypedStore_blames_kept_types :
    SameRoots storeSchema retypedStoreSchema ∧
      lostType "Item" .object ∈ (diff default storeSchema retypedStoreSchema).events ∧
      changedKind "Unit" .object .enum ∈ (diff default storeSchema retypedStoreSchema).events ∧
      retypedStoreSchema.type? "Item" = storeSchema.type? "Item" ∧
      retypedStoreSchema.type? "Unit" = storeSchema.type? "Unit" ∧
      retypedStoreSchema.type? "Unit" = some (labelled "Unit") ∧
      (labelled "Unit").kind = .object := by
  have sameRoots : SameRoots storeSchema retypedStoreSchema := by decide
  have reported : [lostType "Item" .object, changedKind "Unit" .object .enum].all
      (diff default storeSchema retypedStoreSchema).events.contains = true := by cbv
  simp only [List.all_cons, List.all_nil, Bool.and_true, Bool.and_eq_true,
    List.contains_iff_mem] at reported
  obtain ⟨hasLost, hasChanged⟩ := reported
  have keptItem : retypedStoreSchema.type? "Item" = storeSchema.type? "Item" := by cbv
  have keptUnit : retypedStoreSchema.type? "Unit" = storeSchema.type? "Unit" := by cbv
  have isObject : retypedStoreSchema.type? "Unit" = some (labelled "Unit") := by cbv
  exact ⟨sameRoots, hasLost, hasChanged, keptItem, keptUnit, isObject, rfl⟩

end SchemaEvolution.Diff
