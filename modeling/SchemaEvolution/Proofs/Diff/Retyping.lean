import Mathlib
import SchemaEvolution.Proofs.Diff.Reachable

/-!
What a retyped reference does to the comparison of its old type. A retyped argument or input field
is not followed and takes nothing away from other references. A retyped field is followed, so it may
bring the old type together with a new type of another name, and then the new type of its own name
is not looked at.
-/

namespace SchemaEvolution

theorem TypeRef.mismatch_of_name_ne {old new : TypeRef} (different : old.name ≠ new.name) :
    old.mismatch new = some .invalid := by
  unfold mismatch
  rw [if_neg different]

namespace Diff

/-- The comparison comes upon compatible references with that base name, on both sides of a field,
an argument or an input field. -/
inductive CompatiblyReferred (options : Options) (oldDocument newDocument : Document) :
    String → Prop
  | field {oldName newName : String} {owner : Owner} {old new : Field} :
      (oldName, newName) ∈ comparisons options oldDocument newDocument →
      MeetingField oldDocument newDocument oldName newName owner old new →
      old.type.mismatch new.type = none →
      CompatiblyReferred options oldDocument newDocument old.type.name
  | input {oldName newName : String} {location : Location} {old new : InputValue} :
      (oldName, newName) ∈ comparisons options oldDocument newDocument →
      MeetingInput oldDocument newDocument oldName newName location old new →
      old.type.mismatch new.type = none →
      CompatiblyReferred options oldDocument newDocument old.type.name

/-- The comparison took the old type of the first name together with the new type of the second, as
the types of a field that was retyped. That field is reported. -/
def TakenAway (options : Options) (oldDocument newDocument : Document) (name other : String) :
    Prop :=
  other ≠ name ∧ (name, other) ∈ comparisons options oldDocument newDocument ∧
    ∃ pair ∈ comparisons options oldDocument newDocument, ∃ owner old new reason,
      MeetingField oldDocument newDocument pair.1 pair.2 owner old new ∧
      old.type.name = name ∧ new.type.name = other ∧
      Event.breaking .invalid (owner.member old.name) [old.type.text, new.type.text] reason ∈
        (diff options oldDocument newDocument).events

variable {options : Options} {oldDocument newDocument : Document}

theorem CompatiblyReferred.exists_comparison {name : String}
    (referred : CompatiblyReferred options oldDocument newDocument name) :
    ∃ other, (name, other) ∈ comparisons options oldDocument newDocument := by
  cases referred with
  | field compared meeting compatible =>
      exact exists_comparison_of_leadsTo compared (.field meeting)
  | input compared meeting compatible =>
      exact exists_comparison_of_leadsTo compared (.input meeting compatible)

theorem invalid_mem_fieldScript {owner : Owner} {old new : Field}
    (different : old.type.name ≠ new.type.name) :
    ∃ reason, Step.report (.breaking .invalid (owner.member old.name)
        [old.type.text, new.type.text] reason) ∈ fieldScript options owner old new := by
  unfold fieldScript
  simp only [TypeRef.mismatch_of_name_ne different]
  exact ⟨_, List.mem_append_left _ (List.mem_append_left _ (List.mem_append_left _
    (List.mem_singleton_self _)))⟩

/-- Only retyped fields bring names together that differ, as long as the roots have kept theirs. -/
theorem takenAway_of_mem_comparisons (sameRoots : SameRoots oldDocument newDocument)
    (finished : (diff options oldDocument newDocument).failure? = none) {name other : String}
    (compared : (name, other) ∈ comparisons options oldDocument newDocument)
    (different : other ≠ name) : TakenAway options oldDocument newDocument name other := by
  refine ⟨different, compared, ?_⟩
  rcases origin_of_mem_comparisons compared with
    ⟨operation, oldRoot, newRoot, _⟩ | ⟨pair, earlier, leads⟩
  · exact absurd (sameRoots operation name other oldRoot newRoot).symm different
  · cases leads with
    | @field owner old new meeting =>
        obtain ⟨reason, inField⟩ := invalid_mem_fieldScript different.symm
        have reported := mem_diff_events_of_mem_script finished earlier
          (fieldScript_subset_script meeting inField)
        exact ⟨pair, earlier, owner, old, new, reason, meeting, rfl, rfl, reported⟩
    | input meeting compatible =>
        exact absurd (TypeRef.name_eq_of_mismatch compatible).symm different
    | member _ _ _ _ _ => exact absurd rfl different

/-- Whatever the comparison of the two definitions of a name reports, the whole comparison reports
once it comes upon compatible references to that name, unless a retyped field has taken the old
definition away. -/
theorem definition_reported_or_takenAway (options : Options) (oldDocument newDocument : Document)
    (sameRoots : SameRoots oldDocument newDocument)
    (finished : (diff options oldDocument newDocument).failure? = none)
    (name : String) (referred : CompatiblyReferred options oldDocument newDocument name)
    (notExempt : isExempt name = false) (old new : TypeDefinition)
    (oldFound : oldDocument.type? name = some old) (newFound : newDocument.type? name = some new) :
    (∀ event, .report event ∈ definitionScript options oldDocument newDocument name old new →
        event ∈ (diff options oldDocument newDocument).events) ∨
      ∃ other, TakenAway options oldDocument newDocument name other := by
  obtain ⟨other, compared⟩ := referred.exists_comparison
  by_cases same : other = name
  · subst same
    refine Or.inl fun event member => ?_
    apply mem_diff_events_of_mem_script finished compared
    exact definitionScript_subset_script notExempt oldFound newFound member
  · exact Or.inr ⟨other, takenAway_of_mem_comparisons sameRoots finished compared same⟩

def searchField (tag : String) : Field :=
  ⟨"search", .named "String",
    [⟨"by", .named tag, none, []⟩, ⟨"or", .named "Tag", none, []⟩], []⟩

def searchQuery (tag : String) : ObjectType :=
  ⟨"Root", [searchField tag], [], []⟩

def tagType (fields : List InputValue) : InputObjectType :=
  ⟨"Tag", fields, []⟩

def limitInput : InputValue :=
  ⟨"limit", .nonNull (.named "Int"), none, []⟩

def searchSchema : Document :=
  .rooted [.object (searchQuery "Tag"), .inputObject (tagType [])]

def limitedSearchSchema : Document :=
  .rooted [.object (searchQuery "Other"), .inputObject ⟨"Other", [], []⟩,
    .inputObject (tagType [limitInput])]

theorem limit_reported :
    SameRoots searchSchema limitedSearchSchema ∧
      (diff default searchSchema limitedSearchSchema).failure? = none ∧
      CompatiblyReferred default searchSchema limitedSearchSchema "Tag" ∧
      ∀ event, .report event ∈ definitionScript default searchSchema limitedSearchSchema "Tag"
          (.inputObject (tagType [])) (.inputObject (tagType [limitInput])) →
        event ∈ (diff default searchSchema limitedSearchSchema).events := by
  have finished : (diff default searchSchema limitedSearchSchema).failure? = none := by cbv
  have sameRoots : SameRoots searchSchema limitedSearchSchema := by decide
  have order : comparisons default searchSchema limitedSearchSchema =
      [("Root", "Root"), ("Tag", "Tag"), ("String", "String")] := by cbv
  have fieldsMeet : MeetingFields searchSchema limitedSearchSchema "Root" "Root"
      ⟨"Root", .object⟩ (searchQuery "Tag").fields (searchQuery "Other").fields :=
    @MeetingFields.object _ _ _ _ (searchQuery "Tag") (searchQuery "Other") rfl rfl
  have fieldMeets : MeetingField searchSchema limitedSearchSchema "Root" "Root"
      ⟨"Root", .object⟩ (searchField "Tag") (searchField "Other") :=
    ⟨by decide, _, _, "search", fieldsMeet, rfl, rfl⟩
  have oldHas : (NameMap.index InputValue.name (searchField "Tag").arguments).get? "or" =
      some ⟨"or", .named "Tag", none, []⟩ := rfl
  have newHas : (NameMap.index InputValue.name (searchField "Other").arguments).get? "or" =
      some ⟨"or", .named "Tag", none, []⟩ := rfl
  have referred : CompatiblyReferred default searchSchema limitedSearchSchema "Tag" :=
    .input (order ▸ List.mem_cons_self)
      (.argument fieldMeets (Nat.le_refl 2) oldHas newHas) rfl
  refine ⟨sameRoots, finished, referred, ?_⟩
  rcases definition_reported_or_takenAway default searchSchema limitedSearchSchema sameRoots
    finished "Tag" referred (by decide) _ _ rfl rfl with
    reported | ⟨other, different, compared, _⟩
  · exact reported
  · rw [order] at compared
    exact absurd (by simpa using compared) different

def labelField : Field :=
  ⟨"label", .named "String", [], []⟩

def itemType : ObjectType :=
  ⟨"Item", [labelField, ⟨"price", .named "Int", [], []⟩], [], []⟩

def unpricedType : ObjectType :=
  ⟨"Item", [labelField], [], []⟩

def lostPrice : Event :=
  .breaking .missing ⟨"Item", some "price", some .object⟩ []
    "The new API is missing the field 'price'"

def shopQuery (firstType : String) : ObjectType :=
  ⟨"Root", [⟨"first", .named firstType, [], []⟩, ⟨"second", .named "Item", [], []⟩], [], []⟩

def shopSchema : Document :=
  .rooted [.object (shopQuery "Item"), .object itemType]

def offerSchema : Document :=
  .rooted [.object (shopQuery "Offer"), .object { itemType with name := "Offer" },
    .object unpricedType]

/-- The type of the items is compared with that of the first offer, so that the lost price of the
second is not reported. -/
theorem retyped_item_hides_lostPrice :
    SameRoots shopSchema offerSchema ∧
      (diff default shopSchema offerSchema).failure? = none ∧
      CompatiblyReferred default shopSchema offerSchema "Item" ∧
      isExempt "Item" = false ∧
      shopSchema.type? "Item" = some (.object itemType) ∧
      offerSchema.type? "Item" = some (.object unpricedType) ∧
      lostPrice.isBreaking = true ∧
      .report lostPrice ∈ definitionScript default shopSchema offerSchema "Item"
        (.object itemType) (.object unpricedType) ∧
      lostPrice ∉ (diff default shopSchema offerSchema).events := by
  have finished : (diff default shopSchema offerSchema).failure? = none := by cbv
  have sameRoots : SameRoots shopSchema offerSchema := by decide
  have order : comparisons default shopSchema offerSchema =
      [("Root", "Root"), ("Item", "Offer"), ("String", "String"), ("Int", "Int")] := by cbv
  have fieldsMeet : MeetingFields shopSchema offerSchema "Root" "Root" ⟨"Root", .object⟩
      (shopQuery "Item").fields (shopQuery "Offer").fields :=
    @MeetingFields.object _ _ _ _ (shopQuery "Item") (shopQuery "Offer") rfl rfl
  have fieldMeets : MeetingField shopSchema offerSchema "Root" "Root" ⟨"Root", .object⟩
      ⟨"second", .named "Item", [], []⟩ ⟨"second", .named "Item", [], []⟩ :=
    ⟨by decide, _, _, "second", fieldsMeet, rfl, rfl⟩
  have referred : CompatiblyReferred default shopSchema offerSchema "Item" :=
    .field (order ▸ List.mem_cons_self) fieldMeets rfl
  have absent : (diff default shopSchema offerSchema).events.contains lostPrice = false := by cbv
  refine ⟨sameRoots, finished, referred, by decide, rfl, rfl, rfl, by decide, ?_⟩
  simpa using absent

end Diff

end SchemaEvolution
