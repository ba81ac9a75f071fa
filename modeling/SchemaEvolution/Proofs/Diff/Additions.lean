import Mathlib.Logic.Relation
import SchemaEvolution.Proofs.Diff.Reachable
import SchemaEvolution.Proofs.TypeRef

/-!
Edits that add to a schema: a type, a field, an argument or input field that callers may leave out,
a value, a member, an interface to implement. Whatever was there is retained as it was, after one
edit and so after any number of them, and a schema that is retained is kept in the sense of
comparisons.
-/

namespace SchemaEvolution

open Diff

/-- The list has got one more item, at some place and under a name that no other item has. -/
inductive AddsItem {α : Type} (name : α → String) (allowed : α → Prop) : List α → List α → Prop
  | insert {before after : List α} {item : α} :
      name item ∉ (before ++ after).map name → allowed item →
      AddsItem name allowed (before ++ after) (before ++ item :: after)

def AddsInput : List InputValue → List InputValue → Prop :=
  AddsItem InputValue.name fun input => input.isRequired = false

inductive AddsToFields : List Field → List Field → Prop
  | field {old new : List Field} :
      AddsItem Field.name (fun _ => True) old new → AddsToFields old new
  | argument {before after : List Field} {field : Field} {arguments : List InputValue} :
      AddsInput field.arguments arguments →
      AddsToFields (before ++ field :: after) (before ++ { field with arguments } :: after)

inductive TypeDefinition.AddsTo : TypeDefinition → TypeDefinition → Prop
  | objectField {type : ObjectType} {fields : List Field} :
      AddsToFields type.fields fields → AddsTo (.object type) (.object { type with fields })
  /-- Nothing is asked of the interface: it may be listed already, or be none. -/
  | implemented {type : ObjectType} {before after : List String} {name : String} :
      type.interfaces = before ++ after →
      AddsTo (.object type) (.object { type with interfaces := before ++ name :: after })
  | interfaceField {type : InterfaceType} {fields : List Field} :
      AddsToFields type.fields fields → AddsTo (.interface type) (.interface { type with fields })
  | member {type : UnionType} {members : List String} :
      AddsItem id (fun _ => True) type.members members →
      AddsTo (.union type) (.union { type with members })
  | value {type : EnumType} {values : List EnumValue} :
      AddsItem EnumValue.name (fun _ => True) type.values values →
      AddsTo (.enum type) (.enum { type with values })
  | inputField {type : InputObjectType} {fields : List InputValue} :
      AddsInput type.fields fields →
      AddsTo (.inputObject type) (.inputObject { type with fields })

/-- One edit of a schema. The names of its roots stay as they are. -/
inductive Document.AddsTo : Document → Document → Prop
  | type {document : Document} {key : String} {definition : TypeDefinition} :
      document.type? key = none →
      AddsTo document { document with types := document.types.insert key definition }
  | member {document : Document} {key : String} {old new : TypeDefinition} :
      document.type? key = some old → old.AddsTo new →
      AddsTo document { document with types := document.types.insert key new }

structure RetainsInputs (old new : List InputValue) : Prop where
  kept : KeptByName InputValue.name Eq old new
  added : ∀ name input, (NameMap.index InputValue.name new).get? name = some input →
    (NameMap.index InputValue.name old).get? name = none → input.isRequired = false

structure RetainsField (old new : Field) : Prop where
  type : new.type = old.type
  arguments : RetainsInputs old.arguments new.arguments
  directives : new.directives = old.directives

/-- The definitions are of one kind, and the old members are as they were. -/
inductive RetainsDefinition : TypeDefinition → TypeDefinition → Prop
  | object {old new : ObjectType} :
      KeptByName Field.name RetainsField old.fields new.fields → old.interfaces ⊆ new.interfaces →
      new.directives = old.directives → RetainsDefinition (.object old) (.object new)
  | interface {old new : InterfaceType} :
      KeptByName Field.name RetainsField old.fields new.fields →
      new.directives = old.directives → RetainsDefinition (.interface old) (.interface new)
  | union {old new : UnionType} :
      old.members ⊆ new.members → new.directives = old.directives →
      RetainsDefinition (.union old) (.union new)
  | enum {old new : EnumType} :
      KeptByName EnumValue.name Eq old.values new.values → new.directives = old.directives →
      RetainsDefinition (.enum old) (.enum new)
  | scalar {old new : ScalarType} :
      new.directives = old.directives → RetainsDefinition (.scalar old) (.scalar new)
  | inputObject {old new : InputObjectType} :
      RetainsInputs old.fields new.fields → new.directives = old.directives →
      RetainsDefinition (.inputObject old) (.inputObject new)

structure RetainsDocument (old new : Document) : Prop where
  roots : ∀ operation, new.declaredRoot? operation = old.declaredRoot? operation
  types : ∀ name oldType, old.type? name = some oldType →
    ∃ newType, new.type? name = some newType ∧ RetainsDefinition oldType newType

theorem RetainsInputs.refl (inputs : List InputValue) : RetainsInputs inputs inputs where
  kept := KeptByName.refl (fun _ => rfl) inputs
  added := by
    intro name input found absent
    rw [found] at absent
    cases absent

theorem RetainsInputs.trans {old middle new : List InputValue} (toMiddle : RetainsInputs old middle)
    (toNew : RetainsInputs middle new) : RetainsInputs old new where
  kept := toMiddle.kept.trans toNew.kept fun _ _ _ _ _ => Eq.trans
  added := by
    intro name input found absent
    cases middleFound : (NameMap.index InputValue.name middle).get? name with
    | none => exact toNew.added name input found middleFound
    | some middleInput =>
        obtain ⟨other, otherFound, rfl⟩ := toNew.kept name middleInput middleFound
        rw [found] at otherFound
        cases otherFound
        exact toMiddle.added name input middleFound absent

theorem RetainsField.refl (field : Field) : RetainsField field field :=
  ⟨rfl, .refl field.arguments, rfl⟩

theorem RetainsField.trans {old middle new : Field} (toMiddle : RetainsField old middle)
    (toNew : RetainsField middle new) : RetainsField old new :=
  ⟨toNew.type.trans toMiddle.type, toMiddle.arguments.trans toNew.arguments,
    toNew.directives.trans toMiddle.directives⟩

theorem retainsFields_trans {old middle new : List Field}
    (toMiddle : KeptByName Field.name RetainsField old middle)
    (toNew : KeptByName Field.name RetainsField middle new) :
    KeptByName Field.name RetainsField old new :=
  toMiddle.trans toNew fun _ _ _ _ _ => RetainsField.trans

theorem RetainsDefinition.refl (definition : TypeDefinition) :
    RetainsDefinition definition definition := by
  cases definition with
  | object type => exact .object (.refl .refl type.fields) (List.Subset.refl _) rfl
  | interface type => exact .interface (.refl .refl type.fields) rfl
  | union type => exact .union (List.Subset.refl _) rfl
  | enum type => exact .enum (.refl (fun _ => rfl) type.values) rfl
  | scalar type => exact .scalar rfl
  | inputObject type => exact .inputObject (.refl type.fields) rfl

theorem RetainsDefinition.trans {old middle new : TypeDefinition}
    (toMiddle : RetainsDefinition old middle) (toNew : RetainsDefinition middle new) :
    RetainsDefinition old new := by
  cases toMiddle with
  | object fields interfaces directives =>
      cases toNew with
      | object newFields newInterfaces newDirectives =>
          exact .object (retainsFields_trans fields newFields)
            (List.Subset.trans interfaces newInterfaces) (newDirectives.trans directives)
  | interface fields directives =>
      cases toNew with
      | interface newFields newDirectives =>
          exact .interface (retainsFields_trans fields newFields) (newDirectives.trans directives)
  | union members directives =>
      cases toNew with
      | union newMembers newDirectives =>
          exact .union (List.Subset.trans members newMembers) (newDirectives.trans directives)
  | enum values directives =>
      cases toNew with
      | enum newValues newDirectives =>
          exact .enum (values.trans newValues fun _ _ _ _ _ => Eq.trans)
            (newDirectives.trans directives)
  | scalar directives =>
      cases toNew with
      | scalar newDirectives => exact .scalar (newDirectives.trans directives)
  | inputObject fields directives =>
      cases toNew with
      | inputObject newFields newDirectives =>
          exact .inputObject (fields.trans newFields) (newDirectives.trans directives)

theorem RetainsDocument.refl (document : Document) : RetainsDocument document document :=
  ⟨fun _ => rfl, fun _ type found => ⟨type, found, .refl type⟩⟩

theorem RetainsDocument.trans {old middle new : Document} (toMiddle : RetainsDocument old middle)
    (toNew : RetainsDocument middle new) : RetainsDocument old new where
  roots := fun operation => (toNew.roots operation).trans (toMiddle.roots operation)
  types := by
    intro name oldType oldFound
    obtain ⟨middleType, middleFound, retained⟩ := toMiddle.types name oldType oldFound
    obtain ⟨newType, newFound, retainedThen⟩ := toNew.types name middleType middleFound
    exact ⟨newType, newFound, retained.trans retainedThen⟩

section Edits

variable {α : Type} {name : α → String} {allowed : α → Prop} {old new : List α}

theorem AddsItem.kept (adds : AddsItem name allowed old new) : KeptByName name Eq old new := by
  cases adds with
  | @insert before after added unused _ =>
      intro key item found
      have different : key ≠ name added := by
        intro own
        rw [own, (NameMap.get?_index_eq_none_iff name _ _).mpr unused] at found
        cases found
      rw [NameMap.get?_index_insert name unused, if_neg different]
      exact ⟨item, found, rfl⟩

theorem AddsItem.allowed_of_absent (adds : AddsItem name allowed old new) {key : String} {item : α}
    (found : (NameMap.index name new).get? key = some item)
    (absent : (NameMap.index name old).get? key = none) : allowed item := by
  cases adds with
  | insert unused fits =>
      rw [NameMap.get?_index_insert name unused, absent] at found
      split at found
      · cases found
        exact fits
      · cases found

theorem keptByName_replace {kept : α → α → Prop} {before after : List α} {item replacement : α}
    (sameName : name replacement = name item) (keptItem : kept item replacement)
    (same : ∀ other, kept other other) :
    KeptByName name kept (before ++ item :: after) (before ++ replacement :: after) := by
  intro key found isFound
  rw [NameMap.get?_index] at isFound ⊢
  simp only [List.reverse_append, List.reverse_cons, List.find?_append, List.find?_singleton,
    sameName] at isFound ⊢
  -- The last item of the name counts, so those behind are looked at first.
  cases later : after.reverse.find? fun item => key == name item with
  | some other =>
      rw [later] at isFound
      cases isFound
      exact ⟨found, rfl, same found⟩
  | none =>
      rw [later] at isFound
      by_cases own : key = name item
      · simp only [own, beq_self_eq_true, if_true, Option.none_or, Option.some_or,
          Option.some.injEq] at isFound ⊢
        subst isFound
        exact ⟨replacement, rfl, keptItem⟩
      · simp only [beq_eq_false_iff_ne.mpr own, Bool.false_eq_true, if_false, Option.none_or]
          at isFound ⊢
        exact ⟨found, isFound, same found⟩

theorem retainsInputs_of_addsInput {old new : List InputValue} (adds : AddsInput old new) :
    RetainsInputs old new :=
  ⟨AddsItem.kept adds, fun _ _ found absent => AddsItem.allowed_of_absent adds found absent⟩

theorem AddsToFields.retains {old new : List Field} (adds : AddsToFields old new) :
    KeptByName Field.name RetainsField old new := by
  cases adds with
  | field adds =>
      apply adds.kept.mono
      rintro field _ rfl
      exact .refl field
  | argument adds =>
      exact keptByName_replace rfl ⟨rfl, retainsInputs_of_addsInput adds, rfl⟩ .refl

theorem append_subset_append_cons (before after : List α) (item : α) :
    before ++ after ⊆ before ++ item :: after :=
  ((List.Sublist.refl before).append (List.sublist_cons_self item after)).subset

theorem AddsItem.subset (adds : AddsItem name allowed old new) : old ⊆ new := by
  cases adds with
  | @insert before after item _ _ => exact append_subset_append_cons before after item

theorem TypeDefinition.AddsTo.retains {old new : TypeDefinition} (adds : old.AddsTo new) :
    RetainsDefinition old new := by
  cases adds with
  | objectField adds => exact .object adds.retains (List.Subset.refl _) rfl
  | @implemented type before after name listed =>
      refine .object (.refl .refl type.fields) ?_ rfl
      rw [listed]
      exact append_subset_append_cons before after name
  | interfaceField adds => exact .interface adds.retains rfl
  | member adds => exact .union adds.subset rfl
  | value adds => exact .enum adds.kept rfl
  | inputField adds => exact .inputObject (retainsInputs_of_addsInput adds) rfl

theorem Document.AddsTo.retains {old new : Document} (adds : old.AddsTo new) :
    RetainsDocument old new := by
  refine ⟨fun operation => ?_, fun name definition found => ?_⟩
  · cases adds <;> cases operation <;> rfl
  · cases adds with
    | @type key added unused =>
        have different : name ≠ key := by
          rintro rfl
          rw [unused] at found
          cases found
        refine ⟨definition, ?_, .refl definition⟩
        exact (NameMap.get?_insert _ key name added).trans ((if_neg different).trans found)
    | @member key oldType newType isOld adds =>
        have lookup := NameMap.get?_insert old.types key name newType
        by_cases own : name = key
        · subst own
          rw [isOld] at found
          cases found
          exact ⟨newType, lookup.trans (if_pos rfl), adds.retains⟩
        · exact ⟨definition, lookup.trans ((if_neg own).trans found), .refl definition⟩

theorem retains_of_additions {old new : Document}
    (grown : Relation.ReflTransGen Document.AddsTo old new) : RetainsDocument old new := by
  induction grown with
  | refl => exact .refl old
  | tail earlier adds ih => exact ih.trans adds.retains

end Edits

section Kept

variable {options : Options} {oldDocument newDocument : Document}

theorem keepsDirectives_of_eq {old new : List Directive} (same : new = old) :
    KeepsDirectives options old new := by
  intro _
  subst same
  exact .refl (fun _ _ value found => ⟨value, found, rfl⟩) new

theorem keepsInput_refl (input : InputValue) : KeepsInput options input input where
  type := TypeRef.mismatch_self input.type
  defaultKind := by
    intro oldValue newValue isOld isNew
    rw [isOld] at isNew
    cases isNew
    rfl
  directives := keepsDirectives_of_eq rfl

theorem RetainsInputs.keeps {old new : List InputValue} (retained : RetainsInputs old new) :
    KeepsInputs options old new where
  kept := by
    apply retained.kept.mono
    rintro input _ rfl
    exact keepsInput_refl input
  added := retained.added

theorem RetainsField.keeps {old new : Field} (retained : RetainsField old new) :
    KeepsField options old new where
  type := by
    rw [retained.type]
    exact TypeRef.mismatch_self old.type
  arguments := retained.arguments.keeps
  directives := keepsDirectives_of_eq retained.directives

theorem keepsInterface_of_retained {old new : InterfaceType}
    (retained : RetainsDefinition (.interface old) (.interface new)) :
    KeepsInterface options old new := by
  cases retained with
  | interface fields directives =>
      exact ⟨fields.mono fun _ _ => RetainsField.keeps, keepsDirectives_of_eq directives⟩

theorem RetainsDocument.interface? (retained : RetainsDocument oldDocument newDocument)
    {name : String} {oldInterface : InterfaceType}
    (isOld : oldDocument.interface? name = some oldInterface) :
    ∃ newInterface, newDocument.interface? name = some newInterface ∧
      RetainsDefinition (.interface oldInterface) (.interface newInterface) := by
  obtain ⟨new, newFound, retainedType⟩ :=
    retained.types name _ ((interface?_eq_some_iff _ _ _).mp isOld)
  cases retainedType with
  | @interface _ newInterface fields directives =>
      exact ⟨newInterface, (interface?_eq_some_iff _ _ _).mpr newFound, .interface fields directives⟩

theorem RetainsDefinition.keeps {old new : TypeDefinition} (retained : RetainsDefinition old new)
    (document : RetainsDocument oldDocument newDocument) :
    KeepsDefinition options oldDocument newDocument old new := by
  cases retained with
  | object fields interfaces directives =>
      refine ⟨fields.mono fun _ _ => RetainsField.keeps, ?_, keepsDirectives_of_eq directives⟩
      intro name inOld oldInterface isOld
      obtain ⟨newInterface, isNew, retainedInterface⟩ := document.interface? isOld
      exact ⟨interfaces inOld, newInterface, isNew, keepsInterface_of_retained retainedInterface⟩
  | interface fields directives => exact keepsInterface_of_retained (.interface fields directives)
  | union members directives =>
      exact ⟨fun member inOld => members inOld, keepsDirectives_of_eq directives⟩
  | enum values directives =>
      refine ⟨values.mono ?_, keepsDirectives_of_eq directives⟩
      rintro value _ rfl
      exact keepsDirectives_of_eq rfl
  | scalar directives => exact keepsDirectives_of_eq directives
  | inputObject fields directives =>
      exact ⟨fields.keeps, keepsDirectives_of_eq directives⟩

theorem RetainsDocument.root? (retained : RetainsDocument oldDocument newDocument)
    {operation : OperationType} {root : String}
    (isOld : oldDocument.root? operation = some root) :
    newDocument.root? operation = some root := by
  have sameKind : newDocument.hasDeclaredRoots = oldDocument.hasDeclaredRoots := by
    unfold Document.hasDeclaredRoots
    simp only [retained.roots]
  unfold Document.root? at isOld ⊢
  rw [sameKind, retained.roots operation]
  split at isOld
  · rename_i declared
    rw [if_pos declared]
    exact isOld
  · rename_i undeclared
    rw [if_neg undeclared]
    split at isOld
    · rename_i type found
      obtain ⟨new, newFound, retainedType⟩ := retained.types _ _ found
      cases retainedType with
      | object _ _ _ =>
          rw [newFound]
          exact isOld
    · cases isOld

theorem RetainsDocument.sameRoots (retained : RetainsDocument oldDocument newDocument) :
    SameRoots oldDocument newDocument := by
  intro operation oldRoot newRoot isOld isNew
  rw [retained.root? isOld] at isNew
  exact Option.some.inj isNew

/-- Nothing is lost of a schema whose definitions are retained, if what its objects implement are
interfaces. -/
theorem RetainsDocument.breakingCount (retained : RetainsDocument oldDocument newDocument)
    (resolved : ∀ name definition, oldDocument.Reachable name →
      oldDocument.type? name = some definition → ResolvesInterfaces oldDocument definition) :
    (diff options oldDocument newDocument).breakingCount = .ok 0 := by
  apply breakingCount_eq_ok_zero_of_quiet retained.sameRoots
  · intro operation offered
    obtain ⟨root, isOld⟩ := Option.isSome_iff_exists.mp offered
    exact Option.isSome_of_eq_some (retained.root? isOld)
  · intro name reachable
    rw [quiet_script_iff]
    intro old _ oldFound
    obtain ⟨new, newFound, retainedType⟩ := retained.types name old oldFound
    exact ⟨resolved name old reachable oldFound, new, newFound, retainedType.keeps retained⟩

end Kept

end SchemaEvolution
