import SchemaEvolution.Proofs.Value

/-!
What rules yield. Whatever holds of all that the parts of a rule yield is handed on to what the rule
yields; in this way all default values in the outline of a document come from the rule for
constants, and show their forms.
-/

namespace SchemaEvolution.Grammar

def Yields {α : Type} (rule : Rule α) (holds : α → Prop) : Prop :=
  ∀ text value rest, rule text = some (value, rest) → holds value

section Combinators

variable {α β : Type} {rule other : Rule α} {holds : α → Prop} {next : α → Rule β}
variable {holdsNext : β → Prop}

theorem yields_pure {value : α} (isHeld : holds value) : Yields (pure value) holds := by
  intro text found rest read
  cases read
  exact isHeld

theorem Yields.bind (first : Yields rule holds)
    (second : ∀ value, holds value → Yields (next value) holdsNext) :
    Yields (rule >>= next) holdsNext := by
  intro text found rest read
  obtain ⟨⟨value, behind⟩, readFirst, readSecond⟩ := Option.bind_eq_some_iff.mp read
  exact second value (first text value behind readFirst) behind found rest readSecond

theorem yields_any (rule : Rule α) : Yields rule fun _ => True :=
  fun _ _ _ _ => trivial

theorem yields_bind (second : ∀ value, Yields (next value) holdsNext) :
    Yields (rule >>= next) holdsNext :=
  (yields_any rule).bind fun value _ => second value

theorem Yields.orElse (first : Yields rule holds) (second : Yields other holds) :
    Yields (rule <|> other) holds := by
  intro text found rest read
  change (rule text <|> other text) = _ at read
  cases readFirst : rule text with
  | none =>
      rw [readFirst] at read
      exact second text found rest read
  | some result =>
      rw [readFirst] at read
      cases read
      exact first text found rest readFirst

theorem Yields.map {f : α → β} (yields : Yields rule holds)
    (carried : ∀ value, holds value → holdsNext (f value)) : Yields (f <$> rule) holdsNext := by
  intro text found rest read
  obtain ⟨⟨value, behind⟩, readValue, same⟩ := Option.bind_eq_some_iff.mp read
  cases same
  exact carried value (yields text value _ readValue)

theorem Yields.optional (yields : Yields rule holds) :
    Yields (optional rule) fun value? => ∀ value ∈ value?, holds value := by
  have present : Yields (some <$> rule) fun value? => ∀ value ∈ value?, holds value :=
    yields.map fun value isHeld other same => Option.some.inj same ▸ isHeld
  have absent : Yields (pure none) fun value? => ∀ value ∈ value?, holds value :=
    yields_pure fun value member => absurd member (Option.not_mem_none value)
  exact present.orElse absent

theorem Yields.many (yields : Yields rule holds) :
    Yields (many rule) fun items => ∀ item ∈ items, holds item := by
  intro text items rest read
  fun_induction Grammar.many rule text generalizing items with
  | case1 text first behind readFirst shorter ih =>
      obtain ⟨⟨others, after⟩, readOthers, same⟩ := Option.map_eq_some_iff.mp read
      cases same
      exact List.forall_mem_cons.mpr ⟨yields text first behind readFirst, ih others readOthers⟩
  | case2 | case3 =>
      cases read
      exact fun item member => absurd member List.not_mem_nil

theorem Yields.manyOne (yields : Yields rule holds) :
    Yields (manyOne rule) fun items => ∀ item ∈ items, holds item :=
  yields.bind fun _ first => yields.many.bind fun _ others =>
    yields_pure (List.forall_mem_cons.mpr ⟨first, others⟩)

end Combinators

/-! Each combinator goes on where its first rule stops, or tries the next rule on the same text. -/

section Equations

variable {α β : Type} {rule other : Rule α} {next : α → Rule β} {text rest : List Char} {value : α}

theorem bind_of_read (read : rule text = some (value, rest)) :
    (rule >>= next) text = next value rest := by
  change (rule text).bind _ = _
  rw [read]
  rfl

theorem bind_eq_some_iff {found : β} :
    (rule >>= next) text = some (found, rest) ↔
      ∃ value behind, rule text = some (value, behind) ∧ next value behind = some (found, rest) :=
  Option.bind_eq_some_iff.trans Prod.exists

theorem bind_of_refused (refused : rule text = none) : (rule >>= next) text = none := by
  change (rule text).bind _ = _
  rw [refused]
  rfl

theorem orElse_of_refused (refused : rule text = none) : (rule <|> other) text = other text := by
  change (rule text <|> other text) = _
  rw [refused]
  rfl

theorem orElse_of_read (read : rule text = some (value, rest)) :
    (rule <|> other) text = some (value, rest) := by
  change (rule text <|> other text) = _
  rw [read]
  rfl

theorem optional_of_read (read : rule text = some (value, rest)) :
    (optional rule) text = some (some value, rest) := by
  have present : (some <$> rule) text = some (some value, rest) := by
    change (rule text).bind _ = _
    rw [read]
    rfl
  exact orElse_of_read present

theorem optional_of_refused (refused : rule text = none) :
    (optional rule) text = some (none, text) := by
  have absent : (some <$> rule) text = none := by
    change (rule text).bind _ = _
    rw [refused]
    rfl
  exact orElse_of_refused absent

theorem many_of_refused (refused : rule text = none) : many rule text = some ([], text) := by
  rw [many, refused]

/-- Where no item is read nothing is passed over. -/
theorem eq_of_many_nil (read : many rule text = some ([], rest)) : rest = text := by
  unfold many at read
  split at read
  · split at read
    · obtain ⟨_, _, same⟩ := Option.map_eq_some_iff.mp read
      cases same
    · cases read
      rfl
  · cases read
    rfl

end Equations

def IsConstant (value : Value) : Prop :=
  ∃ text rest, readValue? text = some (value, rest)

def InputFieldOutline.HasConstant (field : InputFieldOutline) : Prop :=
  ∀ value ∈ field.defaultValue?, IsConstant value

def Outline.HasConstants : Outline → Prop
  | input fields => ∀ field ∈ fields, field.HasConstant
  | other => True

theorem yields_constant : Yields constant IsConstant :=
  fun text _ rest read => ⟨text, rest, read⟩

theorem yields_inputValue : Yields inputValue InputFieldOutline.HasConstant := by
  have default : Yields (do word "="; constant) IsConstant :=
    yields_bind fun _ => yields_constant
  refine yields_bind fun _ => yields_bind fun _ => yields_bind fun _ => yields_bind fun _ => ?_
  exact default.optional.bind fun _ constants => yields_bind fun _ => yields_pure constants

theorem yields_inputFields :
    Yields inputFields fun fields => ∀ field ∈ fields, field.HasConstant :=
  yields_bind fun _ => yields_inputValue.manyOne.bind fun _ constants =>
    yields_bind fun _ => yields_pure constants

theorem yields_plainType {α : Type} {body : Rule α} {holds : α → Prop} (keyword : String)
    (yields : Yields body holds) :
    Yields (plainType keyword body) fun found? => ∀ found ∈ found?, holds found := by
  have absent : ∀ found ∈ (none : Option α), holds found :=
    fun found member => absurd member (Option.not_mem_none found)
  apply Yields.orElse
  · exact yields_bind fun _ => yields_bind fun _ => yields.optional
  · refine yields_bind fun _ => Yields.orElse ?_ (yields_bind fun _ => yields_pure absent)
    refine yields_bind fun _ => yields.bind fun found isHeld => yields_pure ?_
    exact fun other same => Option.some.inj same ▸ isHeld

theorem yields_inputType : Yields inputType Outline.HasConstants := by
  refine (yields_plainType "input" yields_inputFields).bind fun found? constants => yields_pure ?_
  cases found? with
  | none => exact fun field member => absurd member List.not_mem_nil
  | some fields => exact constants fields rfl

theorem yields_definition : Yields definition Outline.HasConstants := by
  have other : Yields (pure .other) Outline.HasConstants := yields_pure trivial
  have schema : Yields schema Outline.HasConstants :=
    Yields.orElse
      (yields_bind fun _ => yields_bind fun _ => yields_bind fun _ => yields_bind fun _ => other)
      (yields_bind fun _ => yields_bind fun _ => yields_bind fun _ => other)
  have scalarType : Yields scalarType Outline.HasConstants :=
    Yields.orElse (yields_bind fun _ => yields_bind fun _ => other)
      (yields_bind fun _ => yields_bind fun _ => other)
  have objectType : Yields objectType Outline.HasConstants :=
    Yields.orElse
      (yields_bind fun _ => yields_bind fun _ => yields_bind fun _ => yields_bind fun _ => other)
      (yields_bind fun _ => yields_bind fun _ => other)
  have interfaceType : Yields interfaceType Outline.HasConstants :=
    Yields.orElse
      (yields_bind fun _ => yields_bind fun _ => yields_bind fun _ => yields_bind fun _ => other)
      (yields_bind fun _ => yields_bind fun _ => yields_bind fun _ => other)
  have unionType : Yields unionType Outline.HasConstants := yields_bind fun _ => other
  have enumType : Yields enumType Outline.HasConstants := yields_bind fun _ => other
  have directiveDefinition : Yields directiveDefinition Outline.HasConstants := by
    repeat refine yields_bind fun _ => ?_
    exact other
  exact schema.orElse (scalarType.orElse (objectType.orElse (interfaceType.orElse
    (unionType.orElse (enumType.orElse (yields_inputType.orElse directiveDefinition))))))

theorem hasConstants_of_outline? {document : List Char} {outline : List Outline}
    (found : outline? document = some outline) :
    ∀ definition ∈ outline, definition.HasConstants := by
  unfold outline? at found
  split at found
  · rename_i read
    cases found
    exact yields_definition.manyOne _ _ _ read
  · cases found

end SchemaEvolution.Grammar

namespace SchemaEvolution.Value

/-- A value that was read from a text comes from the rule for constants. -/
theorem isConstant_of_parse {input : String} {value : Value} (read : parse input = .ok value) :
    Grammar.IsConstant value := by
  unfold parse at read
  split at read
  · rename_i outline found
    have constants := Grammar.hasConstants_of_outline? found
    unfold ofOutline at read
    split at read
    · rename_i field
      have isConstant : field.HasConstant :=
        constants _ List.mem_cons_self field List.mem_cons_self
      split at read
      · cases read
      · split at read
        · rename_i default isDefault
          cases read
          exact isConstant _ isDefault
        · cases read
    · cases read
  · cases read

/-- The form of a value that was read from a text shows in its text. -/
theorem showsKind_of_parse {input : String} {value : Value} (read : parse input = .ok value) :
    value.ShowsKind := by
  obtain ⟨_, _, isRead⟩ := isConstant_of_parse read
  exact Grammar.showsKind_of_readValue? isRead

end SchemaEvolution.Value
