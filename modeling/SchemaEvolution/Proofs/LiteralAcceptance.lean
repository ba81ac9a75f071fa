import SchemaEvolution.Proofs.HeldValue

/-!
Which texts are read as values. A text is put into a schema and the schema is read, so the text
could end the value, the field, the type or the definition that it stands in. It is read as a value
exactly if it is ignorable text, one literal and ignorable text, and then as that literal; of what
else makes a schema, directives behind a literal have a fault of their own.
-/

namespace SchemaEvolution

namespace Grammar

variable {text rest : List Char} {value : Value}

/-- A comment at the end of a text is closed by the line end behind it. -/
theorem skip_eq_nil_iff : skip text = [] ↔ IsIgnorable (text ++ ['\n']) := by
  have inHolder : skip (text ++ ['\n'] ++ ['\x7d']) = held (skip text) := by
    rw [List.append_assoc]
    exact skip_append_holderEnd text
  constructor
  · intro nothing
    rw [nothing] at inHolder
    have counts : skip (text ++ ['\n'] ++ ['\x7d']) ≠ [] := inHolder ▸ held_ne_nil []
    obtain ⟨before, isText, ignorable⟩ := exists_isIgnorable_of_skip counts
    rw [inHolder] at isText
    exact (List.append_cancel_right isText).symm ▸ ignorable
  · intro ignorable
    rw [ignorable.skip_append] at inHolder
    exact held_eq_brace_iff.mp inHolder.symm

/-- Behind ignorable text the text starts with a literal of the value, and the rest follows it. -/
def StartsWith (text : List Char) (value : Value) (rest : List Char) : Prop :=
  ∃ before literal, text = before ++ (literal ++ rest) ∧ IsIgnorable before ∧
    readLiteral? (literal ++ rest) = some (value, rest)

theorem constant_skip_eq_some_iff :
    constant (skip text) = some (value, rest) ↔
      ∃ after, StartsWith text value after ∧ rest = skip after := by
  constructor
  · intro read
    obtain ⟨after, isLiteral, isRest⟩ := exists_readLiteral?_of_readValue? read
    have counts : skip text ≠ [] := by
      intro nothing
      rw [nothing] at isLiteral
      cases isLiteral
    obtain ⟨before, isText, ignorable⟩ := exists_isIgnorable_of_skip counts
    obtain ⟨literal, isSplit⟩ := readLiteral?_suffix (skip text) isLiteral
    refine ⟨after, ⟨before, literal, ?_, ignorable, ?_⟩, isRest⟩
    · rw [isSplit]
      exact isText
    · rw [isSplit]
      exact isLiteral
  · rintro ⟨after, ⟨before, literal, rfl, ignorable, isLiteral⟩, rfl⟩
    rw [ignorable.skip_append, skip_of_readLiteral? isLiteral, constant, readValue?_eq, isLiteral]
    rfl

/-- The brace behind a text ends the schema when nothing of the text is left in front of it. -/
theorem eq_nil_of_word_brace_held (closing : word "\x7d" (held text) = some ((), [])) :
    text = [] := by
  by_contra notEmpty
  rw [readsAlike_brace notEmpty] at closing
  obtain ⟨⟨_, others⟩, _, same⟩ := Option.map_eq_some_iff.mp closing
  exact held_ne_nil others (congrArg Prod.snd same)

/-- The schema that holds a text has one field when the text is a literal with directives behind
it. -/
theorem outline?_eq_single_iff {field : InputFieldOutline} :
    outline? (Value.holder text) = some [.input [field]] ↔
      ∃ value rest directives, constant (skip text) = some (value, rest) ∧
        many directive rest = some (directives, []) ∧
        field = { defaultValue? := some value, hasDirectives := !directives.isEmpty } := by
  have inHolder : skip (text ++ ['\n', '\x7d']) = held (skip text) := skip_append_holderEnd text
  have directivesAlike := readsAlike_many rfl readsAlike_directive
  rw [outline?_holder_eq_some_iff, inHolder]
  constructor
  · rintro ⟨value, rest, read, isDocument⟩
    obtain ⟨directives, behind, readDirectives, closing, isField⟩ :=
      documentBehind_eq_single_iff.mp isDocument
    rcases readsAlikeOrAll_constant (skip text) with alike | ⟨_, _, readsAll⟩
    · obtain ⟨⟨_, after⟩, isValue, same⟩ := Option.map_eq_some_iff.mp (alike.symm.trans read)
      cases same
      rw [directivesAlike after] at readDirectives
      obtain ⟨⟨_, left⟩, areDirectives, same⟩ := Option.map_eq_some_iff.mp readDirectives
      cases same
      cases eq_nil_of_word_brace_held closing
      exact ⟨_, after, _, isValue, areDirectives, isField⟩
    · -- A value that takes in the whole holder leaves no brace to end the type.
      cases readsAll.symm.trans read
      cases (many_of_refused rfl).symm.trans readDirectives
      cases closing
  · rintro ⟨value, rest, directives, read, readDirectives, isField⟩
    have readHeld := (readsAlikeOrAll_constant (skip text)).read_held read
    have directivesHeld : many directive (held rest) = some (directives, ['\x7d']) :=
      ReadsAlikeOrAll.read_held (Or.inl (directivesAlike rest)) readDirectives
    exact ⟨value, held rest, readHeld,
      documentBehind_eq_single_iff.mpr ⟨directives, ['\x7d'], directivesHeld, rfl, isField⟩⟩

end Grammar

namespace Value

open Grammar

section Outcome

variable {input : String} {value : Value} {rest : List Char}

theorem parse_of_directives {directives : List Unit}
    (read : constant (skip input.toList) = some (value, rest))
    (readDirectives : many directive rest = some (directives, [])) :
    parse input = if directives.isEmpty then .ok value else .error ⟨input, .directives⟩ := by
  have isOutline := outline?_eq_single_iff.mpr ⟨value, rest, directives, read, readDirectives, rfl⟩
  rw [parse, isOutline]
  cases directives <;> rfl

theorem parse_of_trailing {outline : List Outline}
    (isOutline : outline? (holder input.toList) = some outline)
    (notSingle : ∀ field, outline ≠ [.input [field]]) :
    parse input = .error ⟨input, .trailingInput⟩ := by
  have isTrailing : ofOutline outline = .error .trailingInput := by
    unfold ofOutline
    split
    · exact absurd rfl (notSingle _)
    · rfl
  rw [parse, isOutline]
  dsimp only
  rw [isTrailing]
  rfl

/-- The schema that holds the text is the expected one, another one, or none. -/
theorem parse_cases (input : String) :
    (∃ value rest directives, constant (skip input.toList) = some (value, rest) ∧
      many directive rest = some (directives, []) ∧
      parse input = if directives.isEmpty then .ok value else .error ⟨input, .directives⟩) ∨
    (∃ outline, outline? (holder input.toList) = some outline ∧
      (∀ field, outline ≠ [.input [field]]) ∧ parse input = .error ⟨input, .trailingInput⟩) ∨
    parse input = .error ⟨input, .malformed⟩ := by
  cases isOutline : outline? (holder input.toList) with
  | none =>
      refine Or.inr (Or.inr ?_)
      rw [parse, isOutline]
  | some outline =>
      by_cases single : ∃ field, outline = [.input [field]]
      · obtain ⟨field, rfl⟩ := single
        obtain ⟨value, rest, directives, read, readDirectives, -⟩ :=
          outline?_eq_single_iff.mp isOutline
        exact Or.inl ⟨value, rest, directives, read, readDirectives,
          parse_of_directives read readDirectives⟩
      · have notSingle := not_exists.mp single
        exact Or.inr (Or.inl ⟨outline, rfl, notSingle, parse_of_trailing isOutline notSingle⟩)

theorem parse_eq_ok_iff_startsWith :
    parse input = .ok value ↔
      ∃ rest, StartsWith input.toList value rest ∧ IsIgnorable (rest ++ ['\n']) := by
  constructor
  · intro isOk
    rcases parse_cases input with ⟨_, _, directives, read, readDirectives, isRead⟩ |
      ⟨_, -, -, refused⟩ | refused
    · cases directives with
      | nil =>
          cases isRead.symm.trans isOk
          cases eq_of_many_nil readDirectives
          obtain ⟨after, starts, nothing⟩ := constant_skip_eq_some_iff.mp read
          exact ⟨after, starts, skip_eq_nil_iff.mp nothing.symm⟩
      | cons _ _ => cases isRead.symm.trans isOk
    · cases refused.symm.trans isOk
    · cases refused.symm.trans isOk
  · rintro ⟨rest, starts, ignorable⟩
    have noDirectives : many directive (skip rest) = some ([], []) := by
      rw [skip_eq_nil_iff.mpr ignorable]
      exact many_of_refused rfl
    exact parse_of_directives (constant_skip_eq_some_iff.mpr ⟨rest, starts, rfl⟩) noDirectives

theorem parse_eq_directives_iff :
    parse input = .error ⟨input, .directives⟩ ↔
      ∃ value rest directives, StartsWith input.toList value rest ∧ directives ≠ [] ∧
        many directive (skip rest) = some (directives, []) := by
  constructor
  · intro isError
    rcases parse_cases input with ⟨value, _, directives, read, readDirectives, isRead⟩ |
      ⟨_, -, -, refused⟩ | refused
    · have someDirectives : directives ≠ [] := by
        rintro rfl
        cases isRead.symm.trans isError
      obtain ⟨after, starts, rfl⟩ := constant_skip_eq_some_iff.mp read
      exact ⟨value, after, directives, starts, someDirectives, readDirectives⟩
    · cases refused.symm.trans isError
    · cases refused.symm.trans isError
  · rintro ⟨value, rest, directives, starts, someDirectives, readDirectives⟩
    have read := constant_skip_eq_some_iff.mpr ⟨rest, starts, rfl⟩
    rw [parse_of_directives read readDirectives, if_neg]
    exact List.isEmpty_iff.not.mpr someDirectives

theorem parse_eq_trailingInput_iff :
    parse input = .error ⟨input, .trailingInput⟩ ↔
      ∃ outline, outline? (holder input.toList) = some outline ∧
        ∀ field, outline ≠ [.input [field]] := by
  constructor
  · intro isError
    rcases parse_cases input with ⟨_, _, directives, -, -, isRead⟩ |
      ⟨outline, isOutline, notSingle, -⟩ | refused
    · cases directives <;> cases isRead.symm.trans isError
    · exact ⟨outline, isOutline, notSingle⟩
    · cases refused.symm.trans isError
  · rintro ⟨outline, isOutline, notSingle⟩
    exact parse_of_trailing isOutline notSingle

theorem parse_ne_missingValue : parse input ≠ .error ⟨input, .missingValue⟩ := by
  intro isError
  rcases parse_cases input with ⟨_, _, directives, -, -, isRead⟩ | ⟨_, -, -, refused⟩ | refused
  · cases directives <;> cases isRead.symm.trans isError
  · cases refused.symm.trans isError
  · cases refused.symm.trans isError

theorem input_of_parse_error {error : ValueError} (isError : parse input = .error error) :
    error.input = input := by
  rcases parse_cases input with ⟨_, _, directives, -, -, isRead⟩ | ⟨_, -, -, refused⟩ | refused
  · cases directives <;> cases isRead.symm.trans isError
    rfl
  · cases refused.symm.trans isError
    rfl
  · cases refused.symm.trans isError
    rfl

theorem reason?_injective : Function.Injective ValueFault.reason? := by
  intro fault other same
  cases fault <;> cases other
  all_goals first | rfl | exact absurd same (by decide)

def RefusedFor (input reason : String) : Prop :=
  ∃ error, parse input = .error error ∧ error.fault.reason? = some reason

theorem refusedFor_iff {fault : ValueFault} {reason : String}
    (isReason : fault.reason? = some reason) :
    RefusedFor input reason ↔ parse input = .error ⟨input, fault⟩ := by
  constructor
  · rintro ⟨⟨text, other⟩, isError, sameReason⟩
    cases input_of_parse_error isError
    have sameFault : other = fault := reason?_injective (sameReason.trans isReason.symm)
    exact sameFault ▸ isError
  · exact fun isError => ⟨_, isError, isReason⟩

end Outcome

/-- A text is read as the value of the literal that, between ignorable text, it consists of.
Directives behind the literal, and whatever else completes the schema that holds the text, are
refused by their own reasons; there is always a value where the first field has its default. The
literal is read where it stands: by itself `[""""]` is a list of two empty strings, but in front of
a comment with three quotes it is no value, since a block string is tried first. -/
theorem parse_outcome (input : String) :
    (∀ value, parse input = .ok value ↔
      ∃ rest, StartsWith input.toList value rest ∧ IsIgnorable (rest ++ ['\n'])) ∧
    (RefusedFor input "directives are not allowed in constant values" ↔
      ∃ value rest directives, StartsWith input.toList value rest ∧ directives ≠ [] ∧
        many directive (skip rest) = some (directives, [])) ∧
    (RefusedFor input "unexpected trailing input" ↔
      ∃ outline, outline? (holder input.toList) = some outline ∧
        ∀ field, outline ≠ [.input [field]]) ∧
    ¬ RefusedFor input "expected a value" := by
  refine ⟨fun value => parse_eq_ok_iff_startsWith, ?_, ?_, ?_⟩
  · exact (refusedFor_iff rfl).trans parse_eq_directives_iff
  · exact (refusedFor_iff rfl).trans parse_eq_trailingInput_iff
  · exact (refusedFor_iff rfl).not.mpr parse_ne_missingValue

example : parse "1 \x7d input Other \x7b x: Int = 2" =
    .error ⟨"1 \x7d input Other \x7b x: Int = 2", .trailingInput⟩ := by
  decide +kernel

example : parse "[\"\"\"\"]" = .ok (.list [.string "", .string ""]) ∧
    parse "[\"\"\"\"] # \"\"\"" = .error ⟨"[\"\"\"\"] # \"\"\"", .malformed⟩ := by
  decide +kernel

end Value

end SchemaEvolution
