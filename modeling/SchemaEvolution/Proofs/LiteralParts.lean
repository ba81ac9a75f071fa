import SchemaEvolution.Proofs.LiteralText

/-!
The parts of a text with one literal: ignorable text, the literal, and ignorable text again. Each
reader takes the front of a text and leaves the rest as it is; the rule for constants also passes
over the ignorable text behind the literal.
-/

namespace SchemaEvolution

namespace Numeral

theorem readDigits_suffix (text : List Char) : (readDigits text).2 <:+ text :=
  List.dropWhile_suffix isDigit

theorem readWhole?_suffix {text whole rest : List Char}
    (read : readWhole? text = some (whole, rest)) : rest <:+ text := by
  unfold readWhole? at read
  split at read
  · cases read
    exact List.suffix_cons '0' rest
  · split at read
    · cases read
    · cases read
      exact readDigits_suffix _

theorem readFraction_suffix (text : List Char) : (readFraction text).2 <:+ text := by
  unfold readFraction
  split
  · rename_i rest
    split
    · exact List.suffix_refl _
    · exact (readDigits_suffix rest).trans (List.suffix_cons '.' rest)
  · exact List.suffix_refl text

theorem readSign_suffix (text : List Char) : (readSign text).2 <:+ text := by
  unfold readSign
  split
  · exact List.suffix_cons '+' _
  · exact List.suffix_cons '-' _
  · exact List.suffix_refl _

theorem readExponent_suffix (text : List Char) : (readExponent text).2 <:+ text := by
  unfold readExponent
  split
  · rename_i mark rest
    split
    · have afterDigits := readDigits_suffix (readSign rest).2
      dsimp only
      split
      · exact List.suffix_refl _
      · rename_i found
        rw [found] at afterDigits
        exact (afterDigits.trans (readSign_suffix rest)).trans (List.suffix_cons mark rest)
    · exact List.suffix_refl _
  · exact List.suffix_refl _

theorem readMinus_suffix (text : List Char) : (readMinus text).2 <:+ text := by
  unfold readMinus
  split
  · exact List.suffix_cons '-' _
  · exact List.suffix_refl _

theorem read?_suffix {text rest : List Char} {numeral : Numeral}
    (read : read? text = some (numeral, rest)) : rest <:+ text := by
  unfold read? at read
  dsimp only at read
  split at read
  · cases read
  · rename_i whole afterWhole readWhole
    cases read
    have afterFraction := readFraction_suffix afterWhole
    have afterExponent := readExponent_suffix (readFraction afterWhole).2
    exact ((afterExponent.trans afterFraction).trans (readWhole?_suffix readWhole)).trans
      (readMinus_suffix text)

end Numeral

namespace Grammar

variable {text rest : List Char}

theorem skipFrom_suffix (text : List Char) (commented : Bool) :
    skipFrom commented text <:+ text := by
  induction text generalizing commented with
  | nil => exact List.suffix_refl []
  | cons c rest ih =>
      have passed (commented : Bool) : skipFrom commented rest <:+ c :: rest :=
        (ih commented).trans (List.suffix_cons c rest)
      unfold skipFrom
      split_ifs
      · exact passed _
      · exact passed _
      · exact passed _
      · exact List.suffix_refl _

theorem skip_suffix (text : List Char) : skip text <:+ text :=
  skipFrom_suffix text false

theorem readNumber?_suffix {value : Value} (read : readNumber? text = some (value, rest)) :
    rest <:+ text := by
  obtain ⟨⟨numeral, behind⟩, isNumeral, readGuard⟩ := Option.bind_eq_some_iff.mp read
  obtain ⟨_, _, readValue⟩ := Option.bind_eq_some_iff.mp readGuard
  obtain ⟨found, _, same⟩ := Option.bind_eq_some_iff.mp readValue
  cases same
  exact Numeral.read?_suffix isNumeral

theorem readName?_suffix {name : String} (read : readName? text = some (name, rest)) :
    rest <:+ text := by
  obtain ⟨chars, _, _, isText⟩ := exists_chars_of_readName? read
  exact ⟨chars, isText.symm⟩

theorem afterWord?_suffix {word : List Char} (read : afterWord? word text = some rest) :
    rest <:+ text :=
  ⟨word, (append_of_afterWord? read).symm⟩

theorem readQuoted?_suffix {content : List Char} (read : readQuoted? text = some (content, rest)) :
    rest <:+ text := by
  fun_induction readQuoted? text generalizing content with
  | case1 => cases read
  | case2 behind =>
      cases read
      exact List.suffix_cons '"' rest
  | case3 a b c d behind ih =>
      obtain ⟨character, _, readOthers⟩ := Option.bind_eq_some_iff.mp read
      obtain ⟨found, isRead, same⟩ := Option.bind_eq_some_iff.mp readOthers
      cases same
      exact (ih isRead).trans (List.suffix_append ['\\', 'u', a, b, c, d] behind)
  | case4 letter behind _ ih =>
      obtain ⟨character, _, readOthers⟩ := Option.bind_eq_some_iff.mp read
      obtain ⟨found, isRead, same⟩ := Option.bind_eq_some_iff.mp readOthers
      cases same
      exact (ih isRead).trans (List.suffix_append ['\\', letter] behind)
  | case5 => cases read
  | case6 c behind _ _ _ _ ih =>
      obtain ⟨found, isRead, same⟩ := Option.bind_eq_some_iff.mp read
      cases same
      exact (ih isRead).trans (List.suffix_cons c behind)

theorem readBlock?_suffix {content : List Char} (read : readBlock? text = some (content, rest)) :
    rest <:+ text := by
  fun_induction readBlock? text generalizing content with
  | case1 => cases read
  | case2 behind ih =>
      obtain ⟨found, isRead, same⟩ := Option.bind_eq_some_iff.mp read
      cases same
      exact (ih isRead).trans (List.suffix_append ['\\', '"', '"', '"'] behind)
  | case3 behind =>
      cases read
      exact List.suffix_append ['"', '"', '"'] rest
  | case4 c behind _ _ ih =>
      obtain ⟨found, isRead, same⟩ := Option.bind_eq_some_iff.mp read
      cases same
      exact (ih isRead).trans (List.suffix_cons c behind)

theorem readString?_suffix {content : String} (read : readString? text = some (content, rest)) :
    rest <:+ text := by
  unfold readString? at read
  dsimp only at read
  split at read
  · rename_i found isBlock
    cases read
    split at isBlock
    · rename_i behind
      obtain ⟨block, isRead, same⟩ := Option.map_eq_some_iff.mp isBlock
      cases same
      exact (readBlock?_suffix isRead).trans (List.suffix_append ['"', '"', '"'] behind)
    · cases isBlock
  · split at read
    · rename_i _ _ behind _
      obtain ⟨quoted, isRead, same⟩ := Option.map_eq_some_iff.mp read
      cases same
      exact (readQuoted?_suffix isRead).trans (List.suffix_cons '"' behind)
    · cases read

theorem readScalar?_suffix {value : Value} (read : readScalar? text = some (value, rest)) :
    rest <:+ text := by
  unfold readScalar? at read
  split at read
  · rename_i isNumber
    cases read
    exact readNumber?_suffix isNumber
  split at read
  · rename_i isString
    cases read
    exact readString?_suffix isString
  split at read
  · rename_i isTrue
    cases read
    exact afterWord?_suffix isTrue
  split at read
  · rename_i isFalse
    cases read
    exact afterWord?_suffix isFalse
  split at read
  · rename_i isNull
    cases read
    exact afterWord?_suffix isNull
  split at read
  · rename_i isName
    cases read
    exact readName?_suffix isName
  · cases read

theorem readFieldName?_suffix {name : String} (read : readFieldName? text = some (name, rest)) :
    rest <:+ text := by
  obtain ⟨⟨found, afterName⟩, isName, readColon⟩ := Option.bind_eq_some_iff.mp read
  obtain ⟨behind, isColon, same⟩ := Option.bind_eq_some_iff.mp readColon
  cases same
  have afterColon := (afterWord?_suffix isColon).trans (skip_suffix afterName)
  exact ((skip_suffix behind).trans afterColon).trans (readName?_suffix isName)

/-- Separators and closed comments. -/
inductive IsIgnorable : List Char → Prop
  | nothing : IsIgnorable []
  | separator {c : Char} {rest : List Char} (isSeparator : isSeparator c = true)
      (others : IsIgnorable rest) : IsIgnorable (c :: rest)
  | comment {content : List Char} {lineEnd : Char} {rest : List Char}
      (oneLine : ∀ c ∈ content, isLineEnd c = false) (ends : isLineEnd lineEnd = true)
      (others : IsIgnorable rest) : IsIgnorable ('#' :: (content ++ lineEnd :: rest))

theorem skipFrom_comment {content : List Char} {lineEnd : Char}
    (oneLine : ∀ c ∈ content, isLineEnd c = false) (ends : isLineEnd lineEnd = true) :
    skipFrom true (content ++ lineEnd :: rest) = skip rest := by
  induction content with
  | nil =>
      rw [List.nil_append, skipFrom, if_pos rfl, ends]
      rfl
  | cons c content ih =>
      obtain ⟨notLineEnd, others⟩ := List.forall_mem_cons.mp oneLine
      rw [List.cons_append, skipFrom, if_pos rfl, notLineEnd]
      exact ih others

theorem IsIgnorable.skip_append {before : List Char} (ignorable : IsIgnorable before)
    (text : List Char) : skip (before ++ text) = skip text := by
  induction ignorable with
  | nothing => rfl
  | separator isSeparator _ ih =>
      rw [List.cons_append, skip, skipFrom, if_neg Bool.false_ne_true, if_pos isSeparator]
      exact ih
  | comment oneLine ends _ ih =>
      rw [List.cons_append, List.append_assoc, skip, skipFrom, if_neg Bool.false_ne_true,
        if_neg (by decide), if_pos rfl, List.cons_append, skipFrom_comment oneLine ends]
      exact ih

theorem IsIgnorable.comment_cons {c : Char} {before : List Char}
    (ignorable : IsIgnorable ('#' :: before)) (sameLine : isLineEnd c = false) :
    IsIgnorable ('#' :: c :: before) := by
  cases ignorable with
  | separator isSeparator _ => cases isSeparator
  | comment oneLine ends others =>
      exact .comment (List.forall_mem_cons.mpr ⟨sameLine, oneLine⟩) ends others

theorem exists_isIgnorable_of_skipFrom (text : List Char) (commented : Bool)
    (counts : skipFrom commented text ≠ []) :
    ∃ before, text = before ++ skipFrom commented text ∧
      IsIgnorable (if commented then '#' :: before else before) := by
  induction text generalizing commented with
  | nil => exact absurd rfl counts
  | cons c rest ih =>
      cases commented with
      | true =>
          rw [skipFrom, if_pos rfl] at counts ⊢
          obtain ⟨before, isRest, ignorable⟩ := ih _ counts
          refine ⟨c :: before, congrArg (List.cons c) isRest, ?_⟩
          rw [if_pos rfl]
          cases ends : isLineEnd c with
          | true =>
              rw [ends] at ignorable
              exact .comment (fun _ none => absurd none List.not_mem_nil) ends ignorable
          | false =>
              rw [ends] at ignorable
              exact ignorable.comment_cons ends
      | false =>
          simp only [skipFrom, Bool.false_eq_true, if_false] at counts ⊢
          split_ifs at counts ⊢ with isSeparator isComment
          · obtain ⟨before, isRest, ignorable⟩ := ih _ counts
            exact ⟨c :: before, congrArg (List.cons c) isRest, .separator isSeparator ignorable⟩
          · obtain ⟨before, isRest, ignorable⟩ := ih _ counts
            exact ⟨c :: before, congrArg (List.cons c) isRest, isComment ▸ ignorable⟩
          · exact ⟨[], rfl, .nothing⟩

theorem exists_isIgnorable_of_skip (counts : skip text ≠ []) :
    ∃ before, text = before ++ skip text ∧ IsIgnorable before :=
  exists_isIgnorable_of_skipFrom text false counts

def readLiteral? (text : List Char) : Option (Value × List Char) :=
  match readScalar? text with
  | some found => some found
  | none =>
      match text with
      | '[' :: inside =>
          let (items, behind) := readItems (skip inside)
          (afterWord? [']'] behind).map fun rest => (.list items, rest)
      | '\x7b' :: inside =>
          let (fields, behind) := readFields (skip inside)
          (afterWord? ['\x7d'] behind).map fun rest => (Value.ofFields fields, rest)
      | _ => none

theorem readValue?_eq (text : List Char) :
    readValue? text = (readLiteral? text).map fun found => (found.1, skip found.2) := by
  unfold readLiteral?
  cases isScalar : readScalar? text with
  | some found => exact readValue?_of_readScalar? isScalar
  | none =>
      dsimp only
      split
      · rw [readValue?_bracket, Option.map_map]
        rfl
      · rw [readValue?_brace, Option.map_map]
        rfl
      · rename_i notBracket notBrace
        have notList : text.head? ≠ some '[' :=
          fun first => (List.head?_eq_some_iff.mp first).elim notBracket
        have notObject : text.head? ≠ some '\x7b' :=
          fun first => (List.head?_eq_some_iff.mp first).elim notBrace
        rw [readValue?_of_head? notList notObject, isScalar]

theorem exists_readLiteral?_of_readValue? {value : Value}
    (read : readValue? text = some (value, rest)) :
    ∃ after, readLiteral? text = some (value, after) ∧ rest = skip after := by
  rw [readValue?_eq] at read
  obtain ⟨⟨found, after⟩, isLiteral, same⟩ := Option.map_eq_some_iff.mp read
  cases same
  exact ⟨after, isLiteral, rfl⟩

theorem readLiteral?_eq_none {c : Char} (ignored : isSeparator c = true ∨ c = '#')
    (rest : List Char) : readLiteral? (c :: rest) = none := by
  have noValue : readValue? (c :: rest) = none := by
    simp only [isSeparator, isLineEnd, Bool.or_eq_true, beq_iff_eq] at ignored
    rcases ignored with ((((rfl | rfl) | rfl) | rfl) | rfl | rfl) | rfl
    all_goals exact readValue?_eq_none (by decide) (by decide) (by decide) (by decide) rest
  rw [readValue?_eq] at noValue
  exact Option.map_eq_none_iff.mp noValue

/-- A literal starts where it counts. -/
theorem skip_of_readLiteral? {value : Value} (read : readLiteral? text = some (value, rest)) :
    skip text = text := by
  cases text with
  | nil => rfl
  | cons c behind =>
      apply skip_cons
      refine ⟨Bool.eq_false_iff.mpr fun isSeparator => ?_, fun isComment => ?_⟩
      · rw [readLiteral?_eq_none (Or.inl isSeparator)] at read
        cases read
      · rw [readLiteral?_eq_none (Or.inr isComment)] at read
        cases read

mutual

theorem readLiteral?_suffix (text : List Char) {value : Value} {rest : List Char}
    (read : readLiteral? text = some (value, rest)) : rest <:+ text := by
  unfold readLiteral? at read
  split at read
  · rename_i isScalar
    cases read
    exact readScalar?_suffix isScalar
  · split at read
    · rename_i inside _
      have within := length_skip_le inside
      obtain ⟨behind, closed, same⟩ := Option.map_eq_some_iff.mp read
      cases same
      have behindItems := (afterWord?_suffix closed).trans (readItems_suffix (skip inside))
      exact (behindItems.trans (skip_suffix inside)).trans (List.suffix_cons '[' inside)
    · rename_i inside _
      have within := length_skip_le inside
      obtain ⟨behind, closed, same⟩ := Option.map_eq_some_iff.mp read
      cases same
      have behindFields := (afterWord?_suffix closed).trans (readFields_suffix (skip inside))
      exact (behindFields.trans (skip_suffix inside)).trans (List.suffix_cons '\x7b' inside)
    · cases read
termination_by 2 * text.length
decreasing_by
  all_goals
    subst_vars
    rw [List.length_cons]
    omega

theorem readItems_suffix (text : List Char) : (readItems text).2 <:+ text := by
  unfold readItems
  split
  · rename_i value rest isValue
    obtain ⟨after, isLiteral, rfl⟩ := exists_readLiteral?_of_readValue? isValue
    split
    · exact ((readItems_suffix (skip after)).trans (skip_suffix after)).trans
        (readLiteral?_suffix text isLiteral)
    · exact List.suffix_refl text
  · exact List.suffix_refl text
termination_by 2 * text.length + 1

theorem readFields_suffix (text : List Char) : (readFields text).2 <:+ text := by
  unfold readFields
  split
  · rename_i name afterName isName
    split
    · split
      · rename_i value rest isValue
        obtain ⟨after, isLiteral, rfl⟩ := exists_readLiteral?_of_readValue? isValue
        split
        · have behindName := readFieldName?_suffix isName
          have behindValue := (skip_suffix after).trans (readLiteral?_suffix afterName isLiteral)
          exact ((readFields_suffix (skip after)).trans behindValue).trans behindName
        · exact List.suffix_refl text
      · exact List.suffix_refl text
    · exact List.suffix_refl text
  · exact List.suffix_refl text
termination_by 2 * text.length + 1

end

end Grammar

end SchemaEvolution
