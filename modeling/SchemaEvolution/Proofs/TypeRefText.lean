import SchemaEvolution.Proofs.TypeRef

/-!
Reading references from texts. A text writes a reference with blanks wherever they are allowed:
behind an opening bracket, in front of a closing one and in front of a mark. At every depth the last
character of such a text tells the outermost layer, so the reference is read back.
-/

namespace SchemaEvolution

namespace Text

def AreBlanks (text : List Char) : Prop :=
  ∀ c ∈ text, isBlank c = true

structure IsTrimmed (text : List Char) : Prop where
  first : ∀ c ∈ text.head?, isBlank c = false
  last : ∀ c ∈ text.getLast?, isBlank c = false

theorem trimEnd_append {text after : List Char} (blanks : AreBlanks after)
    (last : ∀ c ∈ text.getLast?, isBlank c = false) : trimEnd (text ++ after) = text := by
  have reversed : AreBlanks after.reverse := fun c member => blanks c (List.mem_reverse.mp member)
  rw [trimEnd, List.reverse_append, dropWhile_append_of_ends reversed, List.reverse_reverse]
  rw [List.head?_reverse]
  exact last

theorem trim_append {before text after : List Char} (blanksBefore : AreBlanks before)
    (blanksAfter : AreBlanks after) (trimmed : IsTrimmed text) (notEmpty : text ≠ []) :
    trim (before ++ (text ++ after)) = text := by
  have first : ∀ c ∈ (text ++ after).head?, isBlank c = false := by
    obtain ⟨c, rest, rfl⟩ := List.exists_cons_of_ne_nil notEmpty
    exact trimmed.first
  rw [trim, trimStart, dropWhile_append_of_ends blanksBefore first,
    trimEnd_append blanksAfter trimmed.last]

theorem not_isBlank_of_isNameChar {c : Char} (nameChar : isNameChar c = true) :
    isBlank c = false := by
  have code : 48 ≤ c.toNat ∧ c.toNat ≤ 122 := by
    by_cases underscore : c = '_'
    · subst underscore
      decide
    · have letterOrDigit : c.isAlpha = true ∨ c.isDigit = true := by
        simpa [isNameChar, isNameStart, underscore] using nameChar
      unfold Char.isAlpha Char.isUpper Char.isLower Char.isDigit at letterOrDigit
      simp only [Bool.or_eq_true, Bool.and_eq_true, decide_eq_true_eq, ge_iff_le,
        UInt32.le_iff_toNat_le] at letterOrDigit
      have zero : '0'.val.toNat = 48 := rfl
      have nine : '9'.val.toNat = 57 := rfl
      have upperA : 'A'.val.toNat = 65 := rfl
      have upperZ : 'Z'.val.toNat = 90 := rfl
      have lowerA : 'a'.val.toNat = 97 := rfl
      have lowerZ : 'z'.val.toNat = 122 := rfl
      have same : c.toNat = c.val.toNat := rfl
      omega
  rw [Bool.eq_false_iff]
  simp only [isBlank, ne_eq, Bool.or_eq_true, Bool.and_eq_true, decide_eq_true_eq, beq_iff_eq]
  omega

end Text

namespace TypeRef

def HasSingleMarks : TypeRef → Prop
  | named _ => True
  | list item => item.HasSingleMarks
  | nonNull inner => inner.isNonNull = false ∧ inner.HasSingleMarks

/-- The text writes the reference, with blanks inside brackets and in front of marks. A mark on a
mark has blanks in front of it. -/
inductive IsWritten : TypeRef → List Char → Prop
  | named {name : String} (isName : Text.isName name.toList = true) :
      IsWritten (named name) name.toList
  | list {item : TypeRef} {before text after : List Char} (blanksBefore : Text.AreBlanks before)
      (blanksAfter : Text.AreBlanks after) (inside : IsWritten item text) :
      IsWritten (list item) ('[' :: (before ++ (text ++ after) ++ [']']))
  | nonNull {inner : TypeRef} {text after : List Char} (blanks : Text.AreBlanks after)
      (apart : inner.isNonNull = false ∨ after ≠ []) (inside : IsWritten inner text) :
      IsWritten (nonNull inner) (text ++ after ++ ['!'])

theorem isWritten_chars {type : TypeRef} (named : type.IsNamed) (marks : type.HasSingleMarks) :
    type.IsWritten type.chars := by
  have noBlanks : Text.AreBlanks [] := fun _ member => absurd member List.not_mem_nil
  induction type with
  | named name => exact .named named
  | list item ih =>
      have written := IsWritten.list noBlanks noBlanks (ih named marks)
      rwa [List.append_nil, List.nil_append] at written
  | nonNull inner ih =>
      have written := IsWritten.nonNull noBlanks (Or.inl marks.1) (ih named marks.2)
      rwa [List.append_nil] at written

namespace IsWritten

variable {type : TypeRef} {text : List Char}

theorem ne_nil (written : type.IsWritten text) : text ≠ [] := by
  cases written with
  | named isName =>
      intro empty
      rw [empty] at isName
      cases isName
  | list => exact List.cons_ne_nil _ _
  | nonNull => exact List.append_ne_nil_of_right_ne_nil _ (List.cons_ne_nil _ _)

theorem isTrimmed (written : type.IsWritten text) : Text.IsTrimmed text := by
  induction written with
  | named isName =>
      constructor
      · exact fun c first => Text.not_isBlank_of_isNameChar
          (Text.isNameChar_of_mem isName (List.mem_of_mem_head? first))
      · exact fun c last => Text.not_isBlank_of_isNameChar
          (Text.isNameChar_of_mem isName (List.mem_of_mem_getLast? last))
  | list =>
      constructor
      · intro c first
        cases first
        rfl
      · intro c last
        rw [← List.cons_append, List.getLast?_concat] at last
        cases last
        rfl
  | nonNull _ _ inside ih =>
      constructor
      · obtain ⟨c, rest, rfl⟩ := List.exists_cons_of_ne_nil inside.ne_nil
        exact ih.first
      · intro c last
        rw [List.getLast?_concat] at last
        cases last
        rfl

/-- Only a mark ends with a mark. -/
theorem getLast?_ne_mark (written : type.IsWritten text) (unmarked : type.isNonNull = false) :
    text.getLast? ≠ some '!' := by
  intro last
  cases written with
  | named isName =>
      have nameChar := Text.isNameChar_of_mem isName (List.mem_of_mem_getLast? last)
      exact absurd nameChar (by decide)
  | list =>
      rw [← List.cons_append, List.getLast?_concat] at last
      cases last
  | nonNull => cases unmarked

end IsWritten

theorem beforeLast?_concat (text : List Char) (last : Char) :
    beforeLast? last (text ++ [last]) = some text := by
  simp [beforeLast?]

theorem beforeLast?_eq_none {text : List Char} {last : Char} (other : text.getLast? ≠ some last) :
    beforeLast? last text = none :=
  if_neg other

section Layers

variable {text inner item : List Char}

theorem parseTrimmed_of_mark (marked : beforeLast? '!' text = some inner)
    (single : inner.getLast? ≠ some '!') :
    parseTrimmed text = (parseTrimmed (Text.trimEnd inner)).map nonNull := by
  rw [parseTrimmed]
  split
  · rename_i isMarked
    cases marked.symm.trans isMarked
    rw [if_neg single]
  · rename_i unmarked
    cases marked.symm.trans unmarked

theorem parseTrimmed_of_brackets (unmarked : beforeLast? '!' text = none)
    (opened : afterBracket? text = some inner) (closed : beforeLast? ']' inner = some item) :
    parseTrimmed text = (parseTrimmed (Text.trim item)).map list := by
  rw [parseTrimmed]
  split
  · rename_i isMarked
    cases unmarked.symm.trans isMarked
  · split
    · rename_i isOpened
      cases opened.symm.trans isOpened
      split
      · rename_i isClosed
        cases closed.symm.trans isClosed
        rfl
      · rename_i unclosed
        cases closed.symm.trans unclosed
    · rename_i unopened
      cases opened.symm.trans unopened

theorem parseTrimmed_of_isName (isName : Text.isName text = true) :
    parseTrimmed text = .ok (named (String.ofList text)) := by
  have noMark {mark : Char} (isMark : Text.isNameChar mark = false) : mark ∉ text := by
    intro member
    rw [Text.isNameChar_of_mem isName member] at isMark
    cases isMark
  have unmarked : beforeLast? '!' text = none :=
    beforeLast?_eq_none fun last => noMark (by decide) (List.mem_of_mem_getLast? last)
  have unopened : afterBracket? text = none := by
    unfold afterBracket?
    split
    · exact absurd List.mem_cons_self (noMark (by decide))
    · rfl
  rw [parseTrimmed]
  split
  · rename_i isMarked
    cases unmarked.symm.trans isMarked
  · split
    · rename_i isOpened
      cases unopened.symm.trans isOpened
    · rw [if_pos isName]

end Layers

theorem parseTrimmed_of_isWritten {type : TypeRef} {text : List Char}
    (written : type.IsWritten text) : parseTrimmed text = .ok type := by
  induction written with
  | named isName => rw [parseTrimmed_of_isName isName, String.ofList_toList]
  | @list item before text after blanksBefore blanksAfter inside ih =>
      have unmarked := (IsWritten.list blanksBefore blanksAfter inside).getLast?_ne_mark rfl
      rw [parseTrimmed_of_brackets (beforeLast?_eq_none unmarked) rfl (beforeLast?_concat _ _),
        Text.trim_append blanksBefore blanksAfter inside.isTrimmed inside.ne_nil, ih]
      rfl
  | @nonNull inner text after blanks apart inside ih =>
      have unmarked : (text ++ after).getLast? ≠ some '!' := by
        intro last
        rw [List.getLast?_append] at last
        cases blank : after.getLast? with
        | some c =>
            rw [blank] at last
            cases last
            exact absurd (blanks '!' (List.mem_of_mem_getLast? blank)) (by decide)
        | none =>
            rw [blank] at last
            have single := apart.resolve_right (not_not_intro (List.getLast?_eq_none_iff.mp blank))
            exact inside.getLast?_ne_mark single last
      rw [parseTrimmed_of_mark (beforeLast?_concat _ _) unmarked,
        Text.trimEnd_append blanks inside.isTrimmed.last, ih]
      rfl

/-- A reference is read from any text that writes it, with blanks at both ends. -/
theorem parse_of_isWritten {type : TypeRef} {before text after : List Char}
    (written : type.IsWritten text) (blanksBefore : Text.AreBlanks before)
    (blanksAfter : Text.AreBlanks after) :
    parse (String.ofList (before ++ (text ++ after))) = .ok type := by
  rw [parse, String.toList_ofList,
    Text.trim_append blanksBefore blanksAfter written.isTrimmed written.ne_nil,
    parseTrimmed_of_isWritten written]
  rfl

theorem parse_text {type : TypeRef} (named : type.IsNamed) (marks : type.HasSingleMarks) :
    parse type.text = .ok type := by
  have noBlanks : Text.AreBlanks [] := fun _ member => absurd member List.not_mem_nil
  have read := parse_of_isWritten (isWritten_chars named marks) noBlanks noBlanks
  rwa [List.append_nil, List.nil_append] at read

end TypeRef

end SchemaEvolution
