import Mathlib.Data.List.Basic
import SchemaEvolution.Proofs.TypeRef
import SchemaEvolution.Value.Parse

/-!
The form of a value that was read shows in its text. Strings, lists and objects show it by their
first character, booleans, null and enum values by their letters; a number that is no integer has a
point or an exponent. Values that were not read need not be of this sort, since the text of a number
or of an enum value can then be any text.
-/

namespace SchemaEvolution

/-- A point or the letter of an exponent, which no integer has. -/
def isFloatMark (c : Char) : Bool :=
  c == '.' || c == 'e' || c == 'E'

def isNumberChar (c : Char) : Bool :=
  c.isDigit || c == '-' || c == '+' || isFloatMark c

namespace Value

def shownKind (chars : List Char) : ValueKind :=
  if chars.head? = some '"' then .string
  else if chars.head? = some '[' then .list
  else if chars.head? = some '\x7b' then .object
  else if chars = ['n', 'u', 'l', 'l'] then .null
  else if chars = ['t', 'r', 'u', 'e'] ∨ chars = ['f', 'a', 'l', 's', 'e'] then .boolean
  else if Text.isName chars then .enum
  else if chars.any isFloatMark then .float
  else .int

def ShowsKind (value : Value) : Prop :=
  shownKind value.chars = value.kind

theorem ShowsKind.kind_eq {left right : Value} (leftShows : left.ShowsKind)
    (rightShows : right.ShowsKind) (same : left.text = right.text) : left.kind = right.kind := by
  have chars : left.chars = right.chars := String.ofList_injective same
  rw [← leftShows, ← rightShows, chars]

theorem showsKind_string (content : String) : (string content).ShowsKind :=
  rfl

theorem showsKind_list (items : List Value) : (list items).ShowsKind := by
  simp [ShowsKind, shownKind, chars, kind]

theorem showsKind_object (fields : List (String × Value)) : (object fields).ShowsKind := by
  simp [ShowsKind, shownKind, chars, kind]

theorem showsKind_boolean (value : Bool) : (boolean value).ShowsKind := by
  cases value <;> rfl

theorem showsKind_null : null.ShowsKind :=
  rfl

end Value

theorem Value.shownKind_of_isNumberChar {chars : List Char}
    (number : ∀ c ∈ chars, isNumberChar c = true) (notName : Text.isName chars = false) :
    shownKind chars = if chars.any isFloatMark then .float else .int := by
  have head {c : Char} (other : isNumberChar c = false) : chars.head? ≠ some c := by
    intro first
    rw [number c (List.mem_of_mem_head? first)] at other
    cases other
  have word {c : Char} {word : List Char} (member : c ∈ word) (other : isNumberChar c = false) :
      chars ≠ word := by
    intro same
    rw [number c (same ▸ member)] at other
    cases other
  unfold shownKind
  rw [if_neg (head (by decide)), if_neg (head (by decide)), if_neg (head (by decide)),
    if_neg (word (c := 'n') (by decide) (by decide)), if_neg, notName]
  · simp
  · exact not_or.mpr ⟨word (c := 't') (by decide) (by decide),
      word (c := 'f') (by decide) (by decide)⟩

theorem isNumberChar_of_isDigit {c : Char} (digit : c.isDigit = true) : isNumberChar c = true := by
  simp [isNumberChar, digit]

/-- The text of a number that is no integer. With a letter in front it would be a name. -/
structure IsFloatText (chars : List Char) : Prop where
  number : ∀ c ∈ chars, isNumberChar c = true
  marked : ∃ c ∈ chars, isFloatMark c = true
  notName : Text.isName chars = false

theorem isFloatText_of_point {whole fraction : List Char}
    (wholeNumber : ∀ c ∈ whole, isNumberChar c = true)
    (fractionNumber : ∀ c ∈ fraction, isNumberChar c = true) :
    IsFloatText (whole ++ '.' :: fraction) where
  number := List.forall_mem_append.mpr ⟨wholeNumber, List.forall_mem_cons.mpr ⟨rfl, fractionNumber⟩⟩
  marked := ⟨'.', List.mem_append_right _ List.mem_cons_self, rfl⟩
  notName := Text.not_isName_of_mem (by decide : Text.isNameChar '.' = false)
    (List.mem_append_right _ List.mem_cons_self)

theorem isFloatText_of_exponent {size exponent : List Char} {sign : Char}
    (isSign : sign = '+' ∨ sign = '-') (sizeNumber : ∀ c ∈ size, isNumberChar c = true)
    (exponentNumber : ∀ c ∈ exponent, isNumberChar c = true) :
    IsFloatText (size ++ 'e' :: sign :: exponent) where
  number := by
    refine List.forall_mem_append.mpr ⟨sizeNumber, List.forall_mem_cons.mpr ⟨rfl, ?_⟩⟩
    refine List.forall_mem_cons.mpr ⟨?_, exponentNumber⟩
    rcases isSign with rfl | rfl <;> rfl
  marked := ⟨'e', List.mem_append_right _ List.mem_cons_self, rfl⟩
  notName := by
    have notNameChar : Text.isNameChar sign = false := by rcases isSign with rfl | rfl <;> decide
    exact Text.not_isName_of_mem notNameChar
      (List.mem_append_right _ (List.mem_cons_of_mem _ List.mem_cons_self))

theorem Value.showsKind_float {chars : List Char} (text : IsFloatText chars) :
    (float (String.ofList chars)).ShowsKind := by
  rw [ShowsKind, Value.chars, String.toList_ofList,
    shownKind_of_isNumberChar text.number text.notName, if_pos (List.any_eq_true.mpr text.marked)]
  rfl

theorem Text.isNameStart_of_isDigit {c : Char} (digit : c.isDigit = true) :
    isNameStart c = false := by
  have notUnderscore : c ≠ '_' := by
    rintro rfl
    exact absurd digit (by decide)
  have notAlpha : c.isAlpha = false := by
    simp only [Char.isDigit, Bool.and_eq_true, decide_eq_true_eq, ge_iff_le,
      UInt32.le_iff_toNat_le] at digit
    unfold Char.isAlpha Char.isUpper Char.isLower
    simp only [Bool.or_eq_false_iff, Bool.and_eq_false_iff, decide_eq_false_iff_not, ge_iff_le,
      UInt32.le_iff_toNat_le]
    have nine : '9'.val.toNat = 57 := rfl
    have upper : 'A'.val.toNat = 65 := rfl
    have lower : 'a'.val.toNat = 97 := rfl
    omega
  simp [isNameStart, notAlpha, notUnderscore]

theorem Text.not_isName_of_digits {digits : List Char}
    (allDigits : ∀ c ∈ digits, c.isDigit = true) : isName digits = false := by
  cases digits with
  | nil => rfl
  | cons first rest =>
      simp [isName, isNameStart_of_isDigit (allDigits first List.mem_cons_self)]

theorem isFloatMark_of_isDigit {c : Char} (digit : c.isDigit = true) : isFloatMark c = false := by
  rw [Bool.eq_false_iff]
  intro mark
  simp only [isFloatMark, Bool.or_eq_true, beq_iff_eq] at mark
  rcases mark with (rfl | rfl) | rfl
  all_goals exact absurd digit (by decide)

def IsSign (chars : List Char) : Prop :=
  chars = [] ∨ chars = ['-'] ∨ chars = ['+']

theorem Value.showsKind_int {sign digits : List Char} (isSign : IsSign sign)
    (allDigits : ∀ c ∈ digits, c.isDigit = true) :
    (int (String.ofList (sign ++ digits))).ShowsKind := by
  have digitsNumber : ∀ c ∈ digits, isNumberChar c = true :=
    fun c member => isNumberChar_of_isDigit (allDigits c member)
  have digitsUnmarked : ∀ c ∈ digits, isFloatMark c = false :=
    fun c member => isFloatMark_of_isDigit (allDigits c member)
  have kindOf {chars : List Char} (number : ∀ c ∈ chars, isNumberChar c = true)
      (unmarked : ∀ c ∈ chars, isFloatMark c = false) (notName : Text.isName chars = false) :
      (int (String.ofList chars)).ShowsKind := by
    have noMark : ¬ chars.any isFloatMark = true := by
      simp only [List.any_eq_true, not_exists, not_and, Bool.not_eq_true]
      exact unmarked
    rw [ShowsKind, Value.chars, String.toList_ofList, shownKind_of_isNumberChar number notName,
      if_neg noMark]
    rfl
  rcases isSign with rfl | rfl | rfl
  · exact kindOf digitsNumber digitsUnmarked (Text.not_isName_of_digits allDigits)
  · exact kindOf (List.forall_mem_cons.mpr ⟨rfl, digitsNumber⟩)
      (List.forall_mem_cons.mpr ⟨rfl, digitsUnmarked⟩)
      (Text.not_isName_of_mem (by decide : Text.isNameChar '-' = false) List.mem_cons_self)
  · exact kindOf (List.forall_mem_cons.mpr ⟨rfl, digitsNumber⟩)
      (List.forall_mem_cons.mpr ⟨rfl, digitsUnmarked⟩)
      (Text.not_isName_of_mem (by decide : Text.isNameChar '+' = false) List.mem_cons_self)

theorem IsFloatText.cons_minus {chars : List Char} (text : IsFloatText chars) :
    IsFloatText ('-' :: chars) where
  number := List.forall_mem_cons.mpr ⟨rfl, text.number⟩
  marked := by
    obtain ⟨c, member, mark⟩ := text.marked
    exact ⟨c, List.mem_cons_of_mem _ member, mark⟩
  notName := Text.not_isName_of_mem (by decide : Text.isNameChar '-' = false) List.mem_cons_self

namespace Binary64

theorem isFloatText_layout {digits : List Char} (allDigits : ∀ c ∈ digits, c.isDigit = true)
    (leading : Int) : IsFloatText (layout digits leading) := by
  have number {part : List Char} (subset : part ⊆ digits) : ∀ c ∈ part, isNumberChar c = true :=
    fun c member => isNumberChar_of_isDigit (allDigits c (subset member))
  have zeros (count : Nat) : ∀ c ∈ List.replicate count '0', isNumberChar c = true :=
    fun c member => (List.mem_replicate.mp member).2 ▸ rfl
  unfold layout
  split
  · apply isFloatText_of_point
    · exact List.forall_mem_append.mpr ⟨number (List.take_subset _ _), zeros _⟩
    · split
      · exact List.forall_mem_singleton.mpr rfl
      · exact number (List.drop_subset _ _)
  · split
    · exact isFloatText_of_point (zeros 1)
        (List.forall_mem_append.mpr ⟨zeros _, number (List.Subset.refl _)⟩)
    · apply isFloatText_of_exponent
      · split <;> simp
      · refine List.forall_mem_append.mpr ⟨number (List.take_subset _ _), ?_⟩
        split
        · exact fun c member => absurd member List.not_mem_nil
        · exact List.forall_mem_cons.mpr ⟨rfl, number (List.drop_subset _ _)⟩
      · exact fun c member =>
          isNumberChar_of_isDigit (Nat.isDigit_of_mem_toDigits (by decide) (by decide) member)

theorem isFloatText_chars (value : Binary64) : IsFloatText value.chars := by
  unfold chars
  split
  · have zero : ∀ c ∈ ['0'], isNumberChar c = true := List.forall_mem_singleton.mpr rfl
    exact isFloatText_of_point zero zero
  · apply isFloatText_layout
    intro c member
    have inDigits := List.take_subset _ _ member
    exact Nat.isDigit_of_mem_toDigits (by decide) (by decide) inDigits

end Binary64

namespace Numeral

theorem isDigit_eq (c : Char) : isDigit c = c.isDigit := by
  simp [isDigit, Char.isDigit, Char.le_def]

theorem isDigit_of_mem_readDigits {text : List Char} {c : Char}
    (member : c ∈ (readDigits text).1) : c.isDigit = true := by
  rw [← isDigit_eq]
  exact List.all_eq_true.mp List.all_takeWhile c member

theorem isDigit_of_mem_readWhole? {text whole rest : List Char}
    (found : readWhole? text = some (whole, rest)) : ∀ c ∈ whole, c.isDigit = true := by
  unfold readWhole? at found
  split at found
  · cases found
    exact List.forall_mem_singleton.mpr rfl
  · split at found
    · cases found
    · intro c member
      have isRead := Option.some.inj found
      have inDigits : c ∈ (readDigits text).1 := by
        rw [isRead]
        exact member
      exact isDigit_of_mem_readDigits inDigits

theorem exists_readWhole?_of_read? {text rest : List Char} {numeral : Numeral}
    (found : read? text = some (numeral, rest)) :
    ∃ unsigned behind, readWhole? unsigned = some (numeral.whole, behind) := by
  unfold read? at found
  dsimp only at found
  split at found
  · cases found
  · rename_i whole behind wholeFound
    cases found
    exact ⟨_, behind, wholeFound⟩

theorem isDigit_of_mem_whole {text rest : List Char} {numeral : Numeral}
    (found : read? text = some (numeral, rest)) : ∀ c ∈ numeral.whole, c.isDigit = true := by
  obtain ⟨_, _, wholeFound⟩ := exists_readWhole?_of_read? found
  exact isDigit_of_mem_readWhole? wholeFound

end Numeral

namespace Grammar

theorem showsKind_of_numeralValue? {text rest : List Char} {numeral : Numeral} {value : Value}
    (found : Numeral.read? text = some (numeral, rest))
    (isValue : numeralValue? numeral = some value) : value.ShowsKind := by
  unfold numeralValue? at isValue
  split at isValue
  · cases isValue
    have allDigits := Numeral.isDigit_of_mem_whole found
    cases numeral.negative with
    | true =>
        have shows := Value.showsKind_int (Or.inr (Or.inl rfl) : IsSign ['-']) allDigits
        exact shows
    | false =>
        have shows := Value.showsKind_int (Or.inl rfl : IsSign []) allDigits
        exact shows
  · obtain ⟨size, _, rfl⟩ := Option.map_eq_some_iff.mp isValue
    have isFloat : IsFloatText
        (if numeral.negative then '-' :: size.chars else size.chars) := by
      split
      · exact size.isFloatText_chars.cons_minus
      · exact size.isFloatText_chars
    exact Value.showsKind_float isFloat

theorem afterWord?_append (word rest : List Char) : afterWord? word (word ++ rest) = some rest := by
  induction word with
  | nil => rfl
  | cons c word ih => simp [afterWord?, ih]

theorem exists_chars_of_readName? {text rest : List Char} {name : String}
    (found : readName? text = some (name, rest)) :
    ∃ chars, name = String.ofList chars ∧ Text.isName chars = true ∧ text = chars ++ rest := by
  unfold readName? at found
  split at found
  · rename_i first tail
    split at found
    · rename_i start
      cases found
      refine ⟨_, rfl, ?_, (List.takeWhile_append_dropWhile).symm⟩
      have nameChar : Text.isNameChar first = true := by simp [Text.isNameChar, start]
      rw [List.takeWhile_cons_of_pos nameChar]
      simp [Text.isName, start]
    · cases found
  · cases found

theorem showsKind_enum {chars : List Char} (isName : Text.isName chars = true)
    (notNull : chars ≠ ['n', 'u', 'l', 'l']) (notTrue : chars ≠ ['t', 'r', 'u', 'e'])
    (notFalse : chars ≠ ['f', 'a', 'l', 's', 'e']) :
    (Value.enum (String.ofList chars)).ShowsKind := by
  have head {mark : Char} (isMark : Text.isNameChar mark = false) : chars.head? ≠ some mark := by
    intro first
    rw [Text.isNameChar_of_mem isName (List.mem_of_mem_head? first)] at isMark
    cases isMark
  rw [Value.ShowsKind, Value.chars, String.toList_ofList, Value.shownKind,
    if_neg (head (by decide)), if_neg (head (by decide)), if_neg (head (by decide)),
    if_neg notNull, if_neg (not_or.mpr ⟨notTrue, notFalse⟩), if_pos isName]
  rfl

theorem showsKind_of_readScalar? {text rest : List Char} {value : Value}
    (found : readScalar? text = some (value, rest)) : value.ShowsKind := by
  unfold readScalar? at found
  split at found
  · rename_i isNumber
    cases found
    obtain ⟨⟨numeral, afterNumeral⟩, isRead, behind⟩ := Option.bind_eq_some_iff.mp isNumber
    obtain ⟨_, _, behindGuard⟩ := Option.bind_eq_some_iff.mp behind
    obtain ⟨number, isValue, isResult⟩ := Option.bind_eq_some_iff.mp behindGuard
    cases isResult
    exact showsKind_of_numeralValue? isRead isValue
  split at found
  · cases found
    exact Value.showsKind_string _
  split at found
  · cases found
    exact Value.showsKind_boolean true
  rename_i notTrue
  split at found
  · cases found
    exact Value.showsKind_boolean false
  rename_i notFalse
  split at found
  · cases found
    exact Value.showsKind_null
  rename_i notNull
  split at found
  · rename_i isName
    cases found
    obtain ⟨chars, rfl, named, split⟩ := exists_chars_of_readName? isName
    have notWord {word : List Char} (notRead : afterWord? word text = none) : chars ≠ word := by
      intro same
      rw [split, same, afterWord?_append] at notRead
      cases notRead
    exact showsKind_enum named (notWord notNull) (notWord notTrue) (notWord notFalse)
  · cases found

theorem showsKind_of_readValue? {text rest : List Char} {value : Value}
    (found : readValue? text = some (value, rest)) : value.ShowsKind := by
  unfold readValue? at found
  split at found
  · rename_i isScalar
    cases found
    exact showsKind_of_readScalar? isScalar
  · split at found
    · split at found
      · cases found
        exact Value.showsKind_list _
      · cases found
    · split at found
      · cases found
        exact Value.showsKind_object _
      · cases found
    · cases found

end Grammar

end SchemaEvolution
