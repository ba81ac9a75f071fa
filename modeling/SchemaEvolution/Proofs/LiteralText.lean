import SchemaEvolution.Proofs.Literal

/-!
Literals and their texts. The rule for constants reads a literal back from its text, and what it
leaves is what stands behind the text; a text on its own is read where a schema holds it.
-/

namespace SchemaEvolution

theorem isNameChar_eq_false_of_isWordChar_eq_false {c : Char} (other : isWordChar c = false) :
    Text.isNameChar c = false :=
  (Bool.or_eq_false_iff.mp other).1

theorem isNumberChar_eq_false_of_isWordChar_eq_false {c : Char} (other : isWordChar c = false) :
    isNumberChar c = false :=
  (Bool.or_eq_false_iff.mp other).2

theorem isDigit_eq_false_of_isWordChar_eq_false {c : Char} (other : isWordChar c = false) :
    c.isDigit = false := by
  cases digit : c.isDigit with
  | false => rfl
  | true =>
      have notNumberChar := isNumberChar_eq_false_of_isWordChar_eq_false other
      rw [isNumberChar_of_isDigit digit] at notNumberChar
      cases notNumberChar

namespace Numeral

variable {whole rest : List Char}

theorem readDigits_append (allDigits : ∀ c ∈ whole, c.isDigit = true)
    (ends : ∀ c ∈ rest.head?, c.isDigit = false) : readDigits (whole ++ rest) = (whole, rest) := by
  simp only [← isDigit_eq] at allDigits ends
  rw [readDigits, takeWhile_append_of_ends allDigits ends, dropWhile_append_of_ends allDigits ends]

theorem readWhole?_append (isWhole : IsWhole whole) (ends : ∀ c ∈ rest.head?, c.isDigit = false) :
    readWhole? (whole ++ rest) = some (whole, rest) := by
  by_cases zero : whole.head? = some '0'
  · rw [isWhole.noZero zero]
    rfl
  · obtain ⟨first, digits, rfl⟩ := List.exists_cons_of_ne_nil isWhole.notEmpty
    unfold readWhole?
    split
    · rename_i others same
      cases same
      exact absurd rfl zero
    · simp only [readDigits_append isWhole.allDigits ends]

theorem readFraction_of_ends (ends : EndsWord rest) : readFraction rest = ([], rest) := by
  unfold readFraction
  split
  · rename_i others
    exact absurd (ends '.' rfl) (by decide)
  · rfl

theorem readExponent_of_ends (ends : EndsWord rest) : readExponent rest = (([], []), rest) := by
  unfold readExponent
  split
  · rename_i mark others
    split
    · rename_i isMark
      rcases isMark with rfl | rfl
      all_goals exact absurd (ends _ rfl) (by decide)
    · rfl
  · rfl

theorem read?_append (negative : Bool) (isWhole : IsWhole whole) (ends : EndsWord rest) :
    read? ((if negative then '-' :: whole else whole) ++ rest) =
      some (⟨negative, whole, [], [], []⟩, rest) := by
  have noDigit : ∀ c ∈ rest.head?, c.isDigit = false :=
    fun c first => isDigit_eq_false_of_isWordChar_eq_false (ends c first)
  have minus : readMinus ((if negative then '-' :: whole else whole) ++ rest) =
      (negative, whole ++ rest) := by
    cases negative with
    | true => rfl
    | false =>
        obtain ⟨first, digits, rfl⟩ := List.exists_cons_of_ne_nil isWhole.notEmpty
        unfold readMinus
        split
        · rename_i others same
          cases same
          exact absurd (isWhole.allDigits '-' List.mem_cons_self) (by decide)
        · rfl
  unfold read?
  rw [minus]
  dsimp only
  rw [readWhole?_append isWhole noDigit]
  dsimp only
  rw [readFraction_of_ends ends]
  dsimp only
  rw [readExponent_of_ends ends]

theorem read?_eq_none {c : Char} (notDigit : c.isDigit = false) (notMinus : c ≠ '-')
    (rest : List Char) : read? (c :: rest) = none := by
  have minus : readMinus (c :: rest) = (false, c :: rest) := by
    unfold readMinus
    split
    · rename_i same
      cases same
      exact absurd rfl notMinus
    · rfl
  have whole : readWhole? (c :: rest) = none := by
    unfold readWhole?
    split
    · rename_i same
      cases same
      cases notDigit
    · rw [← isDigit_eq] at notDigit
      simp [readDigits, notDigit]
  unfold read?
  rw [minus]
  dsimp only
  rw [whole]

end Numeral

namespace Grammar

variable {rest : List Char}

theorem readNumber?_wordText {chars : List Char} (isWord : IsWordText chars)
    (ends : EndsWord rest) :
    readNumber? (chars ++ rest) = some (.int (String.ofList chars), rest) := by
  obtain ⟨negative, whole, rfl, isWhole, sized⟩ := isWord
  have value : numeralValue? ⟨negative, whole, [], [], []⟩ =
      some (.int (String.ofList (if negative then '-' :: whole else whole))) := by
    simp [numeralValue?, Numeral.isInteger, sized]
  have boundary : rest.head?.any Text.isNameStart = false := by
    cases rest with
    | nil => rfl
    | cons c others =>
        have notNameChar := isNameChar_eq_false_of_isWordChar_eq_false (ends c rfl)
        exact (Bool.or_eq_false_iff.mp notNameChar).1
  rw [readNumber?, Numeral.read?_append negative isWhole ends]
  simp [boundary, value]

theorem readNumber?_eq_none {c : Char} (notDigit : c.isDigit = false) (notMinus : c ≠ '-')
    (rest : List Char) : readNumber? (c :: rest) = none := by
  simp [readNumber?, Numeral.read?_eq_none notDigit notMinus]

theorem escape_append_ne_quote (c : Char) (rest behind : List Char) :
    Value.escape c ++ rest ≠ '"' :: behind := by
  intro same
  unfold Value.escape at same
  split_ifs at same with quote
  case neg =>
    obtain ⟨rfl, _⟩ := List.cons.inj same
    exact quote rfl
  all_goals cases same

theorem readString?_of_not_block (notBlock : ∀ behind, rest ≠ '"' :: '"' :: behind) :
    readString? ('"' :: rest) =
      (readQuoted? rest).map fun read => (String.ofList read.1, read.2) := by
  unfold readString?
  dsimp only
  split
  · rename_i found isFound
    split at isFound
    · rename_i behind same
      exact absurd (List.cons.inj same).2 (notBlock behind)
    · cases isFound
  · rfl

theorem readString?_quote (content : List Char) (ends : EndsValue rest) :
    readString? (Value.quote content ++ rest) = some (String.ofList content, rest) := by
  have text : Value.quote content ++ rest = '"' :: (content.flatMap Value.escape ++ '"' :: rest) := by
    simp [Value.quote]
  have notBlock (behind : List Char) :
      content.flatMap Value.escape ++ '"' :: rest ≠ '"' :: '"' :: behind := by
    intro same
    cases content with
    | nil =>
        -- An empty string in front of a quote would open a block.
        obtain ⟨_, isRest⟩ := List.cons.inj same
        exact (ends '"' (isRest ▸ rfl)).2 rfl
    | cons c content =>
        rw [List.flatMap_cons, List.append_assoc] at same
        exact escape_append_ne_quote c _ _ same
  rw [text, readString?_of_not_block notBlock, readQuoted?_escaped]
  rfl

theorem readString?_eq_none {c : Char} (notQuote : c ≠ '"') (rest : List Char) :
    readString? (c :: rest) = none := by
  unfold readString?
  dsimp only
  split
  · rename_i found isFound
    split at isFound
    · rename_i same
      exact absurd (List.cons.inj same).1 notQuote
    · cases isFound
  · split
    · rename_i same
      exact absurd (List.cons.inj same).1 notQuote
    · rfl

theorem append_of_afterWord? {word text behind : List Char}
    (found : afterWord? word text = some behind) : text = word ++ behind := by
  induction word generalizing text with
  | nil =>
      cases text <;> cases found <;> rfl
  | cons expected word ih =>
      cases text with
      | nil => cases found
      | cons c text =>
          unfold afterWord? at found
          split at found
          · rename_i same
            rw [same, ih found]
            rfl
          · cases found

theorem afterWord?_cons_of_ne {expected c : Char} (different : c ≠ expected)
    (word rest : List Char) : afterWord? (expected :: word) (c :: rest) = none :=
  if_neg different

/-- A fixed word is read only where it stands. -/
theorem head?_of_word {expected : String} {text : List Char} (reads : word expected text ≠ none)
    (notEmpty : expected.toList ≠ []) : text.head? = expected.toList.head? := by
  obtain ⟨first, others, isWord⟩ := List.exists_cons_of_ne_nil notEmpty
  rw [isWord]
  refine Classical.byContradiction fun different => reads ?_
  rw [word, isWord]
  cases text with
  | nil => rfl
  | cons c rest =>
      rw [afterWord?_cons_of_ne fun same => different (congrArg some same)]
      rfl

theorem isWordChar_of_fixed {word : List Char} (fixed : word ∈ fixedWords) :
    ∀ c ∈ word, isWordChar c = true := by
  have allWords : (fixedWords.all fun word => word.all isWordChar) = true := by decide
  exact List.all_eq_true.mp (List.all_eq_true.mp allWords word fixed)

theorem afterWord?_eq_none_of_isLiteralName {chars word : List Char} (isName : IsLiteralName chars)
    (fixed : word ∈ fixedWords) (ends : EndsWord rest) : afterWord? word (chars ++ rest) = none := by
  cases found : afterWord? word (chars ++ rest) with
  | none => rfl
  | some behind =>
      have same := append_of_afterWord? found
      rcases List.append_eq_append_iff.mp same with ⟨others, isWord, isRest⟩ | ⟨others, isChars, _⟩
      · cases others with
        | nil =>
            rw [List.append_nil] at isWord
            exact absurd (isWord ▸ List.prefix_refl word) (isName.notFixed word fixed)
        | cons c others =>
            have inWord : c ∈ word := isWord ▸ List.mem_append_right _ List.mem_cons_self
            have notWordChar := ends c (isRest ▸ rfl)
            rw [isWordChar_of_fixed fixed c inWord] at notWordChar
            cases notWordChar
      · exact absurd ⟨others, isChars.symm⟩ (isName.notFixed word fixed)

theorem readName?_append {name : String} (isName : Text.isName name.toList = true)
    (ends : EndsWord rest) : readName? (name.toList ++ rest) = some (name, rest) := by
  have nameChars : ∀ c ∈ name.toList, Text.isNameChar c = true :=
    fun c member => Text.isNameChar_of_mem isName member
  have boundary : ∀ c ∈ rest.head?, Text.isNameChar c = false :=
    fun c first => isNameChar_eq_false_of_isWordChar_eq_false (ends c first)
  have taken := takeWhile_append_of_ends nameChars boundary
  have dropped := dropWhile_append_of_ends nameChars boundary
  have whole : String.ofList name.toList = name := String.ofList_toList
  generalize name.toList = chars at *
  cases chars with
  | nil => cases isName
  | cons first chars =>
      have start := (Bool.and_eq_true_iff.mp isName).1
      rw [List.cons_append] at taken dropped ⊢
      rw [readName?, if_pos start, taken, dropped, whole]

theorem readScalar?_int {text : String} (isWord : IsWordText text.toList) (ends : EndsWord rest) :
    readScalar? (text.toList ++ rest) = some (.int text, rest) := by
  unfold readScalar?
  rw [readNumber?_wordText isWord ends, String.ofList_toList]

theorem readScalar?_string (content : String) (ends : EndsValue rest) :
    readScalar? (Value.quote content.toList ++ rest) = some (.string content, rest) := by
  have noNumber : readNumber? (Value.quote content.toList ++ rest) = none :=
    readNumber?_eq_none (by decide) (by decide) _
  unfold readScalar?
  rw [noNumber, readString?_quote content.toList ends, String.ofList_toList]

def readWord? (text : List Char) : Option (Value × List Char) :=
  match afterWord? ['t', 'r', 'u', 'e'] text with
  | some rest => some (.boolean true, rest)
  | none =>
  match afterWord? ['f', 'a', 'l', 's', 'e'] text with
  | some rest => some (.boolean false, rest)
  | none =>
  match afterWord? ['n', 'u', 'l', 'l'] text with
  | some rest => some (.null, rest)
  | none =>
  match readName? text with
  | some (name, rest) => some (.enum name, rest)
  | none => none

theorem readScalar?_eq_readWord? {c : Char} (notDigit : c.isDigit = false) (notMinus : c ≠ '-')
    (notQuote : c ≠ '"') (rest : List Char) : readScalar? (c :: rest) = readWord? (c :: rest) := by
  unfold readScalar?
  rw [readNumber?_eq_none notDigit notMinus, readString?_eq_none notQuote]
  rfl

theorem readScalar?_boolean (value : Bool) (rest : List Char) :
    readScalar? ((Value.boolean value).chars ++ rest) = some (.boolean value, rest) := by
  cases value with
  | true => exact readScalar?_eq_readWord? (by decide) (by decide) (by decide) _
  | false => exact readScalar?_eq_readWord? (by decide) (by decide) (by decide) _

theorem readScalar?_null (rest : List Char) :
    readScalar? (Value.null.chars ++ rest) = some (.null, rest) :=
  readScalar?_eq_readWord? (by decide) (by decide) (by decide) _

theorem readScalar?_enum {name : String} (isName : IsLiteralName name.toList)
    (ends : EndsWord rest) : readScalar? (name.toList ++ rest) = some (.enum name, rest) := by
  have notFixed {word : List Char} (fixed : word ∈ fixedWords) :
      afterWord? word (name.toList ++ rest) = none :=
    afterWord?_eq_none_of_isLiteralName isName fixed ends
  have isWord : readWord? (name.toList ++ rest) = some (.enum name, rest) := by
    unfold readWord?
    rw [notFixed (by decide), notFixed (by decide), notFixed (by decide),
      readName?_append isName.isName ends]
  have named := isName.isName
  generalize name.toList = chars at *
  cases chars with
  | nil => cases named
  | cons first chars =>
      have start := (Bool.and_eq_true_iff.mp named).1
      have other {c : Char} (notStart : Text.isNameStart c = false) : first ≠ c :=
        ne_of_apply_ne Text.isNameStart (by simp [start, notStart])
      have notDigit : first.isDigit = false := by
        cases digit : first.isDigit with
        | false => rfl
        | true => exact absurd rfl (other (Text.isNameStart_of_isDigit digit))
      exact (readScalar?_eq_readWord? notDigit (other (by decide)) (other (by decide)) _).trans
        isWord

theorem readScalar?_eq_none {c : Char} (notWordChar : isWordChar c = false) (notQuote : c ≠ '"')
    (rest : List Char) : readScalar? (c :: rest) = none := by
  have other {d : Char} (wordChar : isWordChar d = true) : c ≠ d :=
    ne_of_apply_ne isWordChar (by simp [wordChar, notWordChar])
  have notDigit := isDigit_eq_false_of_isWordChar_eq_false notWordChar
  have notStart : Text.isNameStart c = false :=
    (Bool.or_eq_false_iff.mp (isNameChar_eq_false_of_isWordChar_eq_false notWordChar)).1
  have noName : readName? (c :: rest) = none := by rw [readName?, notStart, if_neg (by decide)]
  rw [readScalar?_eq_readWord? notDigit (other (by decide)) notQuote]
  unfold readWord?
  rw [afterWord?_cons_of_ne (other (by decide)), afterWord?_cons_of_ne (other (by decide)),
    afterWord?_cons_of_ne (other (by decide)), noName]

/-! ### Values -/

theorem readValue?_of_readScalar? {text : List Char} {value : Value}
    (found : readScalar? text = some (value, rest)) :
    readValue? text = some (value, skip rest) := by
  unfold readValue?
  rw [found]

def Counts (c : Char) : Prop :=
  isSeparator c = false ∧ c ≠ '#'

theorem skip_cons {c : Char} (counts : Counts c) (rest : List Char) :
    skip (c :: rest) = c :: rest := by
  rw [skip, skipFrom, if_neg Bool.false_ne_true, counts.1, if_neg Bool.false_ne_true,
    if_neg counts.2]

theorem counts_of_isWordChar {c : Char} (wordChar : isWordChar c = true) : Counts c := by
  have other {d : Char} (notWordChar : isWordChar d = false) : c ≠ d :=
    ne_of_apply_ne isWordChar (by simp [wordChar, notWordChar])
  have notBlank : c ≠ ' ' := other (by decide)
  have notComma : c ≠ ',' := other (by decide)
  have notTab : c ≠ '\t' := other (by decide)
  have notMark : c ≠ '\ufeff' := other (by decide)
  have notLine : c ≠ '\n' := other (by decide)
  have notReturn : c ≠ '\r' := other (by decide)
  refine ⟨?_, other (by decide)⟩
  simp [isSeparator, isLineEnd, notBlank, notComma, notTab, notMark, notLine, notReturn]

/-- No literal starts with ignorable text. -/
theorem skip_chars {value : Value} (obeys : value.Obeys Value.literal) (rest : List Char) :
    skip (value.chars ++ rest) = value.chars ++ rest := by
  obtain ⟨c, chars, isChars, opens⟩ :=
    Value.exists_chars_eq_cons (Value.wellFormed_of_literal obeys)
  rw [isChars]
  apply skip_cons
  split at opens
  · rename_i wordChar
    exact counts_of_isWordChar wordChar
  · cases value <;> cases opens <;> exact ⟨rfl, by decide⟩

theorem skip_name {name : String} (isName : Text.isName name.toList = true) (rest : List Char) :
    skip (name.toList ++ rest) = name.toList ++ rest := by
  have wordChars := isWordChar_of_isName isName
  generalize name.toList = chars at *
  cases chars with
  | nil => cases isName
  | cons first chars => exact skip_cons (counts_of_isWordChar (wordChars first List.mem_cons_self)) _

theorem readFieldName?_append {name : String} (isName : Text.isName name.toList = true)
    (rest : List Char) :
    readFieldName? (name.toList ++ ':' :: ' ' :: rest) = some (name, skip rest) := by
  have ends : EndsWord (':' :: ' ' :: rest) := endsWord_cons (by decide) _
  rw [readFieldName?, readName?_append isName ends]
  rfl

/-! ### Lists and objects -/

theorem readValue?_bracket (inside : List Char) :
    readValue? ('[' :: inside) = (afterWord? [']'] (readItems (skip inside)).2).map fun rest =>
      (.list (readItems (skip inside)).1, skip rest) := by
  have noScalar : readScalar? ('[' :: inside) = none :=
    readScalar?_eq_none (by decide) (by decide) inside
  unfold readValue?
  simp only [noScalar]
  generalize readItems (skip inside) = found
  obtain ⟨items, _ | ⟨c, rest⟩⟩ := found
  · rfl
  · by_cases closes : c = ']'
    · subst closes
      rfl
    · rw [afterWord?_cons_of_ne closes]
      split
      · rename_i same
        exact absurd (List.cons.inj (Prod.mk.inj same).2).1 closes
      · rfl

theorem readValue?_brace (inside : List Char) :
    readValue? ('\x7b' :: inside) = (afterWord? ['\x7d'] (readFields (skip inside)).2).map fun rest =>
      (Value.ofFields (readFields (skip inside)).1, skip rest) := by
  have noScalar : readScalar? ('\x7b' :: inside) = none :=
    readScalar?_eq_none (by decide) (by decide) inside
  unfold readValue?
  simp only [noScalar]
  generalize readFields (skip inside) = found
  obtain ⟨fields, _ | ⟨c, rest⟩⟩ := found
  · rfl
  · by_cases closes : c = '\x7d'
    · subst closes
      rfl
    · rw [afterWord?_cons_of_ne closes]
      split
      · rename_i same
        exact absurd (List.cons.inj (Prod.mk.inj same).2).1 closes
      · rfl

/-- Only brackets and braces open a value that is no scalar. -/
theorem readValue?_of_head? {text : List Char}
    (notBracket : text.head? ≠ some '[') (notBrace : text.head? ≠ some '\x7b') :
    readValue? text = (readScalar? text).map fun found => (found.1, skip found.2) := by
  unfold readValue?
  cases readScalar? text with
  | some found => rfl
  | none =>
      dsimp only
      split
      · exact absurd rfl notBracket
      · exact absurd rfl notBrace
      · rfl

theorem readValue?_eq_none {c : Char} (notWordChar : isWordChar c = false) (notQuote : c ≠ '"')
    (notBracket : c ≠ '[') (notBrace : c ≠ '\x7b') (rest : List Char) :
    readValue? (c :: rest) = none := by
  have notList : (c :: rest).head? ≠ some '[' := fun same => notBracket (Option.some.inj same)
  have notObject : (c :: rest).head? ≠ some '\x7b' := fun same => notBrace (Option.some.inj same)
  rw [readValue?_of_head? notList notObject, readScalar?_eq_none notWordChar notQuote]
  rfl

theorem readValue?_list {items : List Value} {inside : List Char}
    (read : readItems (skip inside) = (items, ']' :: rest)) :
    readValue? ('[' :: inside) = some (.list items, skip rest) := by
  rw [readValue?_bracket, read]
  rfl

theorem readValue?_object {fields : List (String × Value)} {inside : List Char}
    (read : readFields (skip inside) = (fields, '\x7d' :: rest)) :
    readValue? ('\x7b' :: inside) = some (Value.ofFields fields, skip rest) := by
  rw [readValue?_brace, read]
  rfl

theorem readItems_cons {text after : List Char} {item : Value} {items : List Value}
    (read : readValue? text = some (item, rest)) (shorter : rest.length < text.length)
    (others : readItems rest = (items, after)) : readItems text = (item :: items, after) := by
  rw [readItems, read]
  dsimp only
  rw [if_pos shorter, others]

theorem readFields_cons {text afterName afterValue after : List Char} {name : String}
    {value : Value} {fields : List (String × Value)}
    (isName : readFieldName? text = some (name, afterName))
    (read : readValue? afterName = some (value, afterValue))
    (nameShorter : afterName.length < text.length)
    (shorter : afterValue.length < text.length)
    (others : readFields afterValue = (fields, after)) :
    readFields text = ((name, value) :: fields, after) := by
  rw [readFields, isName]
  dsimp only
  rw [if_pos nameShorter, read]
  dsimp only
  rw [if_pos shorter, others]

theorem skip_itemsChars {items : List Value} (obey : Value.ItemsObey Value.literal items)
    (rest : List Char) :
    skip (Value.itemsChars items ++ ']' :: rest) = Value.itemsChars items ++ ']' :: rest := by
  cases items with
  | nil => exact skip_cons ⟨rfl, by decide⟩ rest
  | cons item items =>
      rw [Value.itemsChars_cons, List.append_assoc]
      exact skip_chars obey.1 _

theorem skip_fieldsChars {fields : List (String × Value)}
    (named : ∀ name ∈ fields.map Prod.fst, Text.isName name.toList = true) (rest : List Char) :
    skip (Value.fieldsChars fields ++ '\x7d' :: rest) =
      Value.fieldsChars fields ++ '\x7d' :: rest := by
  cases fields with
  | nil => exact skip_cons ⟨rfl, by decide⟩ rest
  | cons field fields =>
      rw [Value.fieldsChars_cons, List.append_assoc]
      exact skip_name (named _ List.mem_cons_self) _

theorem skip_itemsTail {items : List Value} (obey : Value.ItemsObey Value.literal items)
    (rest : List Char) :
    skip (Value.itemsTail items ++ ']' :: rest) = Value.itemsChars items ++ ']' :: rest := by
  cases items with
  | nil => exact skip_cons ⟨rfl, by decide⟩ rest
  | cons item items =>
      have inside := skip_itemsChars obey rest
      rw [Value.itemsChars_cons] at inside ⊢
      exact inside

theorem skip_fieldsTail {fields : List (String × Value)}
    (named : ∀ name ∈ fields.map Prod.fst, Text.isName name.toList = true) (rest : List Char) :
    skip (Value.fieldsTail fields ++ '\x7d' :: rest) =
      Value.fieldsChars fields ++ '\x7d' :: rest := by
  cases fields with
  | nil => exact skip_cons ⟨rfl, by decide⟩ rest
  | cons field fields =>
      have inside := skip_fieldsChars named rest
      rw [Value.fieldsChars_cons] at inside ⊢
      exact inside

mutual

/-- A literal is read back from its text. -/
theorem readValue?_chars {rest : List Char} (ends : EndsValue rest) :
    (value : Value) → value.Obeys Value.literal →
      readValue? (value.chars ++ rest) = some (value, skip rest)
  | .null, _ => readValue?_of_readScalar? (readScalar?_null rest)
  | .boolean value, _ => readValue?_of_readScalar? (readScalar?_boolean value rest)
  | .string content, _ => readValue?_of_readScalar? (readScalar?_string content ends)
  | .int text, isWord => readValue?_of_readScalar? (readScalar?_int isWord ends.endsWord)
  | .float _, isFloat => isFloat.elim
  | .enum name, isName => readValue?_of_readScalar? (readScalar?_enum isName ends.endsWord)
  | .list items, obey => by
      have inside := (skip_itemsChars obey rest).symm ▸ readItems_itemsChars rest items obey
      rw [Value.chars, List.cons_append, List.append_assoc]
      exact readValue?_list inside
  | .object fields, obey => by
      have inside := (skip_fieldsChars obey.1.1 rest).symm ▸
        readFields_fieldsChars rest fields obey.1.1 obey.2
      have isSorted : Value.ofFields fields = .object fields :=
        congrArg Value.object (sortEntries_of_ascend (List.pairwise_map.mp obey.1.2))
      rw [Value.chars, List.cons_append, List.append_assoc]
      exact isSorted ▸ readValue?_object inside

theorem readItems_itemsChars (rest : List Char) :
    (items : List Value) → Value.ItemsObey Value.literal items →
      readItems (Value.itemsChars items ++ ']' :: rest) = (items, ']' :: rest)
  | [], _ => by
      rw [Value.itemsChars, List.nil_append, readItems,
        readValue?_eq_none (by decide) (by decide) (by decide) (by decide)]
  | item :: items, obey => by
      have first := readValue?_chars (Value.endsValue_itemsTail items rest) item obey.1
      have others := readItems_itemsChars rest items obey.2
      have shorter := length_skip_le (Value.itemsTail items ++ ']' :: rest)
      obtain ⟨c, chars, isChars, _⟩ :=
        Value.exists_chars_eq_cons (Value.wellFormed_of_literal obey.1)
      rw [Value.itemsChars_cons, List.append_assoc]
      rw [skip_itemsTail obey.2] at first shorter
      refine readItems_cons first ?_ others
      simp only [isChars, List.length_append, List.length_cons] at shorter ⊢
      omega

theorem readFields_fieldsChars (rest : List Char) :
    (fields : List (String × Value)) →
      (∀ name ∈ fields.map Prod.fst, Text.isName name.toList = true) →
      Value.FieldsObey Value.literal fields →
      readFields (Value.fieldsChars fields ++ '\x7d' :: rest) = (fields, '\x7d' :: rest)
  | [], _, _ => by
      rw [Value.fieldsChars, List.nil_append, readFields]
      rfl
  | (name, value) :: fields, named, obey => by
      obtain ⟨isName, othersNamed⟩ := List.forall_mem_cons.mp named
      have first := readValue?_chars (Value.endsValue_fieldsTail fields rest) value obey.1
      have others := readFields_fieldsChars rest fields othersNamed obey.2
      have shorter := length_skip_le (Value.fieldsTail fields ++ '\x7d' :: rest)
      have behindName := skip_chars obey.1 (Value.fieldsTail fields ++ '\x7d' :: rest)
      have isField := readFieldName?_append isName
        (value.chars ++ (Value.fieldsTail fields ++ '\x7d' :: rest))
      have text : Value.fieldsChars ((name, value) :: fields) ++ '\x7d' :: rest =
          name.toList ++ ':' :: ' ' ::
            (value.chars ++ (Value.fieldsTail fields ++ '\x7d' :: rest)) := by
        simp [Value.fieldsChars_cons]
      rw [skip_fieldsTail othersNamed] at first shorter
      rw [behindName] at isField
      rw [text]
      refine readFields_cons isField first ?_ ?_ others
      all_goals
        simp only [List.length_append, List.length_cons] at shorter ⊢
        omega

end

/-! ### Texts on their own -/

theorem afterTypeRef?_int (rest : List Char) :
    afterTypeRef? ('I' :: 'n' :: 't' :: ' ' :: rest) = some (' ' :: rest) := by
  rw [afterTypeRef?]
  · rfl
  · intro inside same
    cases same

/-- The fields of the schema that holds a text, from behind the default value of the first on. -/
def fieldsBehind (defaultValue? : Option Value) : Rule (List InputFieldOutline) := do
  let directives ← many directive
  let others ← many inputValue
  word "\x7d"
  return { defaultValue?, hasDirectives := !directives.isEmpty } :: others

section Holder

variable {text rest : List Char} {value : Value}

theorem inputFields_holder (text : List Char) :
    inputFields ("\x7b value: Int = ".toList ++ text) =
      ((optional do word "="; constant) >>= fieldsBehind) ("= ".toList ++ text) := by
  have opening : word "\x7b" ("\x7b value: Int = ".toList ++ text) =
      some ((), "value: Int = ".toList ++ text) := rfl
  have noDescription : description ("value: Int = ".toList ++ text) =
      some ((), "value: Int = ".toList ++ text) := rfl
  have isName : name ("value: Int = ".toList ++ text) =
      some ("value", ": Int = ".toList ++ text) := rfl
  have colon : word ":" (": Int = ".toList ++ text) = some ((), "Int = ".toList ++ text) := rfl
  have type : typeRef ("Int = ".toList ++ text) = some ((), "= ".toList ++ text) :=
    congrArg (Option.map fun rest => ((), skip rest)) (afterTypeRef?_int ("= ".toList ++ text))
  rw [inputFields, bind_of_read opening]
  simp only [manyOne, inputValue, bind_assoc, pure_bind]
  rw [bind_of_read noDescription, bind_of_read isName, bind_of_read colon, bind_of_read type]
  rfl

theorem inputFields_of_readValue? (read : readValue? (skip text) = some (value, rest)) :
    inputFields ("\x7b value: Int = ".toList ++ text) = fieldsBehind (some value) rest := by
  have default : (do word "="; constant) ("= ".toList ++ text) = some (value, rest) := read
  rw [inputFields_holder, bind_of_read (optional_of_read default)]

/-- Without a value the mark in front of it is left over. -/
theorem inputFields_of_refused (refused : readValue? (skip text) = none) :
    inputFields ("\x7b value: Int = ".toList ++ text) = none := by
  have noDefault : (do word "="; constant) ("= ".toList ++ text) = none := refused
  have noDirectives : many directive ("= ".toList ++ text) = some ([], "= ".toList ++ text) :=
    many_of_refused rfl
  have noOthers : many inputValue ("= ".toList ++ text) = some ([], "= ".toList ++ text) :=
    many_of_refused rfl
  rw [inputFields_holder, bind_of_read (optional_of_refused noDefault), fieldsBehind,
    bind_of_read noDirectives, bind_of_read noOthers]
  rfl

theorem inputType_of_body {found? : Option (List InputFieldOutline)}
    (body : (optional inputFields) ("\x7b value: Int = ".toList ++ text) = some (found?, rest)) :
    inputType ("input Literal \x7b value: Int = ".toList ++ text) =
      some (.input (found?.getD []), rest) := by
  have isNew : newType "input" ("input Literal \x7b value: Int = ".toList ++ text) =
      some ((), "\x7b value: Int = ".toList ++ text) := rfl
  have noDirectives : many directive ("\x7b value: Int = ".toList ++ text) =
      some ([], "\x7b value: Int = ".toList ++ text) := many_of_refused rfl
  have isPlain : plainType "input" inputFields ("input Literal \x7b value: Int = ".toList ++ text) =
      some (found?, rest) := by
    refine orElse_of_read ?_
    rw [bind_of_read isNew, bind_of_read noDirectives]
    exact body
  rw [inputType, bind_of_read isPlain]
  rfl

/-- No other kind of definition starts like the schema that holds a literal. -/
theorem definition_input (text : List Char) :
    definition ("input Literal \x7b value: Int = ".toList ++ text) =
      (inputType <|> directiveDefinition) ("input Literal \x7b value: Int = ".toList ++ text) := by
  have noSchema : schema ("input Literal \x7b value: Int = ".toList ++ text) = none := rfl
  have noScalar : scalarType ("input Literal \x7b value: Int = ".toList ++ text) = none := rfl
  have noObject : objectType ("input Literal \x7b value: Int = ".toList ++ text) = none := rfl
  have noInterface : interfaceType ("input Literal \x7b value: Int = ".toList ++ text) = none := rfl
  have noUnion : unionType ("input Literal \x7b value: Int = ".toList ++ text) = none := rfl
  have noEnum : enumType ("input Literal \x7b value: Int = ".toList ++ text) = none := rfl
  rw [definition, orElse_of_refused noSchema, orElse_of_refused noScalar,
    orElse_of_refused noObject, orElse_of_refused noInterface, orElse_of_refused noUnion,
    orElse_of_refused noEnum]

theorem outline?_of_body {found? : Option (List InputFieldOutline)} {outline : List Outline}
    (body : (optional inputFields) ("\x7b value: Int = ".toList ++ (text ++ ['\n', '\x7d'])) =
      some (found?, rest)) :
    outline? (Value.holder text) = some outline ↔
      ∃ others, many definition rest = some (others, []) ∧
        outline = .input (found?.getD []) :: others := by
  have isDefinition : definition
      ("input Literal \x7b value: Int = ".toList ++ (text ++ ['\n', '\x7d'])) =
        some (.input (found?.getD []), rest) :=
    (definition_input _).trans (orElse_of_read (inputType_of_body body))
  have same : Value.holder text =
      "input Literal \x7b value: Int = ".toList ++ (text ++ ['\n', '\x7d']) :=
    List.append_assoc _ _ _
  have start : skip ("input Literal \x7b value: Int = ".toList ++ (text ++ ['\n', '\x7d'])) =
      "input Literal \x7b value: Int = ".toList ++ (text ++ ['\n', '\x7d']) := rfl
  rw [outline?, same, start, manyOne, bind_of_read isDefinition]
  cases read : many definition rest with
  | none =>
      rw [bind_of_refused read]
      simp
  | some found =>
      obtain ⟨others, behind⟩ := found
      rw [bind_of_read read]
      cases behind with
      | nil =>
          change some (_ :: others) = some outline ↔ _
          simp [eq_comm]
      | cons c behind =>
          change none = some outline ↔ _
          simp

def documentBehind (value : Value) : Rule (List Outline) := do
  let fields ← fieldsBehind (some value)
  let others ← many definition
  return .input fields :: others

theorem outline?_of_refused {outline : List Outline}
    (refused : inputFields ("\x7b value: Int = ".toList ++ (text ++ ['\n', '\x7d'])) = none) :
    outline? (Value.holder text) ≠ some outline := by
  have noDefinition : many definition ("\x7b value: Int = ".toList ++ (text ++ ['\n', '\x7d'])) =
      some ([], "\x7b value: Int = ".toList ++ (text ++ ['\n', '\x7d'])) := many_of_refused rfl
  rw [Ne, outline?_of_body (optional_of_refused refused), noDefinition]
  rintro ⟨others, same, -⟩
  cases same

/-- The outline of a schema that holds a text starts with the value at the start of the text. -/
theorem outline?_holder_eq_some_iff {outline : List Outline} :
    outline? (Value.holder text) = some outline ↔
      ∃ value rest, readValue? (skip (text ++ ['\n', '\x7d'])) = some (value, rest) ∧
        documentBehind value rest = some (outline, []) := by
  cases read : readValue? (skip (text ++ ['\n', '\x7d'])) with
  | none => simp [outline?_of_refused (inputFields_of_refused read)]
  | some found =>
      obtain ⟨value, rest⟩ := found
      have body := inputFields_of_readValue? read
      cases isFields : fieldsBehind (some value) rest with
      | none =>
          have refused : documentBehind value rest = none := bind_of_refused isFields
          rw [isFields] at body
          simp [outline?_of_refused body, refused]
      | some found =>
          obtain ⟨fields, behind⟩ := found
          rw [isFields] at body
          rw [outline?_of_body (optional_of_read body)]
          constructor
          · rintro ⟨others, readOthers, rfl⟩
            refine ⟨value, rest, rfl, ?_⟩
            rw [documentBehind, bind_of_read isFields, bind_of_read readOthers]
            rfl
          · rintro ⟨_, _, same, isDocument⟩
            cases same
            rw [documentBehind, bind_of_read isFields] at isDocument
            obtain ⟨others, _, readOthers, same⟩ := bind_eq_some_iff.mp isDocument
            cases same
            exact ⟨others, readOthers, rfl⟩

/-- The document holds one definition of one field when directives alone stand behind its value. -/
theorem documentBehind_eq_single_iff {field : InputFieldOutline} :
    documentBehind value rest = some ([.input [field]], []) ↔
      ∃ directives behind, many directive rest = some (directives, behind) ∧
        word "\x7d" behind = some ((), []) ∧
        field = { defaultValue? := some value, hasDirectives := !directives.isEmpty } := by
  constructor
  · intro isDocument
    obtain ⟨fields, afterFields, readFields, readRest⟩ := bind_eq_some_iff.mp isDocument
    obtain ⟨others, afterOthers, readOthers, same⟩ := bind_eq_some_iff.mp readRest
    cases same
    cases eq_of_many_nil readOthers
    obtain ⟨directives, behind, readDirectives, readRest⟩ := bind_eq_some_iff.mp readFields
    obtain ⟨others, afterOthers, noOthers, readRest⟩ := bind_eq_some_iff.mp readRest
    obtain ⟨_, afterBrace, closing, same⟩ := bind_eq_some_iff.mp readRest
    cases same
    cases eq_of_many_nil noOthers
    exact ⟨directives, behind, readDirectives, closing, rfl⟩
  · rintro ⟨directives, behind, readDirectives, closing, rfl⟩
    have closes : word "\x7d" behind ≠ none := closing ▸ Option.some_ne_none _
    have stands : behind.head? = some '\x7d' := head?_of_word closes (by decide)
    obtain ⟨others, rfl⟩ := List.head?_eq_some_iff.mp stands
    have noOthers : many inputValue ('\x7d' :: others) = some ([], '\x7d' :: others) :=
      many_of_refused rfl
    have noDefinition : many definition [] = some ([], []) := many_of_refused rfl
    have fields : fieldsBehind (some value) rest =
        some ([{ defaultValue? := some value, hasDirectives := !directives.isEmpty }], []) := by
      rw [fieldsBehind, bind_of_read readDirectives, bind_of_read noOthers, bind_of_read closing]
      rfl
    rw [documentBehind, bind_of_read fields, bind_of_read noDefinition]
    rfl

end Holder

end Grammar

/-- A literal is read back from its text on its own. -/
theorem Value.parse_text {value : Value} (obeys : value.Obeys literal) :
    parse value.text = .ok value := by
  have ends : EndsValue ['\n', '\x7d'] := endsValue_cons (by decide) (by decide) _
  have read := Grammar.readValue?_chars ends value obeys
  rw [← Grammar.skip_chars obeys] at read
  have bare : Grammar.documentBehind value ['\x7d'] = some ([.input [⟨some value, false⟩]], []) :=
    Grammar.documentBehind_eq_single_iff.mpr ⟨[], ['\x7d'], Grammar.many_of_refused rfl, rfl, rfl⟩
  have isOutline := Grammar.outline?_holder_eq_some_iff.mpr ⟨value, ['\x7d'], read, bare⟩
  rw [parse, text, String.toList_ofList, isOutline]
  rfl

end SchemaEvolution
