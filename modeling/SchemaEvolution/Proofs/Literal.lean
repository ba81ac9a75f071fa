import SchemaEvolution.Proofs.Grammar
import SchemaEvolution.Proofs.NameMap
import SchemaEvolution.Proofs.ValueText

/-!
Literals: what the rule for constants yields, numbers with a fraction or exponent aside. Their text
is read back as it stands, wherever a value may stand, and so is the text on its own.
-/

namespace SchemaEvolution

namespace Grammar

theorem isName_of_readFieldName? {text rest : List Char} {name : String}
    (found : readFieldName? text = some (name, rest)) : Text.isName name.toList = true := by
  obtain ⟨⟨read, afterName⟩, isName, behind⟩ := Option.bind_eq_some_iff.mp found
  obtain ⟨_, _, same⟩ := Option.bind_eq_some_iff.mp behind
  cases same
  obtain ⟨chars, rfl, named, _⟩ := exists_chars_of_readName? isName
  rwa [String.toList_ofList]

/-- What holds of scalars, and of lists and objects if it holds of all in them. -/
structure HoldsThroughout (holds : Value → Prop) : Prop where
  scalar : ∀ text value rest, readScalar? text = some (value, rest) → holds value
  list : ∀ items, (∀ item ∈ items, holds item) → holds (.list items)
  object : ∀ fields : List (String × Value),
    (∀ field ∈ fields, Text.isName field.1.toList = true ∧ holds field.2) → holds (.ofFields fields)

namespace HoldsThroughout

variable {holds : Value → Prop}

def ItemsHold (holds : Value → Prop) (text : List Char) : Prop :=
  ∀ item ∈ (readItems text).1, holds item

def FieldsHold (holds : Value → Prop) (text : List Char) : Prop :=
  ∀ field ∈ (readFields text).1, Text.isName field.1.toList = true ∧ holds field.2

theorem of_shorter (throughout : HoldsThroughout holds) {text rest : List Char} {value : Value}
    (items : ∀ inside, inside.length < text.length → ItemsHold holds inside)
    (fields : ∀ inside, inside.length < text.length → FieldsHold holds inside)
    (found : readValue? text = some (value, rest)) : holds value := by
  unfold readValue? at found
  split at found
  · rename_i isScalar
    cases found
    exact throughout.scalar _ _ _ isScalar
  · split at found
    · rename_i inside _
      have shorter := Nat.lt_succ_of_le (length_skip_le inside)
      split at found
      · rename_i inItems behind read
        cases found
        have isHeld := items (skip inside) shorter
        rw [ItemsHold, read] at isHeld
        exact throughout.list inItems isHeld
      · cases found
    · rename_i inside _
      have shorter := Nat.lt_succ_of_le (length_skip_le inside)
      split at found
      · rename_i inFields behind read
        cases found
        have isHeld := fields (skip inside) shorter
        rw [FieldsHold, read] at isHeld
        exact throughout.object inFields isHeld
      · cases found
    · cases found

theorem of_size (throughout : HoldsThroughout holds) (size : Nat) :
    ∀ text, text.length < size → ItemsHold holds text ∧ FieldsHold holds text := by
  induction size with
  | zero => exact fun _ small => absurd small (Nat.not_lt_zero _)
  | succ size ih =>
      intro text small
      have value {part rest : List Char} {value : Value} (within : part.length ≤ text.length)
          (found : readValue? part = some (value, rest)) : holds value :=
        throughout.of_shorter (fun inside shorter => (ih inside (by omega)).1)
          (fun inside shorter => (ih inside (by omega)).2) found
      constructor
      · rw [ItemsHold, readItems]
        split
        · rename_i first rest found
          split
          · rename_i shorter
            exact List.forall_mem_cons.mpr ⟨value (Nat.le_refl _) found, (ih rest (by omega)).1⟩
          · exact fun item member => absurd member List.not_mem_nil
        · exact fun item member => absurd member List.not_mem_nil
      · have none : ∀ field ∈ ([] : List (String × Value)),
            Text.isName field.1.toList = true ∧ holds field.2 :=
          fun field member => absurd member List.not_mem_nil
        rw [FieldsHold, readFields]
        split
        · rename_i name rest isField
          split
          · rename_i shorter
            split
            · rename_i first afterValue found
              split
              · have isName := isName_of_readFieldName? isField
                exact List.forall_mem_cons.mpr
                  ⟨⟨isName, value (Nat.le_of_lt shorter) found⟩, (ih afterValue (by omega)).2⟩
              · exact none
            · exact none
          · exact none
        · exact none

theorem of_readValue? (throughout : HoldsThroughout holds) {text rest : List Char} {value : Value}
    (found : readValue? text = some (value, rest)) : holds value :=
  throughout.of_shorter (fun inside shorter => (throughout.of_size text.length inside shorter).1)
    (fun inside shorter => (throughout.of_size text.length inside shorter).2) found

end HoldsThroughout

end Grammar

structure IsWhole (digits : List Char) : Prop where
  notEmpty : digits ≠ []
  allDigits : ∀ c ∈ digits, c.isDigit = true
  noZero : digits.head? = some '0' → digits = ['0']

/-- An integer that is held as one: a whole number in the range of words, perhaps behind a minus. -/
def IsWordText (chars : List Char) : Prop :=
  ∃ negative whole, chars = (if negative then '-' :: whole else whole) ∧ IsWhole whole ∧
    Grammar.isWordSized negative (digitsValue whole) = true

def fixedWords : List (List Char) :=
  [['t', 'r', 'u', 'e'], ['f', 'a', 'l', 's', 'e'], ['n', 'u', 'l', 'l']]

structure IsLiteralName (chars : List Char) : Prop where
  isName : Text.isName chars = true
  notFixed : ∀ word ∈ fixedWords, ¬ word <+: chars

namespace Value

/-- What is known of all values that are read. -/
def readable : Rules where
  int := IsWordText
  float _ := True
  enum := IsLiteralName
  names names := (∀ name ∈ names, Text.isName name.toList = true) ∧ names.Pairwise (· < ·)

def floatless : Rules where
  int _ := True
  float _ := False
  enum _ := True
  names _ := True

def literal : Rules :=
  { readable with float := fun _ => False }

theorem obeys_literal {value : Value} (isRead : value.Obeys readable)
    (noFloat : value.Obeys floatless) : value.Obeys literal := by
  have imply : readable.Imply floatless literal :=
    ⟨fun _ word _ => word, fun _ _ float => float, fun _ name _ => name, fun _ names _ => names⟩
  exact Obeys.of_both imply value isRead noFloat

theorem wellFormed_of_literal {value : Value} (obeys : value.Obeys literal) :
    value.Obeys wellFormed := by
  have int (text : List Char) (isWord : IsWordText text) : IsIntText text := by
    obtain ⟨negative, whole, same, isWhole, _⟩ := isWord
    cases negative with
    | true => exact ⟨['-'], whole, same, Or.inr (Or.inl rfl), isWhole.notEmpty, isWhole.allDigits⟩
    | false => exact ⟨[], whole, same, Or.inl rfl, isWhole.notEmpty, isWhole.allDigits⟩
  have enum (text : List Char) (name : IsLiteralName text) : IsEnumText text := by
    have other {word : List Char} (fixed : word ∈ fixedWords) : text ≠ word := by
      rintro rfl
      exact name.notFixed _ fixed (List.prefix_refl _)
    exact ⟨name.isName, other (by decide), other (by decide), other (by decide)⟩
  have imply : literal.Imply literal wellFormed :=
    ⟨fun text isWord _ => int text isWord, fun _ float _ => float.elim,
      fun text name _ => enum text name, fun _ names _ => names.1⟩
  exact Obeys.of_both imply value obeys obeys

end Value

namespace Numeral

theorem isWhole_of_readWhole? {text whole rest : List Char}
    (found : readWhole? text = some (whole, rest)) : IsWhole whole := by
  have allDigits := isDigit_of_mem_readWhole? found
  unfold readWhole? at found
  split at found
  · cases found
    exact ⟨by decide, allDigits, fun _ => rfl⟩
  · rename_i unsigned notZero
    split at found
    · cases found
    · rename_i notEmpty
      have read := Option.some.inj found
      refine ⟨fun empty => ?_, allDigits, fun zero => ?_⟩
      · rw [read, empty] at notEmpty
        exact notEmpty rest rfl
      · have isTaken : text.takeWhile isDigit = whole := congrArg Prod.fst read
        cases text with
        | nil =>
            subst isTaken
            cases zero
        | cons first others =>
            rw [← isTaken, List.takeWhile_cons] at zero
            split at zero
            · cases zero
              exact (notZero others rfl).elim
            · cases zero

end Numeral

namespace Grammar

theorem obeys_readable_of_numeralValue? {text rest : List Char} {numeral : Numeral} {value : Value}
    (found : Numeral.read? text = some (numeral, rest))
    (isValue : numeralValue? numeral = some value) : value.Obeys Value.readable := by
  unfold numeralValue? at isValue
  split at isValue
  · rename_i isInteger
    cases isValue
    obtain ⟨_, _, wholeFound⟩ := Numeral.exists_readWhole?_of_read? found
    have isWhole := Numeral.isWhole_of_readWhole? wholeFound
    have isWord : IsWordText (if numeral.negative then '-' :: numeral.whole else numeral.whole) :=
      ⟨numeral.negative, numeral.whole, rfl, isWhole, (Bool.and_eq_true_iff.mp isInteger).2⟩
    rw [Value.Obeys, String.toList_ofList]
    exact isWord
  · obtain ⟨size, _, rfl⟩ := Option.map_eq_some_iff.mp isValue
    trivial

theorem isLiteralName_of_not_fixed {chars rest : List Char} (isName : Text.isName chars = true)
    (notFixed : ∀ word ∈ fixedWords, afterWord? word (chars ++ rest) = none) :
    IsLiteralName chars := by
  refine ⟨isName, ?_⟩
  rintro word fixed ⟨behind, rfl⟩
  have notRead := notFixed word fixed
  rw [List.append_assoc, afterWord?_append] at notRead
  cases notRead

theorem obeys_readable_of_readScalar? {text rest : List Char} {value : Value}
    (found : readScalar? text = some (value, rest)) : value.Obeys Value.readable := by
  unfold readScalar? at found
  split at found
  · rename_i isNumber
    cases found
    obtain ⟨⟨numeral, afterNumeral⟩, isRead, behind⟩ := Option.bind_eq_some_iff.mp isNumber
    obtain ⟨_, _, behindGuard⟩ := Option.bind_eq_some_iff.mp behind
    obtain ⟨number, isValue, isResult⟩ := Option.bind_eq_some_iff.mp behindGuard
    cases isResult
    exact obeys_readable_of_numeralValue? isRead isValue
  split at found
  · cases found
    trivial
  split at found
  · cases found
    trivial
  rename_i notTrue
  split at found
  · cases found
    trivial
  rename_i notFalse
  split at found
  · cases found
    trivial
  rename_i notNull
  split at found
  · rename_i isName
    cases found
    obtain ⟨chars, rfl, named, rfl⟩ := exists_chars_of_readName? isName
    have isLiteral : IsLiteralName chars := isLiteralName_of_not_fixed named
      (List.forall_mem_cons.mpr ⟨notTrue, List.forall_mem_cons.mpr
        ⟨notFalse, List.forall_mem_singleton.mpr notNull⟩⟩)
    rw [Value.Obeys, String.toList_ofList]
    exact isLiteral
  · cases found

theorem holdsThroughout_readable : HoldsThroughout fun value => value.Obeys Value.readable where
  scalar _ _ _ := obeys_readable_of_readScalar?
  list items isHeld := (Value.itemsObey_iff Value.readable items).mpr isHeld
  object fields isHeld := by
    have inFields {field : String × Value} (member : field ∈ sortEntries fields) :=
      isHeld field (mem_of_mem_sortEntries member)
    refine ⟨⟨?_, List.pairwise_map.mpr (entriesAscend_sortEntries fields)⟩, ?_⟩
    · intro name member
      obtain ⟨field, isField, rfl⟩ := List.mem_map.mp member
      exact (inFields isField).1
    · exact (Value.fieldsObey_iff _ _).mpr fun field member => (inFields member).2

end Grammar

theorem Value.obeys_readable_of_parse {input : String} {value : Value}
    (read : parse input = .ok value) : value.Obeys readable := by
  obtain ⟨_, _, isRead⟩ := isConstant_of_parse read
  exact Grammar.holdsThroughout_readable.of_readValue? isRead

end SchemaEvolution
