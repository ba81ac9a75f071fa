import Mathlib.Tactic.IntervalCases
import SchemaEvolution.Proofs.JsonText
import SchemaEvolution.Proofs.Value

/-!
The text of a value determines the value, as long as the numbers and names in it are such as schemas
write. Numbers and names consist of the characters of words, and what follows a value in a text
never goes on with one of these, so each part of a text tells where it ends.
-/

namespace SchemaEvolution

theorem Text.hexValue?_upperHexDigit {value : Nat} (small : value < 16) :
    hexValue? (upperHexDigit value) = some value := by
  interval_cases value <;> rfl

namespace Grammar

section Quoted

variable {rest content after : List Char}

theorem readQuoted?_letter {letter c : Char} (isLetter : unescape? letter = some c)
    (read : readQuoted? rest = some (content, after)) :
    readQuoted? ('\\' :: letter :: rest) = some (c :: content, after) := by
  rw [readQuoted?]
  · simp [isLetter, read]
  · rintro _ _ _ _ _ rfl
    cases isLetter

theorem readQuoted?_escape (c : Char) (read : readQuoted? rest = some (content, after)) :
    readQuoted? (Value.escape c ++ rest) = some (c :: content, after) := by
  unfold Value.escape
  split_ifs with quote backslash line carriage tab control
  · subst quote
    exact readQuoted?_letter rfl read
  · subst backslash
    exact readQuoted?_letter rfl read
  · subst line
    exact readQuoted?_letter rfl read
  · subst carriage
    exact readQuoted?_letter rfl read
  · subst tab
    exact readQuoted?_letter rfl read
  · have small : c.toNat < 160 := by
      simp only [Text.isControl, Bool.or_eq_true, Bool.and_eq_true, decide_eq_true_eq] at control
      omega
    have code : Text.hexQuad? _ _ _ _ = some c.toNat :=
      Text.hexQuad?_digits Text.hexValue?_upperHexDigit (Nat.lt_trans small (by decide))
    have notSurrogate : c.toNat < 55296 := by omega
    rw [Text.hexDigits_four]
    simp [readQuoted?, hexCharacter?, code, notSurrogate, read]
  · have notLineEnd : isLineEnd c = false := by simp [isLineEnd, line, carriage]
    rw [List.singleton_append, readQuoted?]
    · simp [backslash, notLineEnd, read]
    · exact fun same => absurd same quote
    · rintro _ _ _ _ _ rfl
      exact absurd rfl backslash
    · rintro _ _ rfl
      exact absurd rfl backslash

end Quoted

theorem readQuoted?_escaped (content rest : List Char) :
    readQuoted? (content.flatMap Value.escape ++ '"' :: rest) = some (content, rest) := by
  induction content with
  | nil => rfl
  | cons c content ih =>
      rw [List.flatMap_cons, List.append_assoc]
      exact readQuoted?_escape c ih

end Grammar

theorem Value.quote_append_inj {left right leftRest rightRest : List Char}
    (same : quote left ++ leftRest = quote right ++ rightRest) :
    left = right ∧ leftRest = rightRest := by
  simp only [quote, List.cons_append, List.append_assoc, List.nil_append, List.cons.injEq,
    true_and] at same
  have read := congrArg Grammar.readQuoted? same
  rw [Grammar.readQuoted?_escaped, Grammar.readQuoted?_escaped] at read
  simpa using read

def isWordChar (c : Char) : Bool :=
  Text.isNameChar c || isNumberChar c

def EndsWord (rest : List Char) : Prop :=
  ∀ c ∈ rest.head?, isWordChar c = false

theorem endsWord_nil : EndsWord [] :=
  fun _ member => absurd member (Option.not_mem_none _)

theorem endsWord_cons {c : Char} (other : isWordChar c = false) (rest : List Char) :
    EndsWord (c :: rest) := by
  intro first isFirst
  cases isFirst
  exact other

def EndsValue (rest : List Char) : Prop :=
  ∀ c ∈ rest.head?, isWordChar c = false ∧ c ≠ '"'

theorem EndsValue.endsWord {rest : List Char} (ends : EndsValue rest) : EndsWord rest :=
  fun c first => (ends c first).1

theorem endsValue_cons {c : Char} (notWordChar : isWordChar c = false) (notQuote : c ≠ '"')
    (rest : List Char) : EndsValue (c :: rest) := by
  intro first isFirst
  cases isFirst
  exact ⟨notWordChar, notQuote⟩

/-- A word tells where it ends. -/
theorem word_append_inj {left right leftRest rightRest : List Char}
    (leftWord : ∀ c ∈ left, isWordChar c = true) (rightWord : ∀ c ∈ right, isWordChar c = true)
    (leftEnds : EndsWord leftRest) (rightEnds : EndsWord rightRest)
    (same : left ++ leftRest = right ++ rightRest) : left = right ∧ leftRest = rightRest := by
  have words : left = right := by
    rw [← takeWhile_append_of_ends leftWord leftEnds, same,
      takeWhile_append_of_ends rightWord rightEnds]
  subst words
  exact ⟨rfl, List.append_cancel_left same⟩

theorem isWordChar_of_isName {chars : List Char} (isName : Text.isName chars = true) :
    ∀ c ∈ chars, isWordChar c = true := by
  intro c member
  simp [isWordChar, Text.isNameChar_of_mem isName member]

/-! ### Values of a sort -/

def IsIntText (chars : List Char) : Prop :=
  ∃ sign digits, chars = sign ++ digits ∧ IsSign sign ∧ digits ≠ [] ∧
    ∀ c ∈ digits, c.isDigit = true

structure IsEnumText (chars : List Char) : Prop where
  isName : Text.isName chars = true
  notNull : chars ≠ ['n', 'u', 'l', 'l']
  notTrue : chars ≠ ['t', 'r', 'u', 'e']
  notFalse : chars ≠ ['f', 'a', 'l', 's', 'e']

namespace Value

/-- What is asked of the texts in a value, and of the names of each object's fields. -/
structure Rules where
  int : List Char → Prop
  float : List Char → Prop
  enum : List Char → Prop
  names : List String → Prop

mutual

def Obeys (rules : Rules) : Value → Prop
  | null | boolean _ | string _ => True
  | int text => rules.int text.toList
  | float text => rules.float text.toList
  | enum name => rules.enum name.toList
  | list items => ItemsObey rules items
  | object fields => rules.names (fields.map Prod.fst) ∧ FieldsObey rules fields

def ItemsObey (rules : Rules) : List Value → Prop
  | [] => True
  | item :: rest => item.Obeys rules ∧ ItemsObey rules rest

def FieldsObey (rules : Rules) : List (String × Value) → Prop
  | [] => True
  | (_, value) :: rest => value.Obeys rules ∧ FieldsObey rules rest

end

theorem itemsObey_iff (rules : Rules) (items : List Value) :
    ItemsObey rules items ↔ ∀ item ∈ items, item.Obeys rules := by
  induction items with
  | nil => simp [ItemsObey]
  | cons item rest ih => rw [ItemsObey, ih, List.forall_mem_cons]

theorem fieldsObey_iff (rules : Rules) (fields : List (String × Value)) :
    FieldsObey rules fields ↔ ∀ field ∈ fields, field.2.Obeys rules := by
  induction fields with
  | nil => simp [FieldsObey]
  | cons field rest ih =>
      obtain ⟨name, value⟩ := field
      rw [FieldsObey, ih, List.forall_mem_cons]

structure Rules.Imply (rules others target : Rules) : Prop where
  int : ∀ text, rules.int text → others.int text → target.int text
  float : ∀ text, rules.float text → others.float text → target.float text
  enum : ∀ text, rules.enum text → others.enum text → target.enum text
  names : ∀ names, rules.names names → others.names names → target.names names

mutual

theorem Obeys.of_both {rules others target : Rules} (imply : rules.Imply others target) :
    (value : Value) → value.Obeys rules → value.Obeys others → value.Obeys target
  | null, _, _ | boolean _, _, _ | string _, _, _ => trivial
  | int text, first, second => imply.int text.toList first second
  | float text, first, second => imply.float text.toList first second
  | enum name, first, second => imply.enum name.toList first second
  | list items, first, second => ItemsObey.of_both imply items first second
  | object fields, first, second =>
      ⟨imply.names _ first.1 second.1, FieldsObey.of_both imply fields first.2 second.2⟩

theorem ItemsObey.of_both {rules others target : Rules} (imply : rules.Imply others target) :
    (items : List Value) → ItemsObey rules items → ItemsObey others items → ItemsObey target items
  | [], _, _ => trivial
  | item :: rest, first, second =>
      ⟨Obeys.of_both imply item first.1 second.1, ItemsObey.of_both imply rest first.2 second.2⟩

theorem FieldsObey.of_both {rules others target : Rules} (imply : rules.Imply others target) :
    (fields : List (String × Value)) → FieldsObey rules fields → FieldsObey others fields →
      FieldsObey target fields
  | [], _, _ => trivial
  | (_, value) :: rest, first, second =>
      ⟨Obeys.of_both imply value first.1 second.1, FieldsObey.of_both imply rest first.2 second.2⟩

end

def wellFormed : Rules where
  int := IsIntText
  float := IsFloatText
  enum := IsEnumText
  names names := ∀ name ∈ names, Text.isName name.toList = true

theorem showsKind_of_wellFormed {value : Value} (obeys : value.Obeys wellFormed) :
    value.ShowsKind := by
  cases value with
  | null => exact showsKind_null
  | boolean value => exact showsKind_boolean value
  | string content => exact showsKind_string content
  | list items => exact showsKind_list items
  | object fields => exact showsKind_object fields
  | int text =>
      obtain ⟨sign, digits, same, isSign, _, allDigits⟩ := obeys
      have shows := showsKind_int isSign allDigits
      rwa [← same, String.ofList_toList] at shows
  | float text =>
      have isFloat : IsFloatText text.toList := obeys
      have shows := showsKind_float isFloat
      rwa [String.ofList_toList] at shows
  | enum name =>
      have isEnum : IsEnumText name.toList := obeys
      have shows := Grammar.showsKind_enum isEnum.isName isEnum.notNull isEnum.notTrue
        isEnum.notFalse
      rwa [String.ofList_toList] at shows

def opener? : Value → Option Char
  | string _ => some '"'
  | list _ => some '['
  | object _ => some '\x7b'
  | null | boolean _ | int _ | float _ | enum _ => none

theorem word_of_opener?_eq_none {value : Value} (obeys : value.Obeys wellFormed)
    (isWord : value.opener? = none) :
    value.chars ≠ [] ∧ ∀ c ∈ value.chars, isWordChar c = true := by
  cases value with
  | string | list | object => cases isWord
  | null => exact ⟨by decide, List.all_eq_true.mp (by decide)⟩
  | boolean value => cases value <;> exact ⟨by decide, List.all_eq_true.mp (by decide)⟩
  | int text =>
      obtain ⟨sign, digits, same, isSign, someDigits, allDigits⟩ := obeys
      rw [chars, same]
      refine ⟨by simp [someDigits], List.forall_mem_append.mpr ⟨?_, ?_⟩⟩
      · rcases isSign with rfl | rfl | rfl <;> exact List.all_eq_true.mp (by decide)
      · exact fun c member => by simp [isWordChar, isNumberChar, allDigits c member]
  | float text =>
      have isFloat : IsFloatText text.toList := obeys
      refine ⟨?_, fun c member => by simp [isWordChar, isFloat.number c member]⟩
      obtain ⟨mark, member, _⟩ := isFloat.marked
      exact List.ne_nil_of_mem member
  | enum name =>
      have isEnum : IsEnumText name.toList := obeys
      refine ⟨?_, isWordChar_of_isName isEnum.isName⟩
      intro none
      have isName : Text.isName [] = true := none ▸ isEnum.isName
      cases isName

/-- The first character tells what the value opens with. -/
theorem exists_chars_eq_cons {value : Value} (obeys : value.Obeys wellFormed) :
    ∃ c rest, value.chars = c :: rest ∧
      value.opener? = if isWordChar c then none else some c := by
  cases opens : value.opener? with
  | none =>
      obtain ⟨notEmpty, isWord⟩ := word_of_opener?_eq_none obeys opens
      obtain ⟨c, rest, same⟩ := List.exists_cons_of_ne_nil notEmpty
      exact ⟨c, rest, same, by rw [if_pos (isWord c (same ▸ List.mem_cons_self))]⟩
  | some mark =>
      cases value with
      | string | list | object =>
          cases opens
          exact ⟨_, _, rfl, rfl⟩
      | null | boolean | int | float | enum => cases opens

section Beginnings

variable {left right : Value} {leftRest rightRest : List Char}

theorem opener?_eq (leftObeys : left.Obeys wellFormed) (rightObeys : right.Obeys wellFormed)
    (same : left.chars ++ leftRest = right.chars ++ rightRest) : left.opener? = right.opener? := by
  obtain ⟨c, chars, leftChars, leftOpens⟩ := exists_chars_eq_cons leftObeys
  obtain ⟨d, others, rightChars, rightOpens⟩ := exists_chars_eq_cons rightObeys
  rw [leftChars, rightChars] at same
  obtain ⟨rfl, _⟩ := List.cons.inj same
  rw [leftOpens, rightOpens]

theorem word_chars_append_inj (leftObeys : left.Obeys wellFormed)
    (rightObeys : right.Obeys wellFormed) (isWord : left.opener? = none)
    (leftEnds : EndsWord leftRest) (rightEnds : EndsWord rightRest)
    (same : left.chars ++ leftRest = right.chars ++ rightRest) :
    left = right ∧ leftRest = rightRest := by
  have rightIsWord : right.opener? = none := opener?_eq leftObeys rightObeys same ▸ isWord
  obtain ⟨chars, behind⟩ := word_append_inj (word_of_opener?_eq_none leftObeys isWord).2
    (word_of_opener?_eq_none rightObeys rightIsWord).2 leftEnds rightEnds same
  have kind : left.kind = right.kind :=
    (showsKind_of_wellFormed leftObeys).kind_eq (showsKind_of_wellFormed rightObeys)
      (congrArg String.ofList chars)
  refine ⟨?_, behind⟩
  cases left <;> cases right <;> cases kind
  case null.null.refl => rfl
  case boolean.boolean.refl leftValue rightValue =>
    cases leftValue <;> cases rightValue
    all_goals first | rfl | cases chars
  case int.int.refl => exact congrArg int (String.toList_inj.mp chars)
  case float.float.refl => exact congrArg float (String.toList_inj.mp chars)
  case enum.enum.refl => exact congrArg enum (String.toList_inj.mp chars)
  all_goals cases isWord

end Beginnings

/-- No value opens with a bracket that closes a list. -/
theorem chars_append_ne_bracket {value : Value} (obeys : value.Obeys wellFormed)
    (rest behind : List Char) : value.chars ++ rest ≠ ']' :: behind := by
  intro same
  obtain ⟨c, chars, isChars, opens⟩ := exists_chars_eq_cons obeys
  rw [isChars] at same
  obtain ⟨rfl, _⟩ := List.cons.inj same
  cases value <;> cases opens

theorem name_append_ne_brace {name : String} (isName : Text.isName name.toList = true)
    (rest behind : List Char) : name.toList ++ rest ≠ '\x7d' :: behind := by
  intro same
  generalize name.toList = chars at isName same
  cases chars with
  | nil => cases isName
  | cons c chars =>
      obtain ⟨rfl, _⟩ := List.cons.inj same
      cases isName

def itemsTail : List Value → List Char
  | [] => []
  | item :: rest => ',' :: ' ' :: (item.chars ++ itemsTail rest)

def fieldsTail : List (String × Value) → List Char
  | [] => []
  | (name, value) :: rest =>
      ',' :: ' ' :: (name.toList ++ ':' :: ' ' :: (value.chars ++ fieldsTail rest))

theorem itemsChars_cons (item : Value) (rest : List Value) :
    itemsChars (item :: rest) = item.chars ++ itemsTail rest := by
  induction rest generalizing item with
  | nil => simp [itemsChars, itemsTail]
  | cons next rest ih => rw [itemsChars, itemsTail, ih]

theorem fieldsChars_cons (name : String) (value : Value) (rest : List (String × Value)) :
    fieldsChars ((name, value) :: rest) =
      name.toList ++ ':' :: ' ' :: (value.chars ++ fieldsTail rest) := by
  induction rest generalizing name value with
  | nil => simp [fieldsChars, fieldsTail]
  | cons next rest ih =>
      obtain ⟨nextName, nextValue⟩ := next
      rw [fieldsChars, fieldsTail, ih]

theorem endsValue_itemsTail (items : List Value) (rest : List Char) :
    EndsValue (itemsTail items ++ ']' :: rest) := by
  cases items with
  | nil => exact endsValue_cons (by decide) (by decide) _
  | cons item items => exact endsValue_cons (by decide) (by decide) _

theorem endsValue_fieldsTail (fields : List (String × Value)) (rest : List Char) :
    EndsValue (fieldsTail fields ++ '\x7d' :: rest) := by
  cases fields with
  | nil => exact endsValue_cons (by decide) (by decide) _
  | cons field fields => exact endsValue_cons (by decide) (by decide) _

section Starts

variable {leftRest rightRest : List Char}

theorem itemsTail_eq_of_itemsChars_eq {lefts rights : List Value}
    (leftsObey : ItemsObey wellFormed lefts) (rightsObey : ItemsObey wellFormed rights)
    (same : itemsChars lefts ++ ']' :: leftRest = itemsChars rights ++ ']' :: rightRest) :
    itemsTail lefts ++ ']' :: leftRest = itemsTail rights ++ ']' :: rightRest := by
  cases lefts with
  | nil =>
      cases rights with
      | nil => exact same
      | cons right rights =>
          rw [itemsChars_cons, List.append_assoc] at same
          exact absurd same.symm (chars_append_ne_bracket rightsObey.1 _ _)
  | cons left lefts =>
      cases rights with
      | nil =>
          rw [itemsChars_cons, List.append_assoc] at same
          exact absurd same (chars_append_ne_bracket leftsObey.1 _ _)
      | cons right rights =>
          rw [itemsChars_cons, itemsChars_cons] at same
          exact congrArg (',' :: ' ' :: ·) same

theorem fieldsTail_eq_of_fieldsChars_eq {lefts rights : List (String × Value)}
    (leftsNamed : wellFormed.names (lefts.map Prod.fst))
    (rightsNamed : wellFormed.names (rights.map Prod.fst))
    (same : fieldsChars lefts ++ '\x7d' :: leftRest = fieldsChars rights ++ '\x7d' :: rightRest) :
    fieldsTail lefts ++ '\x7d' :: leftRest = fieldsTail rights ++ '\x7d' :: rightRest := by
  cases lefts with
  | nil =>
      cases rights with
      | nil => exact same
      | cons right rights =>
          rw [fieldsChars_cons, List.append_assoc] at same
          exact absurd same.symm (name_append_ne_brace (rightsNamed _ List.mem_cons_self) _ _)
  | cons left lefts =>
      cases rights with
      | nil =>
          rw [fieldsChars_cons, List.append_assoc] at same
          exact absurd same (name_append_ne_brace (leftsNamed _ List.mem_cons_self) _ _)
      | cons right rights =>
          rw [fieldsChars_cons, fieldsChars_cons] at same
          exact congrArg (',' :: ' ' :: ·) same

end Starts

mutual

/-- The text of a value tells where it ends. -/
theorem chars_append_inj {leftRest rightRest : List Char} (leftEnds : EndsWord leftRest)
    (rightEnds : EndsWord rightRest) :
    (left right : Value) → left.Obeys wellFormed → right.Obeys wellFormed →
      left.chars ++ leftRest = right.chars ++ rightRest → left = right ∧ leftRest = rightRest
  | null, _, leftObeys, rightObeys, same | boolean _, _, leftObeys, rightObeys, same
  | int _, _, leftObeys, rightObeys, same | float _, _, leftObeys, rightObeys, same
  | enum _, _, leftObeys, rightObeys, same =>
      word_chars_append_inj leftObeys rightObeys rfl leftEnds rightEnds same
  | string left, right, leftObeys, rightObeys, same => by
      have opens := opener?_eq leftObeys rightObeys same
      cases right with
      | string right =>
          obtain ⟨content, behind⟩ := quote_append_inj same
          exact ⟨congrArg string (String.toList_inj.mp content), behind⟩
      | _ => cases opens
  | list lefts, right, leftObeys, rightObeys, same => by
      have opens := opener?_eq leftObeys rightObeys same
      cases right with
      | list rights =>
          simp only [chars, List.cons_append, List.append_assoc, List.nil_append, List.cons.injEq,
            true_and] at same
          obtain ⟨rfl, behind⟩ := itemsTail_append_inj lefts rights leftObeys rightObeys
            (itemsTail_eq_of_itemsChars_eq leftObeys rightObeys same)
          exact ⟨rfl, behind⟩
      | _ => cases opens
  | object lefts, right, leftObeys, rightObeys, same => by
      have opens := opener?_eq leftObeys rightObeys same
      cases right with
      | object rights =>
          simp only [chars, List.cons_append, List.append_assoc, List.nil_append, List.cons.injEq,
            true_and] at same
          obtain ⟨rfl, behind⟩ := fieldsTail_append_inj lefts rights leftObeys.1 rightObeys.1
            leftObeys.2 rightObeys.2 (fieldsTail_eq_of_fieldsChars_eq leftObeys.1 rightObeys.1 same)
          exact ⟨rfl, behind⟩
      | _ => cases opens

theorem itemsTail_append_inj {leftRest rightRest : List Char} :
    (lefts rights : List Value) → ItemsObey wellFormed lefts → ItemsObey wellFormed rights →
      itemsTail lefts ++ ']' :: leftRest = itemsTail rights ++ ']' :: rightRest →
      lefts = rights ∧ leftRest = rightRest
  | [], [], _, _, same => ⟨rfl, (List.cons.inj same).2⟩
  | [], _ :: _, _, _, same => by cases same
  | _ :: _, [], _, _, same => by cases same
  | left :: lefts, right :: rights, leftsObey, rightsObey, same => by
      simp only [itemsTail, List.cons_append, List.append_assoc, List.cons.injEq, true_and] at same
      obtain ⟨rfl, behind⟩ := chars_append_inj (endsValue_itemsTail lefts leftRest).endsWord
        (endsValue_itemsTail rights rightRest).endsWord left right leftsObey.1 rightsObey.1 same
      obtain ⟨rfl, rests⟩ := itemsTail_append_inj lefts rights leftsObey.2 rightsObey.2 behind
      exact ⟨rfl, rests⟩

theorem fieldsTail_append_inj {leftRest rightRest : List Char} :
    (lefts rights : List (String × Value)) → wellFormed.names (lefts.map Prod.fst) →
      wellFormed.names (rights.map Prod.fst) → FieldsObey wellFormed lefts →
      FieldsObey wellFormed rights →
      fieldsTail lefts ++ '\x7d' :: leftRest = fieldsTail rights ++ '\x7d' :: rightRest →
      lefts = rights ∧ leftRest = rightRest
  | [], [], _, _, _, _, same => ⟨rfl, (List.cons.inj same).2⟩
  | [], _ :: _, _, _, _, _, same => by cases same
  | _ :: _, [], _, _, _, _, same => by cases same
  | (leftName, left) :: lefts, (rightName, right) :: rights, leftsNamed, rightsNamed, leftsObey,
      rightsObey, same => by
      obtain ⟨leftNamed, othersNamed⟩ := List.forall_mem_cons.mp leftsNamed
      obtain ⟨rightNamed, behindNamed⟩ := List.forall_mem_cons.mp rightsNamed
      simp only [fieldsTail, List.cons_append, List.append_assoc, List.cons.injEq, true_and] at same
      obtain ⟨names, values⟩ := word_append_inj (isWordChar_of_isName leftNamed)
        (isWordChar_of_isName rightNamed) (endsWord_cons (by decide) _)
        (endsWord_cons (by decide) _) same
      obtain rfl := String.toList_inj.mp names
      simp only [List.cons.injEq, true_and] at values
      obtain ⟨rfl, behind⟩ := chars_append_inj (endsValue_fieldsTail lefts leftRest).endsWord
        (endsValue_fieldsTail rights rightRest).endsWord left right leftsObey.1 rightsObey.1 values
      obtain ⟨rfl, rests⟩ := fieldsTail_append_inj lefts rights othersNamed behindNamed leftsObey.2
        rightsObey.2 behind
      exact ⟨rfl, rests⟩

end

/-- Of well-formed values no two have the same text. -/
theorem text_inj {left right : Value} (leftObeys : left.Obeys wellFormed)
    (rightObeys : right.Obeys wellFormed) (same : left.text = right.text) : left = right := by
  have chars := String.ofList_injective same
  exact (chars_append_inj endsWord_nil endsWord_nil left right leftObeys rightObeys
    (congrArg (· ++ []) chars)).1

end Value

end SchemaEvolution
