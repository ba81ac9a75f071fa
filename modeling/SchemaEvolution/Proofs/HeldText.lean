import SchemaEvolution.Proofs.LiteralParts

/-!
Reading a text where a schema holds it. Behind the text stand a line end, which closes a comment,
and a brace. No token goes on over the line end, so a rule reads there what it reads in the text on
its own; only an object that the text leaves open takes the brace as its own, and then nothing is
left.
-/

namespace SchemaEvolution

section Stop

variable {α : Type} {p : α → Bool} {stop : α} (stops : p stop = false)

include stops

theorem takeWhile_append_stop (text behind : List α) :
    (text ++ stop :: behind).takeWhile p = text.takeWhile p := by
  induction text with
  | nil => simp [stops]
  | cons item text ih => simp [List.takeWhile_cons, ih]

theorem dropWhile_append_stop (text behind : List α) :
    (text ++ stop :: behind).dropWhile p = text.dropWhile p ++ stop :: behind := by
  induction text with
  | nil => simp [stops]
  | cons item text ih =>
      rw [List.cons_append, List.dropWhile_cons, List.dropWhile_cons, ih]
      split <;> rfl

end Stop

/-- Behind a text that starts with another character a line end changes nothing about that. -/
theorem head?_append_lineEnd_ne {text behind : List Char} {c : Char} (other : text.head? ≠ some c)
    (notLineEnd : c ≠ '\n') : (text ++ '\n' :: behind).head? ≠ some c := by
  cases text with
  | nil =>
      intro same
      exact notLineEnd (Option.some.inj same).symm
  | cons first rest => exact other

namespace Numeral

section Parts

variable {text : List Char}

theorem readWhole?_of_head? (notZero : text.head? ≠ some '0') :
    readWhole? text = if (readDigits text).1 = [] then none else some (readDigits text) := by
  unfold readWhole?
  split
  · exact absurd rfl notZero
  · generalize readDigits text = found
    obtain ⟨_ | ⟨digit, digits⟩, behind⟩ := found <;> rfl

theorem readFraction_of_head? (notPoint : text.head? ≠ some '.') :
    readFraction text = ([], text) := by
  unfold readFraction
  split
  · exact absurd rfl notPoint
  · rfl

theorem readFraction_point (rest : List Char) :
    readFraction ('.' :: rest) =
      if (readDigits rest).1 = [] then ([], '.' :: rest) else readDigits rest := by
  rw [readFraction]
  generalize readDigits rest = found
  obtain ⟨_ | ⟨digit, digits⟩, behind⟩ := found <;> rfl

theorem readExponent_of_head? (notSmall : text.head? ≠ some 'e')
    (notCapital : text.head? ≠ some 'E') : readExponent text = (([], []), text) := by
  unfold readExponent
  split
  · rename_i mark rest
    rw [if_neg]
    rintro (rfl | rfl)
    · exact notSmall rfl
    · exact notCapital rfl
  · rfl

theorem readExponent_mark {mark : Char} (isMark : mark = 'e' ∨ mark = 'E') (rest : List Char) :
    readExponent (mark :: rest) =
      if (readDigits (readSign rest).2).1 = [] then (([], []), mark :: rest)
      else
        (((readSign rest).1, (readDigits (readSign rest).2).1),
          (readDigits (readSign rest).2).2) := by
  unfold readExponent
  dsimp only
  rw [if_pos isMark]
  generalize readDigits (readSign rest).2 = found
  obtain ⟨_ | ⟨digit, digits⟩, behind⟩ := found <;> rfl

theorem readSign_of_head? (notPlus : text.head? ≠ some '+') (notMinus : text.head? ≠ some '-') :
    readSign text = ([], text) := by
  unfold readSign
  split
  · exact absurd rfl notPlus
  · exact absurd rfl notMinus
  · rfl

theorem readMinus_of_head? (notMinus : text.head? ≠ some '-') : readMinus text = (false, text) := by
  unfold readMinus
  split
  · exact absurd rfl notMinus
  · rfl

end Parts

section LineEnd

variable (text behind : List Char)

theorem readDigits_append_lineEnd :
    readDigits (text ++ '\n' :: behind) =
      ((readDigits text).1, (readDigits text).2 ++ '\n' :: behind) := by
  have stops : isDigit '\n' = false := by decide
  rw [readDigits, takeWhile_append_stop stops, dropWhile_append_stop stops]
  rfl

theorem readWhole?_append_lineEnd :
    readWhole? (text ++ '\n' :: behind) =
      (readWhole? text).map fun found => (found.1, found.2 ++ '\n' :: behind) := by
  by_cases zero : text.head? = some '0'
  · obtain ⟨rest, rfl⟩ := List.head?_eq_some_iff.mp zero
    rfl
  · rw [readWhole?_of_head? zero, readWhole?_of_head? (head?_append_lineEnd_ne zero (by decide)),
      readDigits_append_lineEnd]
    split <;> rfl

theorem readFraction_append_lineEnd :
    readFraction (text ++ '\n' :: behind) =
      ((readFraction text).1, (readFraction text).2 ++ '\n' :: behind) := by
  by_cases point : text.head? = some '.'
  · obtain ⟨rest, rfl⟩ := List.head?_eq_some_iff.mp point
    rw [List.cons_append, readFraction_point, readFraction_point, readDigits_append_lineEnd]
    split <;> rfl
  · rw [readFraction_of_head? point,
      readFraction_of_head? (head?_append_lineEnd_ne point (by decide))]

theorem readSign_append_lineEnd :
    readSign (text ++ '\n' :: behind) =
      ((readSign text).1, (readSign text).2 ++ '\n' :: behind) := by
  by_cases plus : text.head? = some '+'
  · obtain ⟨rest, rfl⟩ := List.head?_eq_some_iff.mp plus
    rfl
  by_cases minus : text.head? = some '-'
  · obtain ⟨rest, rfl⟩ := List.head?_eq_some_iff.mp minus
    rfl
  rw [readSign_of_head? plus minus, readSign_of_head? (head?_append_lineEnd_ne plus (by decide))
    (head?_append_lineEnd_ne minus (by decide))]

theorem readExponent_append_lineEnd :
    readExponent (text ++ '\n' :: behind) =
      ((readExponent text).1, (readExponent text).2 ++ '\n' :: behind) := by
  by_cases marked : text.head? = some 'e' ∨ text.head? = some 'E'
  · obtain ⟨mark, rest, isMark, rfl⟩ :
        ∃ mark rest, (mark = 'e' ∨ mark = 'E') ∧ text = mark :: rest := by
      rcases marked with small | capital
      · obtain ⟨rest, rfl⟩ := List.head?_eq_some_iff.mp small
        exact ⟨'e', rest, Or.inl rfl, rfl⟩
      · obtain ⟨rest, rfl⟩ := List.head?_eq_some_iff.mp capital
        exact ⟨'E', rest, Or.inr rfl, rfl⟩
    rw [List.cons_append, readExponent_mark isMark, readExponent_mark isMark,
      readSign_append_lineEnd, readDigits_append_lineEnd]
    split <;> rfl
  · obtain ⟨small, capital⟩ := not_or.mp marked
    rw [readExponent_of_head? small capital,
      readExponent_of_head? (head?_append_lineEnd_ne small (by decide))
        (head?_append_lineEnd_ne capital (by decide))]

theorem readMinus_append_lineEnd :
    readMinus (text ++ '\n' :: behind) =
      ((readMinus text).1, (readMinus text).2 ++ '\n' :: behind) := by
  by_cases minus : text.head? = some '-'
  · obtain ⟨rest, rfl⟩ := List.head?_eq_some_iff.mp minus
    rfl
  · rw [readMinus_of_head? minus, readMinus_of_head? (head?_append_lineEnd_ne minus (by decide))]

theorem read?_append_lineEnd :
    read? (text ++ '\n' :: behind) =
      (read? text).map fun found => (found.1, found.2 ++ '\n' :: behind) := by
  unfold read?
  rw [readMinus_append_lineEnd]
  dsimp only
  rw [readWhole?_append_lineEnd]
  cases readWhole? (readMinus text).2 with
  | none => rfl
  | some found =>
      dsimp only [Option.map_some]
      rw [readFraction_append_lineEnd]
      dsimp only
      rw [readExponent_append_lineEnd]

end LineEnd

end Numeral

namespace Grammar

/-- What stands behind a text where a schema holds it: the ends of a line and of a type. -/
def holderEnd : List Char :=
  ['\n', '\x7d']

/-- The reader makes of the text the same with the end of a holder behind it, and leaves that end.
It reads nothing on its own. -/
structure StopsAtHolderEnd {α : Type} (read : List Char → Option (α × List Char)) : Prop where
  nothing : read [] = none
  brace : read ['\x7d'] = none
  behind : ∀ text, read (text ++ holderEnd) =
    (read text).map fun found => (found.1, found.2 ++ holderEnd)

theorem stopsAtHolderEnd_readName? : StopsAtHolderEnd readName? where
  nothing := rfl
  brace := rfl
  behind text := by
    have stops : Text.isNameChar '\n' = false := by decide
    cases text with
    | nil => rfl
    | cons first rest =>
        unfold readName? holderEnd
        rw [takeWhile_append_stop stops, dropWhile_append_stop stops]
        dsimp only [List.cons_append]
        split <;> rfl

theorem stopsAtHolderEnd_readNumber? : StopsAtHolderEnd readNumber? where
  nothing := rfl
  brace := rfl
  behind text := by
    unfold readNumber? holderEnd
    rw [Numeral.read?_append_lineEnd]
    cases Numeral.read? text with
    | none => rfl
    | some found =>
        have boundary : (found.2 ++ ['\n', '\x7d']).head?.any Text.isNameStart =
            found.2.head?.any Text.isNameStart := by
          cases found.2 <;> rfl
        simp only [Option.map_some, Option.bind_eq_bind, Option.bind_some, boundary]
        cases found.2.head?.any Text.isNameStart with
        | true => rfl
        | false => cases numeralValue? found.1 <;> rfl

theorem hexCharacter?_lineEnd (a b c : Char) : hexCharacter? a b c '\n' = none := by
  have lineEnd : Text.hexValue? '\n' = none := by decide
  simp [hexCharacter?, Text.hexQuad?, lineEnd]

theorem hexCharacter?_holderEnd (a b : Char) : hexCharacter? a b '\n' '\x7d' = none := by
  have lineEnd : Text.hexValue? '\n' = none := by decide
  simp [hexCharacter?, Text.hexQuad?, lineEnd]

/-- The letter in front of four digits stands for no character of its own. -/
theorem readQuoted?_u_holderEnd {rest : List Char}
    (few : ∀ a b c d others, rest ≠ a :: b :: c :: d :: others) :
    readQuoted? ('\\' :: 'u' :: (rest ++ holderEnd)) = none := by
  rcases rest with _ | ⟨a, _ | ⟨b, _ | ⟨c, _ | ⟨d, others⟩⟩⟩⟩
  · rfl
  · rfl
  · simp [readQuoted?, holderEnd, hexCharacter?_holderEnd]
  · simp [readQuoted?, holderEnd, hexCharacter?_lineEnd]
  · exact absurd rfl (few a b c d others)

theorem readQuoted?_of_plain {c : Char} (notQuote : c ≠ '"') (notBackslash : c ≠ '\\')
    (rest : List Char) :
    readQuoted? (c :: rest) =
      if isLineEnd c = true then none
      else (readQuoted? rest).map fun found => (c :: found.1, found.2) := by
  rw [readQuoted?]
  · simp only [notBackslash, false_or]
    split
    · rfl
    · cases readQuoted? rest <;> rfl
  · exact notQuote
  · exact fun _ _ _ _ _ same => absurd same notBackslash
  · exact fun _ _ same => absurd same notBackslash

theorem readQuoted?_holderEnd (text : List Char) :
    readQuoted? (text ++ holderEnd) =
      (readQuoted? text).map fun found => (found.1, found.2 ++ holderEnd) := by
  fun_induction readQuoted? text with
  | case1 => rfl
  | case2 rest => rfl
  | case3 a b c d rest ih =>
      simp only [List.cons_append, readQuoted?, ih]
      cases hexCharacter? a b c d with
      | none => rfl
      | some character => cases readQuoted? rest <;> rfl
  | case4 letter rest notDigits ih =>
      by_cases isU : letter = 'u'
      · subst isU
        exact readQuoted?_u_holderEnd fun a b c d others same =>
          notDigits a b c d others rfl same
      · rw [List.cons_append, List.cons_append, readQuoted?, ih]
        · cases unescape? letter with
          | none => rfl
          | some character => cases readQuoted? rest <;> rfl
        · exact fun _ _ _ _ _ same => absurd same isU
  | case5 c rest notQuote _ notLetter refused =>
      by_cases backslash : c = '\\'
      · cases rest with
        | nil =>
            subst backslash
            rfl
        | cons letter others => exact absurd rfl (notLetter letter others backslash)
      · rw [List.cons_append, readQuoted?_of_plain notQuote backslash, if_pos]
        · rfl
        · exact refused.resolve_left backslash
  | case6 c rest notQuote _ _ accepted ih =>
      obtain ⟨notBackslash, notLineEnd⟩ := not_or.mp accepted
      rw [List.cons_append, readQuoted?_of_plain notQuote notBackslash, if_neg notLineEnd, ih]
      cases readQuoted? rest <;> rfl

theorem exists_eq_append_of_holderEnd (word : List Char) {text rest : List Char}
    (noLineEnd : '\n' ∉ word) (same : text ++ holderEnd = word ++ rest) :
    ∃ others, text = word ++ others := by
  rcases List.append_eq_append_iff.mp same with ⟨others, isWord, isEnd⟩ | ⟨others, isText, _⟩
  · cases others with
    | nil => exact ⟨[], by rw [isWord, List.append_nil, List.append_nil]⟩
    | cons c others =>
        obtain ⟨rfl, _⟩ := List.cons.inj isEnd
        exact absurd (isWord ▸ List.mem_append_right _ List.mem_cons_self) noLineEnd
  · exact ⟨others, isText⟩

theorem readBlock?_holderEnd (text : List Char) :
    readBlock? (text ++ holderEnd) =
      (readBlock? text).map fun found => (found.1, found.2 ++ holderEnd) := by
  fun_induction readBlock? text with
  | case1 => rfl
  | case2 rest ih =>
      simp only [List.cons_append, readBlock?, ih]
      cases readBlock? rest <;> rfl
  | case3 rest => rfl
  | case4 c rest notEscaped notClosing ih =>
      rw [List.cons_append, readBlock?, ih]
      · cases readBlock? rest <;> rfl
      · intro others backslash same
        obtain ⟨behind, isRest⟩ :=
          exists_eq_append_of_holderEnd ['"', '"', '"'] (by decide) same
        exact notEscaped behind backslash isRest
      · intro others quote same
        obtain ⟨behind, isRest⟩ :=
          exists_eq_append_of_holderEnd ['"', '"'] (by decide) same
        exact notClosing behind quote isRest

theorem readString?_of_block {rest : List Char} :
    readString? ('"' :: '"' :: '"' :: rest) =
      ((readBlock? rest).map fun found => (String.ofList (blockContent found.1), found.2)).or
        ((readQuoted? ('"' :: '"' :: rest)).map fun found => (String.ofList found.1, found.2)) := by
  simp only [readString?]
  cases readBlock? rest <;> rfl

theorem stopsAtHolderEnd_readString? : StopsAtHolderEnd readString? where
  nothing := rfl
  brace := rfl
  behind text := by
    by_cases quoted : text.head? = some '"'
    · obtain ⟨rest, rfl⟩ := List.head?_eq_some_iff.mp quoted
      by_cases block : ∃ behind, rest = '"' :: '"' :: behind
      · obtain ⟨behind, rfl⟩ := block
        have quotes := readQuoted?_holderEnd ('"' :: '"' :: behind)
        simp only [List.cons_append] at quotes ⊢
        rw [readString?_of_block, readString?_of_block, readBlock?_holderEnd, quotes]
        cases readBlock? behind <;> cases readQuoted? ('"' :: '"' :: behind) <;> rfl
      · have notBlock (behind : List Char) : rest ++ holderEnd ≠ '"' :: '"' :: behind := by
          intro same
          obtain ⟨others, isRest⟩ :=
            exists_eq_append_of_holderEnd ['"', '"'] (by decide) same
          exact block ⟨others, isRest⟩
        rw [List.cons_append, readString?_of_not_block notBlock,
          readString?_of_not_block fun behind same => block ⟨behind, same⟩, readQuoted?_holderEnd]
        cases readQuoted? rest <;> rfl
    · cases text with
      | nil => rfl
      | cons first rest =>
          have notQuote : first ≠ '"' := fun same => quoted (congrArg some same)
          rw [List.cons_append, readString?_eq_none notQuote, readString?_eq_none notQuote]
          rfl

theorem afterWord?_holderEnd {word : List Char} (noLineEnd : '\n' ∉ word) (text : List Char) :
    afterWord? word (text ++ holderEnd) = (afterWord? word text).map (· ++ holderEnd) := by
  induction word generalizing text with
  | nil => cases text <;> rfl
  | cons expected word ih =>
      obtain ⟨notLineEnd, others⟩ := not_or.mp (List.mem_cons.not.mp noLineEnd)
      cases text with
      | nil => exact if_neg notLineEnd
      | cons c rest =>
          simp only [List.cons_append, afterWord?, ih others]
          split <;> rfl

theorem readScalar?_holderEnd (text : List Char) : readScalar? (text ++ holderEnd) =
    (readScalar? text).map fun found => (found.1, found.2 ++ holderEnd) := by
  unfold readScalar?
  rw [stopsAtHolderEnd_readNumber?.behind, stopsAtHolderEnd_readString?.behind,
    stopsAtHolderEnd_readName?.behind, afterWord?_holderEnd (by decide),
    afterWord?_holderEnd (by decide), afterWord?_holderEnd (by decide)]
  cases readNumber? text with
  | some found => rfl
  | none =>
  cases readString? text with
  | some found => rfl
  | none =>
  cases afterWord? ['t', 'r', 'u', 'e'] text with
  | some rest => rfl
  | none =>
  cases afterWord? ['f', 'a', 'l', 's', 'e'] text with
  | some rest => rfl
  | none =>
  cases afterWord? ['n', 'u', 'l', 'l'] text with
  | some rest => rfl
  | none => cases readName? text <;> rfl

theorem stopsAtHolderEnd_readScalar? : StopsAtHolderEnd readScalar? where
  nothing := rfl
  brace := rfl
  behind := readScalar?_holderEnd

end Grammar

end SchemaEvolution
