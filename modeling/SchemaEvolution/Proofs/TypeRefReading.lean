import Mathlib.Data.List.Basic
import Mathlib.Logic.Relation
import SchemaEvolution.Proofs.TypeRefText

/-!
Which texts are read as references. A text is read exactly if it writes a reference between blanks,
and then as that reference; more blanks where they are allowed change nothing. Two marks that touch
are refused everywhere, but two marks with a blank between them are read, as marks on marks that the
text of a reference cannot show.
-/

namespace SchemaEvolution

namespace Text

theorem areBlanks_nil : AreBlanks [] :=
  fun _ member => absurd member List.not_mem_nil

theorem areBlanks_takeWhile (text : List Char) : AreBlanks (text.takeWhile isBlank) :=
  fun c member => List.all_eq_true.mp List.all_takeWhile c member

theorem exists_blanks_behind_trimEnd (text : List Char) :
    ∃ after, AreBlanks after ∧ text = trimEnd text ++ after := by
  refine ⟨(text.reverse.takeWhile isBlank).reverse, ?_, ?_⟩
  · exact fun c member => areBlanks_takeWhile text.reverse c (List.mem_reverse.mp member)
  · rw [trimEnd, ← List.reverse_append, List.takeWhile_append_dropWhile, List.reverse_reverse]

theorem exists_blanks_around_trim (text : List Char) :
    ∃ before after, AreBlanks before ∧ AreBlanks after ∧ text = before ++ (trim text ++ after) := by
  obtain ⟨after, blanks, isAfter⟩ := exists_blanks_behind_trimEnd (trimStart text)
  refine ⟨text.takeWhile isBlank, after, areBlanks_takeWhile text, blanks, ?_⟩
  rw [trim, ← isAfter, trimStart, List.takeWhile_append_dropWhile]

theorem AreBlanks.not_mem_mark {blanks : List Char} (areBlanks : AreBlanks blanks) : '!' ∉ blanks := by
  intro member
  exact absurd (areBlanks '!' member) (by decide)

end Text

namespace TypeRef

def IsSpaced (type : TypeRef) (text : List Char) : Prop :=
  ∃ before inside after, text = before ++ (inside ++ after) ∧ Text.AreBlanks before ∧
    Text.AreBlanks after ∧ type.IsWritten inside

theorem IsWritten.isSpaced {type : TypeRef} {text : List Char} (written : type.IsWritten text) :
    type.IsSpaced text :=
  ⟨[], text, [], (List.append_nil text).symm, Text.areBlanks_nil, Text.areBlanks_nil, written⟩

theorem eq_of_beforeLast? {last : Char} {text inner : List Char}
    (found : beforeLast? last text = some inner) : text = inner ++ [last] := by
  unfold beforeLast? at found
  split at found
  · rename_i isLast
    cases found
    obtain ⟨others, rfl⟩ := List.getLast?_eq_some_iff.mp isLast
    rw [List.dropLast_concat]
  · cases found

theorem eq_of_afterBracket? {text inner : List Char} (found : afterBracket? text = some inner) :
    text = '[' :: inner := by
  unfold afterBracket? at found
  split at found
  · cases found
    rfl
  · cases found

theorem IsWritten.getLast?_mark {type : TypeRef} {text : List Char} (written : type.IsWritten text)
    (marked : type.isNonNull = true) : text.getLast? = some '!' := by
  cases written with
  | named | list => cases marked
  | nonNull => exact List.getLast?_concat

theorem isWritten_of_parseTrimmed {type : TypeRef} {text : List Char}
    (read : parseTrimmed text = .ok type) : type.IsWritten text := by
  fun_induction parseTrimmed text generalizing type with
  | case1 | case4 | case6 => cases read
  | case2 text inner marked single ih =>
      obtain ⟨innerType, innerRead, rfl⟩ := ok_of_map_ok read
      have written := ih innerRead
      obtain ⟨after, blanks, isInner⟩ := Text.exists_blanks_behind_trimEnd inner
      have apart : innerType.isNonNull = false ∨ after ≠ [] := by
        cases isMarked : innerType.isNonNull with
        | false => exact Or.inl rfl
        | true =>
            refine Or.inr fun none => single ?_
            rw [isInner, none, List.append_nil]
            exact written.getLast?_mark isMarked
      rw [eq_of_beforeLast? marked, isInner]
      exact .nonNull blanks apart written
  | case3 text unmarked inner opened item closed ih =>
      obtain ⟨itemType, itemRead, rfl⟩ := ok_of_map_ok read
      obtain ⟨before, after, blanksBefore, blanksAfter, isItem⟩ := Text.exists_blanks_around_trim item
      rw [eq_of_afterBracket? opened, eq_of_beforeLast? closed, isItem]
      exact .list blanksBefore blanksAfter (ih itemRead)
  | case5 text unmarked unopened isName =>
      cases read
      rw [← String.toList_ofList (l := text)] at isName
      have written := IsWritten.named isName
      rwa [String.toList_ofList] at written

/-- A text is read as the reference that it writes between blanks. -/
theorem parse_eq_ok_iff {input : String} {type : TypeRef} :
    parse input = .ok type ↔ type.IsSpaced input.toList := by
  constructor
  · intro read
    obtain ⟨before, after, blanksBefore, blanksAfter, isInput⟩ :=
      Text.exists_blanks_around_trim input.toList
    exact ⟨before, _, after, isInput, blanksBefore, blanksAfter,
      isWritten_of_parseTrimmed (ok_of_mapError_ok read)⟩
  · rintro ⟨before, inside, after, isInput, blanksBefore, blanksAfter, written⟩
    have read := parse_of_isWritten written blanksBefore blanksAfter
    rwa [← isInput, String.ofList_toList] at read

/-- Between these two parts of a text a blank means nothing: at an end of the text, behind an
opening bracket, in front of a closing one and in front of a mark. -/
def AllowsBlank (before after : List Char) : Prop :=
  before = [] ∨ after = [] ∨ before.getLast? = some '[' ∨ after.head? = some ']' ∨
    after.head? = some '!'

/-- The longer text has one blank more, at a place where it means nothing. -/
def GainsBlank (text longer : List Char) : Prop :=
  ∃ before blank after, text = before ++ after ∧ longer = before ++ blank :: after ∧
    Text.isBlank blank = true ∧ AllowsBlank before after

theorem IsSpaced.between {type : TypeRef} {before text after : List Char}
    (spaced : type.IsSpaced text) (blanksBefore : Text.AreBlanks before)
    (blanksAfter : Text.AreBlanks after) : type.IsSpaced (before ++ (text ++ after)) := by
  obtain ⟨outer, inside, behind, rfl, blanksOuter, blanksBehind, written⟩ := spaced
  refine ⟨before ++ outer, inside, behind ++ after, by simp, ?_, ?_, written⟩
  · exact List.forall_mem_append.mpr ⟨blanksBefore, blanksOuter⟩
  · exact List.forall_mem_append.mpr ⟨blanksBehind, blanksAfter⟩

section Blanks

variable {before after : List Char}

/-- What stands further out does not matter. -/
theorem AllowsBlank.inner (front back : List Char)
    (allowed : AllowsBlank (front ++ before) (after ++ back)) : AllowsBlank before after := by
  by_cases noBefore : before = []
  · exact Or.inl noBefore
  by_cases noAfter : after = []
  · exact Or.inr (Or.inl noAfter)
  obtain ⟨initial, last, rfl⟩ := (List.eq_nil_or_concat' before).resolve_left noBefore
  obtain ⟨first, rest, rfl⟩ := List.exists_cons_of_ne_nil noAfter
  simpa [AllowsBlank, ← List.append_assoc] using allowed

theorem not_allowsBlank_of_isName (isName : Text.isName (before ++ after) = true)
    (someBefore : before ≠ []) (someAfter : after ≠ []) : ¬ AllowsBlank before after := by
  have noMark {c : Char} (mark : Text.isNameChar c = false) : c ∉ before ++ after := by
    intro member
    rw [Text.isNameChar_of_mem isName member] at mark
    cases mark
  rintro (empty | empty | bracket | bracket | mark)
  · exact someBefore empty
  · exact someAfter empty
  · exact noMark (by decide) (List.mem_append_left _ (List.mem_of_mem_getLast? bracket))
  · exact noMark (by decide) (List.mem_append_right _ (List.mem_of_mem_head? bracket))
  · exact noMark (by decide) (List.mem_append_right _ (List.mem_of_mem_head? mark))

variable {type : TypeRef} {blank : Char} (isBlank : Text.isBlank blank = true)

include isBlank

/-- A blank at the ends of what writes the reference stands among those around it. -/
theorem IsSpaced.insert_of_inside {text : List Char} (spaced : type.IsSpaced text)
    (inside : ∀ front back, type.IsWritten (front ++ back) → front ≠ [] → back ≠ [] →
      AllowsBlank front back → type.IsSpaced (front ++ blank :: back))
    (split : text = before ++ after) (allowed : AllowsBlank before after) :
    type.IsSpaced (before ++ blank :: after) := by
  obtain ⟨outer, written, behind, rfl, blanksOuter, blanksBehind, isWritten⟩ := spaced
  rcases List.append_eq_append_iff.mp split with ⟨front, rfl, within⟩ | ⟨others, rfl, rfl⟩
  · rcases List.append_eq_append_iff.mp within with ⟨others, rfl, rfl⟩ | ⟨back, rfl, rfl⟩
    · obtain ⟨blanksFront, blanksBack⟩ := List.forall_mem_append.mp blanksBehind
      have blanks : Text.AreBlanks (others ++ blank :: after) :=
        List.forall_mem_append.mpr ⟨blanksFront, List.forall_mem_cons.mpr ⟨isBlank, blanksBack⟩⟩
      have longer := isWritten.isSpaced.between blanksOuter blanks
      simpa using longer
    · by_cases noFront : front = []
      · subst noFront
        have blanks : Text.AreBlanks (outer ++ [blank]) :=
          List.forall_mem_append.mpr ⟨blanksOuter, List.forall_mem_singleton.mpr isBlank⟩
        have longer := isWritten.isSpaced.between blanks blanksBehind
        simpa using longer
      by_cases noBack : back = []
      · subst noBack
        have blanks : Text.AreBlanks (blank :: behind) :=
          List.forall_mem_cons.mpr ⟨isBlank, blanksBehind⟩
        have longer := isWritten.isSpaced.between blanksOuter blanks
        simpa using longer
      have onItem := inside front back isWritten noFront noBack (allowed.inner outer behind)
      have longer := onItem.between blanksOuter blanksBehind
      simpa using longer
  · obtain ⟨blanksFront, blanksBack⟩ := List.forall_mem_append.mp blanksOuter
    have blanks : Text.AreBlanks (before ++ blank :: others) :=
      List.forall_mem_append.mpr ⟨blanksFront, List.forall_mem_cons.mpr ⟨isBlank, blanksBack⟩⟩
    have longer := isWritten.isSpaced.between blanks blanksBehind
    simpa using longer

theorem IsWritten.insert (marks : type.HasSingleMarks) {front back : List Char}
    (written : type.IsWritten (front ++ back)) (someFront : front ≠ []) (someBack : back ≠ [])
    (allowed : AllowsBlank front back) : type.IsSpaced (front ++ blank :: back) := by
  -- Inside the outermost layer the same place is one of the text of the item, or at an end of it.
  induction type generalizing front back with
  | named name =>
      generalize isText : front ++ back = text at written
      cases written with
      | named isName =>
          exact absurd allowed (not_allowsBlank_of_isName (isText ▸ isName) someFront someBack)
  | list item ih =>
      generalize isText : front ++ back = text at written
      cases written with
      | @list _ before inside after blanksBefore blanksAfter written =>
          obtain ⟨first, front, rfl⟩ := List.exists_cons_of_ne_nil someFront
          obtain ⟨back, last, rfl⟩ := (List.eq_nil_or_concat' back).resolve_left someBack
          rw [List.cons_append, ← List.append_assoc front] at isText
          obtain ⟨rfl, isTail⟩ := List.cons.inj isText
          obtain ⟨split, isLast⟩ := List.append_inj' isTail rfl
          cases isLast
          have spaced := written.isSpaced.between blanksBefore blanksAfter
          obtain ⟨outer, longer, behind, isLonger, blanksOuter, blanksBehind, isWritten⟩ :=
            spaced.insert_of_inside isBlank (fun _ _ => ih marks) split.symm
              (AllowsBlank.inner ['['] [']'] allowed)
          have list := (IsWritten.list blanksOuter blanksBehind isWritten).isSpaced
          rw [← isLonger] at list
          simpa using list
  | nonNull inner ih =>
      generalize isText : front ++ back = text at written
      cases written with
      | @nonNull _ inside after blanks apart written =>
          obtain ⟨back, last, rfl⟩ := (List.eq_nil_or_concat' back).resolve_left someBack
          rw [← List.append_assoc front] at isText
          obtain ⟨split, isLast⟩ := List.append_inj' isText rfl
          cases isLast
          have spaced := written.isSpaced.between Text.areBlanks_nil blanks
          obtain ⟨outer, longer, behind, isLonger, blanksOuter, blanksBehind, isWritten⟩ :=
            spaced.insert_of_inside isBlank (fun _ _ => ih marks.2) split.symm
              (AllowsBlank.inner [] ['!'] allowed)
          have marked := IsWritten.nonNull blanksBehind (Or.inl marks.1) isWritten
          have nonNull := marked.isSpaced.between blanksOuter Text.areBlanks_nil
          rw [← List.append_assoc, List.append_nil, ← List.append_assoc, ← isLonger] at nonNull
          simpa using nonNull

end Blanks

theorem IsSpaced.gainsBlank {type : TypeRef} {text longer : List Char} (marks : type.HasSingleMarks)
    (spaced : type.IsSpaced text) (gains : GainsBlank text longer) : type.IsSpaced longer := by
  obtain ⟨before, blank, after, split, rfl, isBlank, allowed⟩ := gains
  exact spaced.insert_of_inside isBlank (fun _ _ => IsWritten.insert isBlank marks) split allowed

/-- A reference is read back from its text, with any blanks put in where they mean nothing. -/
theorem parse_of_gained_blanks (type : TypeRef) (named : type.IsNamed)
    (marks : type.HasSingleMarks) :
    parse type.text = .ok type ∧
      ∀ text : String, Relation.ReflTransGen GainsBlank type.text.toList text.toList →
        parse text = .ok type := by
  have spaced {text : List Char} (gained : Relation.ReflTransGen GainsBlank type.text.toList text) :
      type.IsSpaced text := by
    induction gained with
    | refl =>
        rw [TypeRef.text, String.toList_ofList]
        exact (isWritten_chars named marks).isSpaced
    | tail _ gains ih => exact ih.gainsBlank marks gains
  exact ⟨parse_eq_ok_iff.mpr (spaced .refl), fun _ gained => parse_eq_ok_iff.mpr (spaced gained)⟩

theorem spacedIds_read_back :
    parse "[ Id! ] !" = .ok (nonNull (list (nonNull (named "Id")))) := by
  have first : GainsBlank "[Id!]!".toList "[ Id!]!".toList :=
    ⟨['['], ' ', "Id!]!".toList, rfl, rfl, rfl, Or.inr (Or.inr (Or.inl rfl))⟩
  have second : GainsBlank "[ Id!]!".toList "[ Id! ]!".toList :=
    ⟨"[ Id!".toList, ' ', "]!".toList, rfl, rfl, rfl, Or.inr (Or.inr (Or.inr (Or.inl rfl)))⟩
  have third : GainsBlank "[ Id! ]!".toList "[ Id! ] !".toList :=
    ⟨"[ Id! ]".toList, ' ', ['!'], rfl, rfl, rfl, Or.inr (Or.inr (Or.inr (Or.inr rfl)))⟩
  have marks : (nonNull (list (nonNull (named "Id")))).HasSingleMarks := ⟨rfl, rfl, trivial⟩
  exact (parse_of_gained_blanks (nonNull (list (nonNull (named "Id")))) rfl marks).2 _
    (((Relation.ReflTransGen.refl.tail first).tail second).tail third)

def HasMarksAround (between text : List Char) : Prop :=
  '!' :: (between ++ ['!']) <:+: text

/-- Two marks stand in the text with a blank or more between them, and nothing else. -/
def SpacesMarks (text : List Char) : Prop :=
  ∃ blanks, blanks ≠ [] ∧ Text.AreBlanks blanks ∧ HasMarksAround blanks text

theorem infix_of_append_left {first : Char} {rest before text : List Char}
    (absent : first ∉ before) (isInfix : first :: rest <:+: before ++ text) :
    first :: rest <:+: text := by
  induction before with
  | nil => exact isInfix
  | cons c before ih =>
      obtain ⟨different, absent⟩ := not_or.mp (List.mem_cons.not.mp absent)
      rcases List.infix_cons_iff.mp isInfix with ⟨behind, same⟩ | inside
      · exact absurd (List.cons.inj same).1 different
      · exact ih absent inside

theorem HasMarksAround.of_append {between before text after : List Char} (noMarkBefore : '!' ∉ before)
    (noMarkAfter : '!' ∉ after) (marks : HasMarksAround between (before ++ (text ++ after))) :
    HasMarksAround between text := by
  have front := List.reverse_infix.mpr (infix_of_append_left noMarkBefore marks)
  have absent : '!' ∉ after.reverse := fun member => noMarkAfter (List.mem_reverse.mp member)
  rw [List.reverse_cons, List.reverse_append, List.reverse_append] at front
  have both := List.reverse_infix.mpr (infix_of_append_left absent front)
  simpa [HasMarksAround] using both

namespace IsWritten

variable {type : TypeRef} {text between : List Char}

/-- Marks that only blanks part belong to one mark on another, and blanks do part them. -/
theorem of_marksAround (written : type.IsWritten text) (blanks : Text.AreBlanks between)
    (marks : HasMarksAround between text) : between ≠ [] ∧ ¬ type.HasSingleMarks := by
  induction written with
  | named isName =>
      have member := marks.subset List.mem_cons_self
      exact absurd (Text.isNameChar_of_mem isName member) (by decide)
  | @list item before text after blanksBefore blanksAfter inside ih =>
      have noMarkBefore : '!' ∉ '[' :: before := by simpa using blanksBefore.not_mem_mark
      have noMarkAfter : '!' ∉ after ++ [']'] := by simpa using blanksAfter.not_mem_mark
      have whole : HasMarksAround between (('[' :: before) ++ (text ++ (after ++ [']']))) := by
        simpa using marks
      exact ih (whole.of_append noMarkBefore noMarkAfter)
  | @nonNull inner text after blanksAfter apart inside ih =>
      rcases List.infix_concat_iff.mp marks with ⟨front, same⟩ | within
      · have split : front ++ ['!'] ++ between = text ++ after := by
          have cut : (front ++ '!' :: between) ++ ['!'] = (text ++ after) ++ ['!'] := by
            simpa using same
          simpa using List.append_cancel_right cut
        have notBlank : ∀ c ∈ (front ++ ['!']).getLast?, Text.isBlank c = false := by simp; rfl
        have isInner : front ++ ['!'] = text := by
          rw [← Text.trimEnd_append blanks notBlank, split,
            Text.trimEnd_append blanksAfter inside.isTrimmed.last]
        have isBetween : between = after := by
          rw [isInner] at split
          exact List.append_cancel_left split
        have marked : inner.isNonNull ≠ false := fun unmarked =>
          inside.getLast?_ne_mark unmarked (isInner ▸ List.getLast?_concat)
        exact ⟨isBetween ▸ apart.resolve_left marked, fun single => marked single.1⟩
      · have marksInside : HasMarksAround between ([] ++ (text ++ after)) := within
        obtain ⟨notEmpty, doubled⟩ :=
          ih (marksInside.of_append List.not_mem_nil blanksAfter.not_mem_mark)
        exact ⟨notEmpty, fun single => doubled single.2⟩

theorem spacesMarks_of_doubled (written : type.IsWritten text)
    (doubled : ¬ type.HasSingleMarks) : SpacesMarks text := by
  induction written with
  | named => exact absurd trivial doubled
  | @list item before text after _ _ _ ih =>
      obtain ⟨blanks, notEmpty, areBlanks, marks⟩ := ih doubled
      refine ⟨blanks, notEmpty, areBlanks, marks.trans ?_⟩
      exact ⟨'[' :: before, after ++ [']'], by simp⟩
  | @nonNull inner text after blanksAfter apart inside ih =>
      cases marked : inner.isNonNull with
      | true =>
          obtain ⟨front, isInner⟩ := List.getLast?_eq_some_iff.mp (inside.getLast?_mark marked)
          have someBlank := apart.resolve_left (by simp [marked])
          exact ⟨after, someBlank, blanksAfter, front, [], by simp [isInner]⟩
      | false =>
          obtain ⟨blanks, notEmpty, areBlanks, marks⟩ := ih fun single => doubled ⟨marked, single⟩
          refine ⟨blanks, notEmpty, areBlanks, marks.trans ?_⟩
          exact ⟨[], after ++ ['!'], by simp⟩

end IsWritten

theorem hasMarksAround_chars_of_doubled {type : TypeRef} (doubled : ¬ type.HasSingleMarks) :
    HasMarksAround [] type.chars := by
  induction type with
  | named name => exact absurd trivial doubled
  | list item ih => exact (ih doubled).trans ⟨['['], [']'], rfl⟩
  | nonNull inner ih =>
      cases inner with
      | nonNull innermost => exact ⟨innermost.chars, [], by simp [chars]⟩
      | named name => exact absurd ⟨rfl, trivial⟩ doubled
      | list item =>
          have inside := ih fun single => doubled ⟨rfl, single⟩
          exact inside.trans ⟨[], ['!'], rfl⟩

namespace IsSpaced

variable {type : TypeRef} {text between : List Char}

theorem of_marksAround (spaced : type.IsSpaced text) (blanks : Text.AreBlanks between)
    (marks : HasMarksAround between text) : between ≠ [] ∧ ¬ type.HasSingleMarks := by
  obtain ⟨before, inside, after, rfl, blanksBefore, blanksAfter, written⟩ := spaced
  exact written.of_marksAround blanks
    (marks.of_append blanksBefore.not_mem_mark blanksAfter.not_mem_mark)

theorem hasSingleMarks_iff (spaced : type.IsSpaced text) :
    type.HasSingleMarks ↔ ¬ SpacesMarks text := by
  constructor
  · rintro single ⟨blanks, _, areBlanks, marks⟩
    exact (spaced.of_marksAround areBlanks marks).2 single
  · obtain ⟨before, inside, after, rfl, _, _, written⟩ := spaced
    intro unspaced
    by_contra doubled
    obtain ⟨blanks, notEmpty, areBlanks, marks⟩ := written.spacesMarks_of_doubled doubled
    exact unspaced ⟨blanks, notEmpty, areBlanks, marks.trans ⟨before, after, by simp⟩⟩

end IsSpaced

/-- The text of a reference is read back unless a mark stands on a mark. -/
theorem parse_text_eq_ok_iff {type : TypeRef} (named : type.IsNamed) :
    parse type.text = .ok type ↔ type.HasSingleMarks := by
  constructor
  · intro readBack
    by_contra doubled
    have spaced := parse_eq_ok_iff.mp readBack
    rw [text, String.toList_ofList] at spaced
    have touching := hasMarksAround_chars_of_doubled doubled
    exact (spaced.of_marksAround Text.areBlanks_nil touching).1 rfl
  · exact parse_text named

/-- Marks that touch are refused. A reference that is read has no mark on a mark, and is read back
from its own text, exactly if no blanks part two marks in the text it was read from. -/
theorem parse_singleMarks_iff (input : String) :
    (HasMarksAround [] input.toList → ∀ type, parse input ≠ .ok type) ∧
      ∀ type, parse input = .ok type →
        type.IsNamed ∧ (type.HasSingleMarks ↔ ¬ SpacesMarks input.toList) ∧
          (parse type.text = .ok type ↔ ¬ SpacesMarks input.toList) := by
  constructor
  · intro touching type read
    exact ((parse_eq_ok_iff.mp read).of_marksAround Text.areBlanks_nil touching).1 rfl
  · intro type read
    have named := isNamed_of_parse read
    have single := (parse_eq_ok_iff.mp read).hasSingleMarks_iff
    exact ⟨named, single, (parse_text_eq_ok_iff named).trans single⟩

theorem spacedMarks_read_doubled :
    parse "Int! !" = .ok (nonNull (nonNull (named "Int"))) ∧
      ¬ (nonNull (nonNull (named "Int"))).HasSingleMarks ∧
      parse (nonNull (nonNull (named "Int"))).text = .error ⟨"Int!!", .doubledMark⟩ := by
  refine ⟨by decide +kernel, fun single => ?_, by decide +kernel⟩
  cases single.1

end TypeRef

end SchemaEvolution
