import SchemaEvolution.Proofs.HeldText

/-!
Rules on a text where a schema holds it. What a rule reads from the text on its own, with the
ignorable text behind it, it reads there too and leaves the same, with the brace of the schema
behind; this goes for values and for directives. A value that the text does not complete may at most
end with that brace.
-/

namespace SchemaEvolution.Grammar

def held : List Char → List Char
  | [] => ['\x7d']
  | text => text ++ holderEnd

theorem held_eq_brace_iff {text : List Char} : held text = ['\x7d'] ↔ text = [] := by
  cases text with
  | nil => simp [held]
  | cons c rest => simp [held, holderEnd]

theorem held_ne_nil (text : List Char) : held text ≠ [] := by
  cases text <;> simp [held]

theorem length_held_lt_iff {rest text : List Char} :
    (held rest).length < (held text).length ↔ rest.length < text.length := by
  cases rest <;> cases text <;> simp [held, holderEnd]

theorem skipFrom_append_holderEnd (text : List Char) (commented : Bool) :
    skipFrom commented (text ++ holderEnd) = held (skipFrom commented text) := by
  induction text generalizing commented with
  | nil => cases commented <;> rfl
  | cons c rest ih =>
      rw [List.cons_append, skipFrom, skipFrom]
      split_ifs
      · exact ih _
      · exact ih _
      · exact ih _
      · rfl

/-- The line end closes a comment, so the brace counts. -/
theorem skip_append_holderEnd (text : List Char) : skip (text ++ holderEnd) = held (skip text) :=
  skipFrom_append_holderEnd text false

/-- The rule reads in the holder what it reads from the text on its own. -/
def ReadsAlike {α : Type} (rule : Rule α) (text : List Char) : Prop :=
  rule (held text) = (rule text).map fun found => (found.1, held found.2)

/-- The rule does so, or it refuses the text on its own and reads on to the end of the holder. -/
def ReadsAlikeOrAll {α : Type} (rule : Rule α) (text : List Char) : Prop :=
  ReadsAlike rule text ∨ rule text = none ∧ ∃ value, rule (held text) = some (value, [])

section Combinators

variable {α β : Type} {rule other : Rule α} {next : α → Rule β} {text : List Char}

theorem ReadsAlikeOrAll.read_held {value : α} {rest : List Char} (alike : ReadsAlikeOrAll rule text)
    (read : rule text = some (value, rest)) : rule (held text) = some (value, held rest) := by
  rcases alike with same | ⟨refused, _⟩
  · rw [same, read]
    rfl
  · cases read.symm.trans refused

theorem StopsAtHolderEnd.readsAlike {read : List Char → Option (α × List Char)}
    (stops : StopsAtHolderEnd read) (text : List Char) :
    ReadsAlike (fun text => (read text).map fun found => (found.1, skip found.2) : Rule α) text := by
  unfold ReadsAlike
  cases text with
  | nil => simp only [held, stops.brace, stops.nothing, Option.map_none]
  | cons c rest =>
      have behind := stops.behind (c :: rest)
      change (read ((c :: rest) ++ holderEnd)).map _ = ((read (c :: rest)).map _).map _
      rw [behind]
      cases read (c :: rest) with
      | none => rfl
      | some found => simp only [Option.map_some, skip_append_holderEnd]

theorem readsAlike_pure (value : α) (text : List Char) : ReadsAlike (pure value : Rule α) text :=
  rfl

theorem readsAlike_bind (first : ReadsAlike rule text)
    (second : ∀ value rest, rule text = some (value, rest) → ReadsAlike (next value) rest) :
    ReadsAlike (rule >>= next) text := by
  change (rule (held text)).bind _ = ((rule text).bind _).map _
  rw [first]
  cases read : rule text with
  | none => rfl
  | some found => exact second found.1 found.2 read

theorem readsAlikeOrAll_bind (first : ReadsAlike rule text)
    (second : ∀ value rest, rule text = some (value, rest) → ReadsAlikeOrAll (next value) rest) :
    ReadsAlikeOrAll (rule >>= next) text := by
  cases read : rule text with
  | none =>
      exact Or.inl (readsAlike_bind first fun _ _ found => absurd (read.symm.trans found) (by simp))
  | some found =>
      have readHeld := ReadsAlikeOrAll.read_held (Or.inl first) read
      rcases second found.1 found.2 read with alike | ⟨refused, value, readsAll⟩
      · refine Or.inl (readsAlike_bind first fun value rest again => ?_)
        cases read.symm.trans again
        exact alike
      · refine Or.inr ⟨?_, value, ?_⟩
        · rw [bind_of_read read]
          exact refused
        · rw [bind_of_read readHeld]
          exact readsAll

theorem readsAlikeOrAll_map (alike : ReadsAlikeOrAll rule text) (f : α → β) :
    ReadsAlikeOrAll (rule >>= fun value => pure (f value)) text := by
  rcases alike with same | ⟨refused, value, readsAll⟩
  · exact Or.inl (readsAlike_bind same fun value rest _ => readsAlike_pure (f value) rest)
  · exact Or.inr ⟨bind_of_refused refused, f value, bind_of_read readsAll⟩

theorem readsAlike_orElse (first : ReadsAlike rule text) (second : ReadsAlike other text) :
    ReadsAlike (rule <|> other) text := by
  change (rule (held text) <|> other (held text)) = (rule text <|> other text).map _
  rw [first, second]
  cases rule text <;> rfl

theorem readsAlike_optional (alike : ReadsAlike rule text) : ReadsAlike (optional rule) text := by
  have present : ReadsAlike (some <$> rule) text := by
    change (rule (held text)).bind _ = ((rule text).bind _).map _
    rw [alike]
    cases rule text <;> rfl
  exact readsAlike_orElse present (readsAlike_pure none text)

end Combinators

theorem readsAlike_name (text : List Char) : ReadsAlike name text :=
  stopsAtHolderEnd_readName?.readsAlike text

theorem readsAlike_word {expected : String} (noLineEnd : '\n' ∉ expected.toList)
    (notEmpty : expected.toList ≠ []) (notBrace : expected.toList.head? ≠ some '\x7d')
    (text : List Char) : ReadsAlike (word expected) text := by
  have stops : StopsAtHolderEnd fun text =>
      (afterWord? expected.toList text).map fun rest => ((), rest) := by
    obtain ⟨first, others, isWord⟩ := List.exists_cons_of_ne_nil notEmpty
    refine ⟨by rw [isWord]; rfl, ?_, fun text => ?_⟩
    · have different : '\x7d' ≠ first := fun same => notBrace (isWord ▸ congrArg some same.symm)
      rw [isWord, afterWord?_cons_of_ne different]
      rfl
    · rw [afterWord?_holderEnd noLineEnd]
      cases afterWord? expected.toList text <;> rfl
  have same : (fun text => ((afterWord? expected.toList text).map fun rest => ((), rest)).map
      fun found => (found.1, skip found.2)) = word expected :=
    funext fun text => Option.map_map _ _ _
  exact same ▸ stops.readsAlike text

theorem readsAlike_brace {text : List Char} (notEmpty : text ≠ []) :
    ReadsAlike (word "\x7d") text := by
  obtain ⟨c, rest, rfl⟩ := List.exists_cons_of_ne_nil notEmpty
  by_cases brace : c = '\x7d'
  · subst brace
    exact congrArg (fun rest => some ((), rest)) (skip_append_holderEnd rest)
  · have refused (rest : List Char) : word "\x7d" (c :: rest) = none :=
      congrArg (Option.map _) (afterWord?_cons_of_ne brace [] rest)
    exact (refused (rest ++ holderEnd)).trans (congrArg (Option.map _) (refused rest).symm)

theorem readsAlikeOrAll_brace (text : List Char) : ReadsAlikeOrAll (word "\x7d") text := by
  cases text with
  | nil => exact Or.inr ⟨rfl, (), rfl⟩
  | cons c rest => exact Or.inl (readsAlike_brace (List.cons_ne_nil c rest))

section Repetitions

variable {α : Type} {item : Rule α}

/-- Items are read alike up to where they end. Behind that one more item may take in the rest of the
holder. -/
theorem many_held (nothing : item [] = none) (text : List Char)
    (alike : ∀ part, part.length ≤ text.length → ReadsAlikeOrAll item part) :
    ∃ items rest, many item text = some (items, rest) ∧ rest.length ≤ text.length ∧
      (many item (held text) = some (items, held rest) ∨
        (item rest = none ∧ item (held rest) ≠ none ∧
          ∃ more, many item (held text) = some (more, []))) := by
  have noMore : many item [] = some ([], []) := many_of_refused nothing
  fun_induction many item text with
  | case1 text first behind read shorter ih =>
      obtain ⟨items, rest, others, noLonger, inHolder⟩ :=
        ih fun part within => alike part (by omega)
      have readHeld := (alike text (Nat.le_refl _)).read_held read
      have heldShorter := length_held_lt_iff.mpr shorter
      refine ⟨first :: items, rest, by rw [others]; rfl, by omega, ?_⟩
      rw [many, readHeld]
      dsimp only
      rw [if_pos heldShorter]
      rcases inHolder with readOthers | ⟨refused, goesOn, more, readAll⟩
      · exact Or.inl (by rw [readOthers]; rfl)
      · exact Or.inr ⟨refused, goesOn, first :: more, by rw [readAll]; rfl⟩
  | case2 text first behind read notShorter =>
      have readHeld := (alike text (Nat.le_refl _)).read_held read
      have heldNotShorter := length_held_lt_iff.not.mpr notShorter
      refine ⟨[], text, rfl, Nat.le_refl _, Or.inl ?_⟩
      rw [many, readHeld]
      dsimp only
      rw [if_neg heldNotShorter]
  | case3 text refused =>
      refine ⟨[], text, rfl, Nat.le_refl _, ?_⟩
      rcases alike text (Nat.le_refl _) with same | ⟨_, value, readAll⟩
      · refine Or.inl (many_of_refused ?_)
        rw [same, refused]
        rfl
      · refine Or.inr ⟨refused, by simp [readAll], [value], ?_⟩
        rw [many, readAll]
        dsimp only
        have shorter : ([] : List Char).length < (held text).length :=
          List.length_pos_iff.mpr (held_ne_nil text)
        rw [if_pos shorter, noMore]
        rfl

theorem readsAlike_many (nothing : item [] = none) (alike : ∀ part, ReadsAlike item part)
    (text : List Char) : ReadsAlike (many item) text := by
  obtain ⟨items, rest, read, -, readHeld | ⟨refused, goesOn, -⟩⟩ :=
    many_held nothing text fun part _ => Or.inl (alike part)
  · rw [ReadsAlike, read, readHeld]
    rfl
  · rw [alike rest, refused] at goesOn
    exact absurd rfl goesOn

section Closing

variable {β : Type} {next : List α → Rule β} (nothing : item [] = none)
  (leftOpen : ∀ items, next items [] = none)
  (ends : ∀ items part, next items part ≠ none → item (held part) = none)

include nothing leftOpen ends

/-- What has to follow the items decides where they end: an item that takes in the rest of the
holder does not stand in front of it. -/
theorem readsAlike_or_many_held (text : List Char)
    (alike : ∀ part, part.length ≤ text.length → ReadsAlikeOrAll item part) :
    ReadsAlike (many item >>= next) text ∨
      ∃ items rest, many item text = some (items, rest) ∧
        many item (held text) = some (items, held rest) := by
  obtain ⟨items, rest, read, -, readHeld | ⟨-, goesOn, more, readAll⟩⟩ := many_held nothing text alike
  · exact Or.inr ⟨items, rest, read, readHeld⟩
  · refine Or.inl ?_
    have refused : next items rest = none :=
      Classical.byContradiction fun closed => goesOn (ends items rest closed)
    unfold ReadsAlike
    rw [bind_of_read read, bind_of_read readAll, refused, leftOpen]
    rfl

theorem readsAlike_many_bind (text : List Char)
    (alike : ∀ part, part.length ≤ text.length → ReadsAlikeOrAll item part)
    (nextAlike : ∀ items part, ReadsAlike (next items) part) :
    ReadsAlike (many item >>= next) text := by
  rcases readsAlike_or_many_held nothing leftOpen ends text alike with same | ⟨_, _, read, readHeld⟩
  · exact same
  · unfold ReadsAlike
    rw [bind_of_read read, bind_of_read readHeld]
    exact nextAlike _ _

theorem readsAlikeOrAll_many_bind (text : List Char)
    (alike : ∀ part, part.length ≤ text.length → ReadsAlikeOrAll item part)
    (nextAlike : ∀ items part, ReadsAlikeOrAll (next items) part) :
    ReadsAlikeOrAll (many item >>= next) text := by
  rcases readsAlike_or_many_held nothing leftOpen ends text alike with
    same | ⟨items, rest, read, readHeld⟩
  · exact Or.inl same
  · unfold ReadsAlikeOrAll ReadsAlike
    rw [bind_of_read read, bind_of_read readHeld]
    exact nextAlike items rest

theorem readsAlike_manyOne_bind (alike : ∀ part, ReadsAlikeOrAll item part)
    (nextAlike : ∀ items part, ReadsAlike (next items) part) (text : List Char) :
    ReadsAlike (manyOne item >>= next) text := by
  have others (first : α) (rest : List Char) :
      ReadsAlike (many item >>= fun others => next (first :: others)) rest :=
    readsAlike_many_bind nothing (fun others => leftOpen (first :: others))
      (fun others => ends (first :: others)) rest (fun part _ => alike part)
      fun others => nextAlike (first :: others)
  have unfolded : (manyOne item >>= next) =
      item >>= fun first => many item >>= fun others => next (first :: others) := by
    simp only [manyOne, bind_assoc, pure_bind]
  rw [unfolded]
  rcases alike text with same | ⟨refused, value, readAll⟩
  · exact readsAlike_bind same fun first rest _ => others first rest
  · unfold ReadsAlike
    rw [bind_of_refused refused, bind_of_read readAll, bind_of_read (many_of_refused nothing), leftOpen]
    rfl

end Closing

end Repetitions

/-! ### Values and directives -/

def namedConstant : Rule (String × Value) := do
  let found ← name
  word ":"
  let value ← constant
  return (found, value)

theorem length_lt_of_readFieldName? {text rest : List Char} {found : String}
    (read : readFieldName? text = some (found, rest)) : rest.length < text.length := by
  obtain ⟨⟨first, afterName⟩, readName, readColon⟩ := Option.bind_eq_some_iff.mp read
  obtain ⟨behind, isColon, same⟩ := Option.bind_eq_some_iff.mp readColon
  cases same
  have atColon := congrArg List.length (append_of_afterWord? isColon)
  have skipped := length_skip_le afterName
  have behindSkipped := length_skip_le behind
  have named := (readName?_suffix readName).length_le
  rw [List.length_append, List.length_singleton] at atColon
  omega

theorem namedConstant_eq (text : List Char) :
    namedConstant text = (readFieldName? text).bind fun field =>
      (readValue? field.2).map fun value => ((field.1, value.1), value.2) := by
  have colon : ":".toList = [':'] := rfl
  change ((readName? text).map _).bind _ = ((readName? text).bind _).bind _
  cases readName? text with
  | none => rfl
  | some found =>
      change (word ":" (skip found.2)).bind _ = ((afterWord? [':'] (skip found.2)).bind _).bind _
      rw [word, colon]
      cases afterWord? [':'] (skip found.2) with
      | none => rfl
      | some rest =>
          change (readValue? (skip rest)).bind _ = (readValue? (skip rest)).map _
          cases readValue? (skip rest) <;> rfl

theorem many_constant (text : List Char) : many constant text = some (readItems text) := by
  fun_induction many constant text with
  | case1 text first behind read shorter ih =>
      rw [ih, Option.map_some]
      exact congrArg some (readItems_cons read shorter rfl).symm
  | case2 text first behind read notShorter =>
      have readValue : readValue? text = some (first, behind) := read
      rw [readItems, readValue]
      dsimp only
      rw [if_neg notShorter]
  | case3 text refused =>
      have noValue : readValue? text = none := refused
      rw [readItems, noValue]

theorem many_namedConstant (text : List Char) :
    many namedConstant text = some (readFields text) := by
  fun_induction many namedConstant text with
  | case1 text first behind read shorter ih =>
      rw [namedConstant_eq] at read
      obtain ⟨⟨found, afterName⟩, isName, readRest⟩ := Option.bind_eq_some_iff.mp read
      obtain ⟨⟨value, afterValue⟩, isValue, same⟩ := Option.map_eq_some_iff.mp readRest
      cases same
      rw [ih, Option.map_some]
      exact congrArg some
        (readFields_cons isName isValue (length_lt_of_readFieldName? isName) shorter rfl).symm
  | case2 text first behind read notShorter =>
      rw [namedConstant_eq] at read
      obtain ⟨⟨found, afterName⟩, isName, readRest⟩ := Option.bind_eq_some_iff.mp read
      obtain ⟨⟨value, afterValue⟩, isValue, same⟩ := Option.map_eq_some_iff.mp readRest
      cases same
      rw [readFields, isName]
      dsimp only
      rw [isValue]
      dsimp only
      rw [if_neg notShorter, if_pos (length_lt_of_readFieldName? isName)]
  | case3 text refused =>
      rw [namedConstant_eq] at refused
      rw [readFields]
      cases isName : readFieldName? text with
      | none => rfl
      | some field =>
          rw [isName] at refused
          have noValue : readValue? field.2 = none := Option.map_eq_none_iff.mp refused
          dsimp only
          rw [noValue, if_pos (length_lt_of_readFieldName? isName)]

def listBody : Rule Value := do
  let items ← many constant
  word "]"
  return .list items

def objectBody : Rule Value := do
  let fields ← many namedConstant
  word "\x7d"
  return .ofFields fields

theorem constant_bracket (inside : List Char) :
    constant ('[' :: inside) = listBody (skip inside) := by
  have closer : "]".toList = [']'] := rfl
  rw [constant, readValue?_bracket, listBody, bind_of_read (many_constant (skip inside))]
  change _ = (word "]" (readItems (skip inside)).2).bind _
  rw [word, closer]
  cases afterWord? [']'] (readItems (skip inside)).2 <;> rfl

theorem constant_brace (inside : List Char) :
    constant ('\x7b' :: inside) = objectBody (skip inside) := by
  have closer : "\x7d".toList = ['\x7d'] := rfl
  rw [constant, readValue?_brace, objectBody, bind_of_read (many_namedConstant (skip inside))]
  change _ = (word "\x7d" (readFields (skip inside)).2).bind _
  rw [word, closer]
  cases afterWord? ['\x7d'] (readFields (skip inside)).2 <;> rfl

theorem constant_of_head? {text : List Char} (notBracket : text.head? ≠ some '[')
    (notBrace : text.head? ≠ some '\x7b') :
    constant text = (readScalar? text).map fun found => (found.1, skip found.2) :=
  readValue?_of_head? notBracket notBrace

theorem constant_nil : constant [] = none :=
  constant_of_head? (by decide) (by decide)

theorem readsAlike_listBody {text : List Char}
    (parts : ∀ part, part.length ≤ text.length → ReadsAlikeOrAll constant part) :
    ReadsAlike listBody text := by
  refine readsAlike_many_bind constant_nil (fun _ => rfl) (fun items part closed => ?_) text parts
    fun items part => ?_
  · have stands := head?_of_word (fun refused => closed (bind_of_refused refused)) (by decide)
    obtain ⟨rest, rfl⟩ := List.head?_eq_some_iff.mp stands
    exact readValue?_eq_none (by decide) (by decide) (by decide) (by decide) _
  · exact readsAlike_bind (readsAlike_word (by decide) (by decide) (by decide) part)
      fun _ rest _ => readsAlike_pure _ rest

theorem length_le_of_name {text rest : List Char} {found : String}
    (read : name text = some (found, rest)) : rest.length ≤ text.length := by
  obtain ⟨⟨_, behind⟩, isName, same⟩ := Option.map_eq_some_iff.mp read
  cases same
  exact ((skip_suffix behind).trans (readName?_suffix isName)).length_le

theorem length_le_of_word {text rest : List Char} {expected : String}
    (read : word expected text = some ((), rest)) : rest.length ≤ text.length := by
  obtain ⟨behind, isWord, same⟩ := Option.map_eq_some_iff.mp read
  cases same
  exact ((skip_suffix behind).trans (afterWord?_suffix isWord)).length_le

theorem readsAlikeOrAll_behindName {β : Type} {next : String → Rule β} {text : List Char}
    (parts : ∀ found part, part.length ≤ text.length → ReadsAlikeOrAll (next found) part) :
    ReadsAlikeOrAll (do let found ← name; word ":"; next found) text := by
  refine readsAlikeOrAll_bind (readsAlike_name text) fun found afterName isName => ?_
  refine readsAlikeOrAll_bind (readsAlike_word (by decide) (by decide) (by decide) afterName)
    fun _ afterColon isColon => ?_
  have behindName := length_le_of_name isName
  have behindColon := length_le_of_word isColon
  exact parts found afterColon (by omega)

theorem readsAlikeOrAll_objectBody {text : List Char}
    (parts : ∀ part, part.length ≤ text.length → ReadsAlikeOrAll constant part) :
    ReadsAlikeOrAll objectBody text := by
  refine readsAlikeOrAll_many_bind rfl (fun _ => rfl) (fun fields part closed => ?_) text
    (fun part within => ?_) fun fields part => ?_
  · have stands := head?_of_word (fun refused => closed (bind_of_refused refused)) (by decide)
    obtain ⟨rest, rfl⟩ := List.head?_eq_some_iff.mp stands
    rfl
  · exact readsAlikeOrAll_behindName fun found inner shorter =>
      readsAlikeOrAll_map (parts inner (Nat.le_trans shorter within)) (Prod.mk found)
  · exact readsAlikeOrAll_map (readsAlikeOrAll_brace part) fun _ => Value.ofFields fields

theorem readsAlikeOrAll_constant (text : List Char) : ReadsAlikeOrAll constant text := by
  cases text with
  | nil =>
      refine Or.inl ?_
      have brace : constant ['\x7d'] = none :=
        readValue?_eq_none (by decide) (by decide) (by decide) (by decide) []
      rw [ReadsAlike, held, brace, constant_nil]
      rfl
  | cons c inside =>
      have parts (part : List Char) (within : part.length ≤ (skip inside).length) :
          ReadsAlikeOrAll constant part :=
        readsAlikeOrAll_constant part
      have inHolder : held (c :: inside) = c :: (inside ++ holderEnd) := rfl
      unfold ReadsAlikeOrAll ReadsAlike
      rw [inHolder]
      by_cases bracket : c = '['
      · subst bracket
        rw [constant_bracket, constant_bracket, skip_append_holderEnd]
        exact Or.inl (readsAlike_listBody parts)
      by_cases brace : c = '\x7b'
      · subst brace
        rw [constant_brace, constant_brace, skip_append_holderEnd]
        exact readsAlikeOrAll_objectBody parts
      have notBracket (rest : List Char) : (c :: rest).head? ≠ some '[' :=
        fun same => bracket (Option.some.inj same)
      have notBrace (rest : List Char) : (c :: rest).head? ≠ some '\x7b' :=
        fun same => brace (Option.some.inj same)
      rw [constant_of_head? (notBracket _) (notBrace _), constant_of_head? (notBracket _) (notBrace _)]
      exact Or.inl (stopsAtHolderEnd_readScalar?.readsAlike (c :: inside))
termination_by text.length
decreasing_by
  have := length_skip_le inside
  rw [List.length_cons]
  omega

/-- The arguments of a directive end with a parenthesis, so none of them takes in the holder. -/
theorem readsAlike_directive (text : List Char) : ReadsAlike directive text := by
  refine readsAlike_bind (readsAlike_word (by decide) (by decide) (by decide) text)
    fun _ afterMark _ => ?_
  refine readsAlike_bind (readsAlike_name afterMark) fun _ afterName _ => ?_
  refine readsAlike_bind (readsAlike_optional ?_) fun _ rest _ => readsAlike_pure () rest
  refine readsAlike_bind (readsAlike_word (by decide) (by decide) (by decide) afterName)
    fun _ inside _ => ?_
  refine readsAlike_manyOne_bind rfl (fun _ => rfl) (fun _ part closed => ?_) (fun part => ?_)
    (fun _ part => ?_) inside
  · obtain ⟨rest, rfl⟩ := List.head?_eq_some_iff.mp (head?_of_word closed (by decide))
    rfl
  · exact readsAlikeOrAll_behindName fun _ inner _ => readsAlikeOrAll_constant inner
  · exact readsAlike_word (by decide) (by decide) (by decide) part

end SchemaEvolution.Grammar
