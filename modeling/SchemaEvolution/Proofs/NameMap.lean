import Mathlib.Data.List.Nodup
import Mathlib.Data.List.Perm.Subperm
import SchemaEvolution.NameMap

/-!
What can be looked up in a map from names. An insertion is seen under its own name only, the entries
are just what lookups find, and an index finds the last item of each name.
-/

namespace SchemaEvolution

variable {α : Type}

private theorem ne_of_name_lt {left right : String} (before : left < right) : left ≠ right := by
  intro same
  subst same
  exact String.lt_irrefl left before

private theorem lookup_cons_name (name key : String) (value : α) (rest : List (String × α)) :
    ((name, value) :: rest).lookup key = if key = name then some value else rest.lookup key := by
  by_cases own : key = name
  · simp [own]
  · simp [List.lookup_cons, beq_eq_decide, own]

theorem lookup_insertEntry (name key : String) (value : α) (entries : List (String × α)) :
    (insertEntry name value entries).lookup key =
      if key = name then some value else entries.lookup key := by
  induction entries with
  | nil => exact lookup_cons_name name key value []
  | cons head rest ih =>
      obtain ⟨other, held⟩ := head
      unfold insertEntry
      split
      · exact lookup_cons_name name key value _
      · split
        · rename_i after
          have different : other ≠ name := ne_of_name_lt after
          rw [lookup_cons_name, lookup_cons_name, ih]
          by_cases atHead : key = other
          · simp [atHead, different]
          · simp [atHead]
        · rename_i notBefore notAfter
          have same : name = other :=
            String.le_antisymm (String.not_lt.mp notAfter) (String.not_lt.mp notBefore)
          subst same
          rw [lookup_cons_name, lookup_cons_name]
          by_cases own : key = name
          · simp [own]
          · simp [own]

/-- The last entry of a name is the one that counts. -/
theorem lookup_sortEntries (key : String) (entries : List (String × α)) :
    (sortEntries entries).lookup key = entries.reverse.lookup key := by
  suffices ∀ sorted : List (String × α),
      (entries.foldl (fun sorted entry => insertEntry entry.1 entry.2 sorted) sorted).lookup key =
        (entries.reverse.lookup key).or (sorted.lookup key) by
    simpa [sortEntries] using this []
  induction entries with
  | nil => intro sorted; simp
  | cons entry rest ih =>
      intro sorted
      obtain ⟨name, value⟩ := entry
      rw [List.foldl_cons, ih, lookup_insertEntry, List.reverse_cons, List.lookup_append,
        lookup_cons_name, Option.or_assoc]
      by_cases own : key = name
      · simp [own]
      · simp [own]

theorem mem_of_mem_sortEntries {entry : String × α} {entries : List (String × α)}
    (member : entry ∈ sortEntries entries) : entry ∈ entries := by
  suffices ∀ sorted : List (String × α),
      entry ∈ entries.foldl (fun sorted entry => insertEntry entry.1 entry.2 sorted) sorted →
        entry ∈ sorted ∨ entry ∈ entries by
    simpa using this [] member
  clear member
  induction entries with
  | nil => exact fun _ member => Or.inl member
  | cons first rest ih =>
      intro sorted member
      rcases ih _ member with inSorted | inRest
      · rcases mem_insertEntry inSorted with rfl | before
        · exact Or.inr List.mem_cons_self
        · exact Or.inl before
      · exact Or.inr (List.mem_cons_of_mem _ inRest)

theorem insertEntry_of_last {name : String} {entries : List (String × α)}
    (last : ∀ entry ∈ entries, entry.1 < name) (value : α) :
    insertEntry name value entries = entries ++ [(name, value)] := by
  induction entries with
  | nil => rfl
  | cons head rest ih =>
      obtain ⟨headBefore, restBefore⟩ := List.forall_mem_cons.mp last
      rw [insertEntry, if_neg (String.lt_asymm headBefore), if_pos headBefore, ih restBefore]
      rfl

/-- Entries in name order stay as they are. -/
theorem sortEntries_of_ascend {entries : List (String × α)} (ascend : EntriesAscend entries) :
    sortEntries entries = entries := by
  suffices ∀ sorted : List (String × α), EntriesAscend (sorted ++ entries) →
      entries.foldl (fun sorted entry => insertEntry entry.1 entry.2 sorted) sorted =
        sorted ++ entries from
    this [] ascend
  clear ascend
  induction entries with
  | nil => exact fun sorted _ => (List.append_nil sorted).symm
  | cons first rest ih =>
      intro sorted ascend
      have before : ∀ entry ∈ sorted, entry.1 < first.1 := fun entry member =>
        (List.pairwise_append.mp ascend).2.2 entry member first List.mem_cons_self
      rw [List.append_cons] at ascend ⊢
      rw [List.foldl_cons, insertEntry_of_last before]
      exact ih _ ascend

theorem EntriesAscend.lookup_eq_some_iff {entries : List (String × α)}
    (ascend : EntriesAscend entries) (key : String) (value : α) :
    entries.lookup key = some value ↔ (key, value) ∈ entries := by
  induction entries with
  | nil => simp
  | cons head rest ih =>
      obtain ⟨name, held⟩ := head
      have headFirst := (List.pairwise_cons.mp ascend).1
      have inRest := ih (List.pairwise_cons.mp ascend).2
      rw [lookup_cons_name, List.mem_cons]
      by_cases own : key = name
      · subst own
        have absent : (key, value) ∉ rest := fun member =>
          ne_of_name_lt (headFirst _ member) rfl
        simp [absent, eq_comm]
      · simp [own, inRest]

theorem EntriesAscend.nodup_names {entries : List (String × α)}
    (ascend : EntriesAscend entries) : (entries.map Prod.fst).Nodup :=
  List.Pairwise.map Prod.fst (fun _ _ before => ne_of_name_lt before) ascend

namespace NameMap

theorem mem_entries_iff (map : NameMap α) (name : String) (value : α) :
    (name, value) ∈ map.entries ↔ map.get? name = some value :=
  (map.ascend.lookup_eq_some_iff name value).symm

theorem mem_flatMap_entries_iff {β : Type} (map : NameMap α) (items : String × α → List β)
    (item : β) :
    item ∈ map.entries.flatMap items ↔
      ∃ name value, map.get? name = some value ∧ item ∈ items (name, value) := by
  simp only [List.mem_flatMap, Prod.exists, mem_entries_iff]

theorem mem_values_of_get? {map : NameMap α} {name : String} {value : α}
    (found : map.get? name = some value) : value ∈ map.values :=
  List.mem_map.mpr ⟨(name, value), (map.mem_entries_iff name value).mpr found, rfl⟩

theorem exists_get?_of_mem_values {map : NameMap α} {value : α} (member : value ∈ map.values) :
    ∃ name, map.get? name = some value := by
  obtain ⟨⟨name, held⟩, inEntries, rfl⟩ := List.mem_map.mp member
  exact ⟨name, (map.mem_entries_iff name held).mp inEntries⟩

theorem mem_names_iff (map : NameMap α) (name : String) :
    name ∈ map.names ↔ ∃ value, map.get? name = some value := by
  simp only [names, List.mem_map, Prod.exists, mem_entries_iff]
  constructor
  · rintro ⟨other, value, found, rfl⟩
    exact ⟨value, found⟩
  · rintro ⟨value, found⟩
    exact ⟨name, value, found, rfl⟩

theorem contains_eq_false_iff (map : NameMap α) (name : String) :
    map.contains name = false ↔ map.get? name = none := by
  simp [contains]

/-- A map with at least the names of another is at least as large. -/
theorem size_le_of_names {β : Type} {smaller : NameMap α} {larger : NameMap β}
    (kept : ∀ name value, smaller.get? name = some value → ∃ other, larger.get? name = some other) :
    smaller.size ≤ larger.size := by
  have subset : smaller.names ⊆ larger.names := by
    intro name member
    obtain ⟨value, found⟩ := (smaller.mem_names_iff name).mp member
    exact (larger.mem_names_iff name).mpr (kept name value found)
  have bounded := (List.subperm_of_subset smaller.ascend.nodup_names subset).length_le
  simpa [names, size] using bounded

theorem get?_insert (map : NameMap α) (name key : String) (value : α) :
    (map.insert name value).get? key = if key = name then some value else map.get? key :=
  lookup_insertEntry name key value map.entries

/-- A map is known by its lookups. -/
theorem ext_get? {left right : NameMap α} (same : ∀ name, left.get? name = right.get? name) :
    left = right := by
  have members (entry : String × α) : entry ∈ left.entries ↔ entry ∈ right.entries := by
    rw [left.mem_entries_iff, right.mem_entries_iff, same]
  have nodup (map : NameMap α) : map.entries.Nodup :=
    List.Nodup.of_map Prod.fst map.ascend.nodup_names
  have perm : left.entries.Perm right.entries :=
    (List.perm_ext_iff_of_nodup (nodup left) (nodup right)).mpr members
  have entries : left.entries = right.entries :=
    perm.eq_of_pairwise (fun _ _ _ _ before after =>
      absurd (String.lt_trans before after) (String.lt_irrefl _)) left.ascend right.ascend
  cases left
  cases right
  cases entries
  rfl

/-- Of items of one name the last is found. -/
theorem get?_index (name : α → String) (items : List α) (key : String) :
    (index name items).get? key = items.reverse.find? fun item => key == name item := by
  change (sortEntries (items.map fun item => (name item, item))).lookup key = _
  rw [lookup_sortEntries, ← List.map_reverse]
  induction items.reverse with
  | nil => rfl
  | cons item rest ih =>
      rw [List.map_cons, List.lookup_cons, List.find?_cons, ih]

theorem mem_of_get?_index {name : α → String} {items : List α} {key : String} {item : α}
    (found : (index name items).get? key = some item) : item ∈ items := by
  rw [get?_index] at found
  exact List.mem_reverse.mp (List.mem_of_find?_eq_some found)

theorem exists_get?_index (name : α → String) {items : List α} {item : α} (member : item ∈ items) :
    ∃ found, (index name items).get? (name item) = some found := by
  rw [get?_index, ← Option.isSome_iff_exists, List.find?_isSome]
  exact ⟨item, List.mem_reverse.mpr member, beq_self_eq_true _⟩

theorem name_of_get?_index {name : α → String} {items : List α} {key : String} {item : α}
    (found : (index name items).get? key = some item) : name item = key := by
  rw [get?_index] at found
  have matched := List.find?_some found
  exact (beq_iff_eq.mp matched).symm

theorem mem_map_of_get?_index {name : α → String} {items : List α} {key : String} {item : α}
    (found : (index name items).get? key = some item) : key ∈ items.map name := by
  rw [← name_of_get?_index found]
  exact List.mem_map_of_mem (mem_of_get?_index found)

theorem get?_index_eq_none_iff (name : α → String) (items : List α) (key : String) :
    (index name items).get? key = none ↔ key ∉ items.map name := by
  rw [← Option.not_isSome_iff_eq_none, Option.isSome_iff_exists, not_iff_not]
  constructor
  · rintro ⟨item, found⟩
    exact mem_map_of_get?_index found
  · intro member
    obtain ⟨item, inItems, rfl⟩ := List.mem_map.mp member
    exact exists_get?_index name inItems

theorem mem_names_index_iff (name : α → String) (items : List α) (key : String) :
    key ∈ (index name items).names ↔ key ∈ items.map name := by
  rw [mem_names_iff, ← Option.isSome_iff_exists, Option.isSome_iff_ne_none, Ne,
    get?_index_eq_none_iff, not_not]

/-- A map whose values stand under their own names is the index of its values. -/
theorem index_values {name : α → String} {map : NameMap α}
    (keyed : ∀ key value, map.get? key = some value → name value = key) :
    index name map.values = map := by
  have entries : (map.values.map fun value => (name value, value)) = map.entries := by
    rw [values, List.map_map]
    refine (List.map_congr_left ?_).trans (List.map_id map.entries)
    rintro ⟨key, value⟩ member
    have own := keyed key value ((map.mem_entries_iff key value).mp member)
    exact congrArg (·, value) own
  have sorted : (index name map.values).entries = map.entries :=
    (congrArg sortEntries entries).trans (sortEntries_of_ascend map.ascend)
  exact ext_get? fun key => congrArg (List.lookup key) sorted

/-- An item under an unused name is found there, and hides no other. -/
theorem get?_index_insert (name : α → String) {before after : List α} {item : α}
    (unused : name item ∉ (before ++ after).map name) (key : String) :
    (index name (before ++ item :: after)).get? key =
      if key = name item then some item else (index name (before ++ after)).get? key := by
  by_cases own : key = name item
  · subst own
    rw [List.map_append, List.mem_append, not_or, ← get?_index_eq_none_iff name after,
      get?_index] at unused
    rw [get?_index, List.reverse_append, List.find?_append, List.reverse_cons, List.find?_append,
      unused.2]
    simp
  · simp [get?_index, own]

/-- Items of one name are lost together, and all others are found as before. -/
theorem get?_index_filter (name : α → String) (items : List α) (key other : String) :
    (index name (items.filter fun item => name item ≠ key)).get? other =
      if other = key then none else (index name items).get? other := by
  rw [get?_index, get?_index, ← List.filter_reverse, List.find?_filter]
  split
  · rename_i own
    subst own
    rw [List.find?_eq_none]
    intro item _ matched
    simp only [decide_eq_true_eq, beq_iff_eq] at matched
    exact matched.1 matched.2.symm
  · rename_i different
    congr 1
    funext item
    by_cases named : other = name item
    · simp [← named, different]
    · simp [named]

end NameMap

end SchemaEvolution
