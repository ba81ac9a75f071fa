/-!
Maps from names to values, held in name order. Names are ordered by code point, and a name that is
written twice keeps its last value. `NameMap.ofList` and `NameMap.get?` are the two ways in and out.
-/

namespace SchemaEvolution

def insertEntry {α : Type} (name : String) (value : α) : List (String × α) → List (String × α)
  | [] => [(name, value)]
  | (other, held) :: rest =>
      if name < other then (name, value) :: (other, held) :: rest
      else if other < name then (other, held) :: insertEntry name value rest
      else (name, value) :: rest

def sortEntries {α : Type} (entries : List (String × α)) : List (String × α) :=
  entries.foldl (fun sorted entry => insertEntry entry.1 entry.2 sorted) []

/-- Every name is smaller than all the names after it, so no name stands twice. -/
def EntriesAscend {α : Type} (entries : List (String × α)) : Prop :=
  entries.Pairwise (fun earlier later => earlier.1 < later.1)

theorem mem_insertEntry {α : Type} {name : String} {value : α} {entry : String × α}
    {entries : List (String × α)} (member : entry ∈ insertEntry name value entries) :
    entry = (name, value) ∨ entry ∈ entries := by
  induction entries with
  | nil => simpa [insertEntry] using member
  | cons head rest ih =>
      obtain ⟨other, held⟩ := head
      unfold insertEntry at member
      split at member
      · simpa using member
      · split at member
        · rcases List.mem_cons.mp member with atHead | inRest
          · exact Or.inr (by simp [atHead])
          · rcases ih inRest with inserted | kept
            · exact Or.inl inserted
            · exact Or.inr (List.mem_cons_of_mem _ kept)
        · rcases List.mem_cons.mp member with atHead | inRest
          · exact Or.inl atHead
          · exact Or.inr (List.mem_cons_of_mem _ inRest)

theorem EntriesAscend.insertEntry {α : Type} {entries : List (String × α)}
    (ascend : EntriesAscend entries) (name : String) (value : α) :
    EntriesAscend (insertEntry name value entries) := by
  induction entries with
  | nil => simp [SchemaEvolution.insertEntry, EntriesAscend]
  | cons head rest ih =>
      obtain ⟨other, held⟩ := head
      have headFirst := (List.pairwise_cons.mp ascend).1
      have restAscend : EntriesAscend rest := (List.pairwise_cons.mp ascend).2
      unfold SchemaEvolution.insertEntry
      split
      · rename_i before
        refine List.pairwise_cons.mpr ⟨fun entry member => ?_, ascend⟩
        rcases List.mem_cons.mp member with atHead | inRest
        · simpa [atHead] using before
        · exact String.lt_trans before (headFirst entry inRest)
      · split
        · rename_i after
          refine List.pairwise_cons.mpr ⟨fun entry member => ?_, ih restAscend⟩
          rcases mem_insertEntry member with inserted | kept
          · simpa [inserted] using after
          · exact headFirst entry kept
        · rename_i notBefore notAfter
          have same : name = other :=
            String.le_antisymm (String.not_lt.mp notAfter) (String.not_lt.mp notBefore)
          refine List.pairwise_cons.mpr ⟨fun entry member => ?_, restAscend⟩
          simpa [same] using headFirst entry member

theorem entriesAscend_sortEntries {α : Type} (entries : List (String × α)) :
    EntriesAscend (sortEntries entries) := by
  suffices ∀ sorted : List (String × α), EntriesAscend sorted →
      EntriesAscend (entries.foldl (fun sorted entry => insertEntry entry.1 entry.2 sorted) sorted)
    from this [] List.Pairwise.nil
  induction entries with
  | nil => exact fun _ ascend => ascend
  | cons entry rest ih => exact fun _ ascend => ih _ (ascend.insertEntry entry.1 entry.2)

structure NameMap (α : Type) where
  entries : List (String × α)
  ascend : EntriesAscend entries
  deriving DecidableEq

namespace NameMap

variable {α : Type}

def empty : NameMap α :=
  ⟨[], List.Pairwise.nil⟩

instance : Inhabited (NameMap α) :=
  ⟨empty⟩

instance : EmptyCollection (NameMap α) :=
  ⟨empty⟩

def insert (map : NameMap α) (name : String) (value : α) : NameMap α :=
  ⟨insertEntry name value map.entries, map.ascend.insertEntry name value⟩

/-- The map of the entries; the last entry of a name counts. -/
def ofList (entries : List (String × α)) : NameMap α :=
  ⟨sortEntries entries, entriesAscend_sortEntries entries⟩

/-- The items under the names that `name` reads off them; the last item of a name counts. -/
def index (name : α → String) (items : List α) : NameMap α :=
  ofList (items.map fun item => (name item, item))

def get? (map : NameMap α) (name : String) : Option α :=
  map.entries.lookup name

def contains (map : NameMap α) (name : String) : Bool :=
  (map.get? name).isSome

def size (map : NameMap α) : Nat :=
  map.entries.length

def names (map : NameMap α) : List String :=
  map.entries.map Prod.fst

def values (map : NameMap α) : List α :=
  map.entries.map Prod.snd

end NameMap

end SchemaEvolution
