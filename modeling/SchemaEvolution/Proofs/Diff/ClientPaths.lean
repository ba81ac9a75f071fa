import Mathlib
import SchemaEvolution.Proofs.Diff.Reachable

/-!
Paths of field selections, as clients write them in queries. A comparison without a break keeps
every path from a root, step by step, up to a root whose name has changed: such a type may have been
compared with another new type than the one on which the path stands.
-/

namespace SchemaEvolution

/-- A path of field names that clients may select one after another; each step stands on a type that
is not exempt. -/
inductive Document.ValidPath (document : Document) : String → List String → Prop
  | stop {start : String} : ValidPath document start []
  | select {start name : String} {field : Field} {rest : List String} :
      Diff.isExempt start = false → document.field? start name = some field →
      ValidPath document field.type.name rest → ValidPath document start (name :: rest)

namespace Diff

/-- The path can be selected from both starts, with a compatible type at every step, and leads to
the two ends. -/
inductive KeptPath (oldDocument newDocument : Document) :
    String → String → List String → String → String → Prop
  | stop {oldStart newStart : String} :
      KeptPath oldDocument newDocument oldStart newStart [] oldStart newStart
  | select {oldStart newStart name : String} {oldField newField : Field} {rest : List String}
      {oldEnd newEnd : String} :
      oldDocument.field? oldStart name = some oldField →
      newDocument.field? newStart name = some newField →
      oldField.type.mismatch newField.type = none →
      KeptPath oldDocument newDocument oldField.type.name newField.type.name rest oldEnd newEnd →
      KeptPath oldDocument newDocument oldStart newStart (name :: rest) oldEnd newEnd

/-- The root of an operation that both schemas offer, under another name in the new one. -/
def RenamedRoot (oldDocument newDocument : Document) (name : String) : Prop :=
  ∃ operation newRoot, oldDocument.root? operation = some name ∧
    newDocument.root? operation = some newRoot ∧ newRoot ≠ name

/-- The old type was compared, but not with that new one, which takes a root of another name. -/
def Crossed (options : Options) (oldDocument newDocument : Document) (oldName newName : String) :
    Prop :=
  (∃ other, (oldName, other) ∈ comparisons options oldDocument newDocument ∧ other ≠ newName) ∧
    RenamedRoot oldDocument newDocument oldName

variable {options : Options} {oldDocument newDocument : Document}

theorem not_renamedRoot_of_sameRoots (sameRoots : SameRoots oldDocument newDocument)
    (name : String) : ¬RenamedRoot oldDocument newDocument name := by
  rintro ⟨operation, newRoot, isOld, isNew, different⟩
  exact different (sameRoots operation name newRoot isOld isNew).symm

/-- The two names on which a path stands are alike, or roots of one operation. -/
private theorem crossed_of_other {oldName newName other : String}
    (clean : (diff options oldDocument newDocument).breakingCount = .ok 0)
    (standing : oldName = newName ∨ ∃ operation, oldDocument.root? operation = some oldName ∧
      newDocument.root? operation = some newName)
    (compared : (oldName, other) ∈ comparisons options oldDocument newDocument)
    (different : other ≠ newName) :
    Crossed options oldDocument newDocument oldName newName := by
  refine ⟨⟨other, compared, different⟩, ?_⟩
  by_cases same : other = oldName
  · subst same
    rcases standing with alike | ⟨operation, oldRoot, newRoot⟩
    · exact absurd alike different
    · exact ⟨operation, newName, oldRoot, newRoot, different.symm⟩
  · rcases eq_or_root_of_mem_comparisons clean compared with alike | ⟨operation, oldRoot, newRoot⟩
    · exact absurd alike.symm same
    · exact ⟨operation, other, oldRoot, newRoot, same⟩

private theorem kept_or_crossed
    (clean : (diff options oldDocument newDocument).breakingCount = .ok 0)
    {oldStart newStart : String} {path : List String}
    (valid : oldDocument.ValidPath oldStart path)
    (known : ∃ other, (oldStart, other) ∈ comparisons options oldDocument newDocument)
    (standing : oldStart = newStart ∨ ∃ operation, oldDocument.root? operation = some oldStart ∧
      newDocument.root? operation = some newStart) :
    (∃ oldEnd newEnd, KeptPath oldDocument newDocument oldStart newStart path oldEnd newEnd) ∨
      ∃ taken rest oldStop newStop, path = taken ++ rest ∧ rest ≠ [] ∧
        KeptPath oldDocument newDocument oldStart newStart taken oldStop newStop ∧
        Crossed options oldDocument newDocument oldStop newStop := by
  induction valid generalizing newStart with
  | @stop start => exact Or.inl ⟨start, newStart, .stop⟩
  | @select start name oldField rest notExempt selected _ ih =>
      obtain ⟨other, compared⟩ := known
      by_cases met : other = newStart
      · subst met
        have quiet := quiet_of_mem_comparisons clean compared
        obtain ⟨old, oldFound⟩ := Document.type?_of_field? selected
        obtain ⟨newField, newSelected, meeting⟩ :=
          exists_field_of_quiet quiet notExempt oldFound selected
        have compatible := (meeting.keeps quiet).type
        have further := exists_comparison_of_leadsTo compared (.field meeting)
        rcases ih further (Or.inl (TypeRef.name_eq_of_mismatch compatible)) with
          ⟨oldEnd, newEnd, kept⟩ | ⟨taken, left, oldStop, newStop, split, more, kept, crossed⟩
        · exact Or.inl ⟨oldEnd, newEnd, .select selected newSelected compatible kept⟩
        · refine Or.inr ⟨name :: taken, left, oldStop, newStop, ?_, more, ?_, crossed⟩
          · rw [split, List.cons_append]
          · exact .select selected newSelected compatible kept
      · refine Or.inr ⟨[], name :: rest, start, newStart, rfl, List.cons_ne_nil _ _, .stop, ?_⟩
        exact crossed_of_other clean standing compared met

/-- Where no root changes its name, all paths are kept. -/
theorem exists_keptPath_of_sameRoots
    (clean : (diff options oldDocument newDocument).breakingCount = .ok 0)
    (sameRoots : SameRoots oldDocument newDocument) {operation : OperationType} {root : String}
    (oldOffers : oldDocument.root? operation = some root)
    (newOffers : newDocument.root? operation = some root)
    (defined : (oldDocument.type? root).isSome)
    {path : List String} (valid : oldDocument.ValidPath root path) :
    ∃ oldEnd newEnd, KeptPath oldDocument newDocument root root path oldEnd newEnd := by
  have known : ∃ other, (root, other) ∈ comparisons options oldDocument newDocument :=
    exists_comparison_of_roots oldOffers newOffers defined
  rcases kept_or_crossed clean valid known (Or.inl rfl) with
    kept | ⟨_, _, stop, _, _, _, _, _, renamed⟩
  · exact kept
  · exact absurd renamed (not_renamedRoot_of_sameRoots sameRoots stop)

/-- A path from a root is kept to its end, or up to the root of another name on which it crosses the
comparison. -/
theorem keptPath_or_crossed (options : Options) (oldDocument newDocument : Document)
    (clean : (diff options oldDocument newDocument).breakingCount = .ok 0)
    (operation : OperationType) (oldRoot newRoot : String)
    (oldOffers : oldDocument.root? operation = some oldRoot)
    (newOffers : newDocument.root? operation = some newRoot)
    (defined : (oldDocument.type? oldRoot).isSome)
    (path : List String) (valid : oldDocument.ValidPath oldRoot path) :
    (∃ oldEnd newEnd, KeptPath oldDocument newDocument oldRoot newRoot path oldEnd newEnd) ∨
      ∃ taken rest oldStop newStop, path = taken ++ rest ∧ rest ≠ [] ∧
        KeptPath oldDocument newDocument oldRoot newRoot taken oldStop newStop ∧
        Crossed options oldDocument newDocument oldStop newStop :=
  kept_or_crossed clean valid (exists_comparison_of_roots oldOffers newOffers defined)
    (Or.inr ⟨operation, oldOffers, newOffers⟩)

def friendField : Field :=
  ⟨"friend", .named "User", [], []⟩

def friendSchema : Document :=
  .rooted [.object ⟨"Root", [⟨"user", .named "User", [], []⟩], [], []⟩,
    .object ⟨"User", [friendField], [], []⟩]

def namedFriendSchema : Document :=
  .rooted [.object ⟨"Root", [⟨"user", .named "User", [], []⟩], [], []⟩,
    .object ⟨"User", [friendField, ⟨"name", .named "String", [], []⟩], [], []⟩]

theorem friendOfFriend_kept :
    (diff default friendSchema namedFriendSchema).breakingCount = .ok 0 ∧
      friendSchema.ValidPath "Root" ["user", "friend", "friend"] ∧
      ∃ oldEnd newEnd, KeptPath friendSchema namedFriendSchema "Root" "Root"
        ["user", "friend", "friend"] oldEnd newEnd := by
  have clean : (diff default friendSchema namedFriendSchema).breakingCount = .ok 0 := by cbv
  have isRoot : friendSchema.root? .query = some "Root" := rfl
  have isNewRoot : namedFriendSchema.root? .query = some "Root" := rfl
  have toUser : friendSchema.field? "Root" "user" = some ⟨"user", .named "User", [], []⟩ := rfl
  have toFriend : friendSchema.field? "User" "friend" = some friendField := rfl
  have valid : friendSchema.ValidPath "Root" ["user", "friend", "friend"] :=
    .select (by decide) toUser (.select (by decide) toFriend (.select (by decide) toFriend .stop))
  have sameRoots : SameRoots friendSchema namedFriendSchema := by decide
  refine ⟨clean, valid, ?_⟩
  rcases keptPath_or_crossed default friendSchema namedFriendSchema clean .query "Root" "Root"
    isRoot isNewRoot rfl _ valid with kept | ⟨_, _, stop, _, _, _, _, _, renamed⟩
  · exact kept
  · exact absurd renamed (not_renamedRoot_of_sameRoots sameRoots stop)

def pingRoot : TypeDefinition :=
  .object ⟨"Root", [⟨"ping", .named "String", [], []⟩], [], []⟩

def sharedRootSchema : Document :=
  (Document.rooted [pingRoot]).setRoot .mutation (some "Root")

def splitRootSchema : Document :=
  (Document.rooted [pingRoot, .object ⟨"Change", [], [], []⟩]).setRoot .mutation (some "Change")

/-- The shared root is compared once, as the root of queries. That mutations have lost its field is
not noticed. -/
theorem ping_lost_without_break :
    (diff default sharedRootSchema splitRootSchema).breakingCount = .ok 0 ∧
      sharedRootSchema.root? .mutation = some "Root" ∧
      splitRootSchema.root? .mutation = some "Change" ∧
      (sharedRootSchema.type? "Root").isSome ∧
      sharedRootSchema.ValidPath "Root" ["ping"] ∧
      ¬∃ oldEnd newEnd, KeptPath sharedRootSchema splitRootSchema "Root" "Change" ["ping"]
        oldEnd newEnd := by
  have clean : (diff default sharedRootSchema splitRootSchema).breakingCount = .ok 0 := by cbv
  have toPing : sharedRootSchema.field? "Root" "ping" =
      some ⟨"ping", .named "String", [], []⟩ := rfl
  refine ⟨clean, rfl, rfl, rfl, .select (by decide) toPing .stop, ?_⟩
  rintro ⟨oldEnd, newEnd, kept⟩
  cases kept with
  | select _ newSelected _ _ =>
      have nothing : splitRootSchema.field? "Change" "ping" = none := rfl
      rw [nothing] at newSelected
      cases newSelected

end Diff

end SchemaEvolution
