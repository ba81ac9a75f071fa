import Mathlib
import SchemaEvolution.Proofs.Diff.Reachable

/-!
What it means that a comparison finds no break: no operation is lost, and each definition that can
be reached in the old schema is kept by the new definition of its name.
-/

namespace SchemaEvolution.Diff

/-- The comparison ends without a break exactly if every operation is still offered, the objects
that can be reached implement interfaces only, and whatever can be reached is kept. -/
theorem breakingCount_eq_ok_zero_iff_kept (options : Options) (oldDocument newDocument : Document)
    (sameRoots : SameRoots oldDocument newDocument) :
    (diff options oldDocument newDocument).breakingCount = .ok 0 ↔
      (∀ operation, (oldDocument.root? operation).isSome →
        (newDocument.root? operation).isSome) ∧
      (∀ name type, oldDocument.Reachable name →
        oldDocument.type? name = some (.object type) →
        ∀ implemented ∈ type.interfaces, (oldDocument.interface? implemented).isSome) ∧
      ∀ name old, oldDocument.Reachable name → oldDocument.type? name = some old →
        ∃ new, newDocument.type? name = some new ∧
          KeepsDefinition options oldDocument newDocument old new := by
  constructor
  · intro clean
    have quietAt (name : String) (reachable : oldDocument.Reachable name) :=
      quiet_of_mem_comparisons clean (mem_comparisons_of_reachable clean sameRoots reachable)
    refine ⟨root?_isSome_of_clean clean, ?_, ?_⟩
    · intro name type reachable found
      exact ((quiet_script_iff _ _ _ _ _).mp (quietAt name reachable)
        (.object type) reachable.isExempt_eq_false found).1
    · intro name old reachable found
      exact ((quiet_script_iff _ _ _ _ _).mp (quietAt name reachable)
        old reachable.isExempt_eq_false found).2
  · rintro ⟨offered, resolved, kept⟩
    refine breakingCount_eq_ok_zero_of_quiet sameRoots offered fun name reachable => ?_
    rw [quiet_script_iff]
    intro old compared found
    refine ⟨?_, kept name old reachable found⟩
    cases old with
    | object type => exact resolved name type reachable found
    | interface _ | union _ | enum _ | scalar _ | inputObject _ => trivial

def userType : ObjectType :=
  ⟨"User", [⟨"id", .named "ID", [], []⟩, ⟨"friend", .named "User", [], []⟩], ["Node"], []⟩

def nodeType : InterfaceType :=
  ⟨"Node", [⟨"id", .named "ID", [], []⟩], []⟩

def userSchema : Document :=
  .rooted [.object ⟨"Root", [⟨"user", .named "User", [], []⟩], [], []⟩, .interface nodeType,
    .object userType]

def namedUserSchema : Document :=
  .rooted [.object ⟨"Root", [⟨"user", .named "User", [], []⟩,
      ⟨"byName", .named "User", [⟨"name", .named "String", none, []⟩], []⟩], [], []⟩,
    .interface nodeType,
    .object { userType with fields := userType.fields ++ [⟨"name", .named "String", [], []⟩] }]

theorem userType_kept_with_names :
    SameRoots userSchema namedUserSchema ∧ userSchema.Reachable "User" ∧
      ∃ new, namedUserSchema.type? "User" = some new ∧
        KeepsDefinition default userSchema namedUserSchema (.object userType) new := by
  have sameRoots : SameRoots userSchema namedUserSchema := by decide
  have clean : (diff default userSchema namedUserSchema).breakingCount = .ok 0 := by cbv
  have isRoot : userSchema.root? .query = some "Root" := rfl
  have refers : userSchema.RefersTo "Root" "User" :=
    @Document.RefersTo.field _ _ _ "user" ⟨"user", .named "User", [], []⟩ (.object rfl) rfl
  have reachable : userSchema.Reachable "User" :=
    .step (.root isRoot rfl (by decide)) refers (by decide)
  have kept :=
    (breakingCount_eq_ok_zero_iff_kept default userSchema namedUserSchema sameRoots).mp clean
  exact ⟨sameRoots, reachable, kept.2.2 "User" _ reachable rfl⟩

end SchemaEvolution.Diff
