import Mathlib
import SchemaEvolution.Proofs.Diff.Reachable
import SchemaEvolution.Proofs.Diff.Unresolved
import SchemaEvolution.Proofs.Introspection
import SchemaEvolution.Proofs.Introspection.Payload

/-!
Comparisons of documents that came from introspection results never give up. The conversion looks
for the interfaces of every object of the final document, and a comparison can only ask for
interfaces of objects that the old document holds.
-/

namespace SchemaEvolution.Diff

/-- Where all objects of the old document implement interfaces, it does not matter which of them a
comparison leads to. -/
theorem diff_failure?_eq_none_of_resolved {old : Document}
    (resolved : ∀ name type, old.type? name = some (.object type) →
      ∀ implemented ∈ type.interfaces, (old.interface? implemented).isSome)
    (options : Options) (new : Document) : (diff options old new).failure? = none := by
  rw [diff_failure?_eq_none_iff_resolved]
  intro pair _ oldType _ _ oldFound _
  exact resolved pair.1 oldType oldFound

/-- A document that was accepted as the answer of a server can be compared with every document. -/
theorem exists_breakingCount_of_ofIntrospection {payload : Json} {old : Document}
    (read : Document.ofIntrospection payload = .ok old) :
    (∀ (options : Options) (new : Document), ∃ count,
      (diff options old new).breakingCount = .ok count) ∧
    ∀ name definition, old.type? name = some definition → definition.name = name := by
  have converted := Document.isConverted_of_ofIntrospection read
  refine ⟨fun options new => ?_, converted.keyed⟩
  have finished := diff_failure?_eq_none_of_resolved converted.resolved options new
  exact ⟨_, by rw [Trace.breakingCount, finished]⟩

def nextField (type : Introspection.Kind) (typeName : String) : Introspection.Field :=
  ⟨"next", [], .mk type (some typeName) none, false, none⟩

def ringPayload : Introspection.Payload where
  queryType := some "Root"
  mutationType? := none
  subscriptionType? := none
  types :=
    [⟨.object, some "Root", some [], none, some [some "Gone"], none, none⟩,
      ⟨.interface, some "Node", some [nextField .object "Root"], none, some [], none, some []⟩,
      ⟨.object, some "Root", some [nextField .interface "Node"], none,
        some [some "Node", some "Node"], none, none⟩]
  directiveArguments := []

def ringSchema : Document :=
  .rooted
    [.object ⟨"Root", [⟨"next", .named "Node", [], []⟩], ["Node", "Node"], []⟩,
      .interface ⟨"Node", [⟨"next", .named "Root", [], []⟩], []⟩]

def loneRootSchema : Document :=
  .rooted [.object ⟨"Root", [], [], []⟩]

/-- The object is compared with one that has lost its interface, and both names of the old list are
looked up. -/
theorem ring_compared_with_loneRoot :
    let payload := Json.object [("__schema", ringPayload.toJson)]
    Document.ofIntrospection payload = .ok ringSchema ∧
      (∃ count, (diff default ringSchema loneRootSchema).breakingCount = .ok count) ∧
      ∀ name definition, ringSchema.type? name = some definition → definition.name = name := by
  intro payload
  have read : Document.ofIntrospection payload = .ok ringSchema := by cbv
  have settled := exists_breakingCount_of_ofIntrospection read
  exact ⟨read, settled.1 default loneRootSchema, settled.2⟩

end SchemaEvolution.Diff
