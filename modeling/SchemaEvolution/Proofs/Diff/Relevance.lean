import Mathlib
import SchemaEvolution.Proofs.Diff.Rearranged
import SchemaEvolution.Proofs.Diff.Unresolved

/-!
The names that a comparison can look up: the roots of both schemas, and with a name all that its
definitions in the two schemas depend on. Pairs of schemas that agree on these names give one and
the same comparison, so a type that nothing depends on changes neither what is reported nor how it
ends.
-/

namespace SchemaEvolution

def TypeDefinition.interfaces : TypeDefinition → List String
  | object type => type.interfaces
  | interface _ | union _ | enum _ | scalar _ | inputObject _ => []

def TypeDefinition.dependencies (definition : TypeDefinition) : List String :=
  definition.mentions ++ definition.interfaces

/-- The least set of names that has the roots of some schemas in it and, with each name, what the
definitions of that name in the schemas depend on. -/
inductive Relevant (documents : List Document) : String → Prop
  | root {document : Document} {operation : OperationType} {name : String} :
      document ∈ documents → document.root? operation = some name → Relevant documents name
  | dependency {document : Document} {name next : String} {definition : TypeDefinition} :
      document ∈ documents → Relevant documents name → document.type? name = some definition →
      next ∈ definition.dependencies → Relevant documents next

/-- Two schemas have the same roots, and under some names the same definitions, or both none. -/
structure Document.AgreesOn (names : String → Prop) (document other : Document) : Prop where
  roots : ∀ operation, other.root? operation = document.root? operation
  types : ∀ name, names name → other.type? name = document.type? name

theorem Document.AgreesOn.interface? {names : String → Prop} {document other : Document}
    (agrees : document.AgreesOn names other) {name : String} (isOne : names name) :
    other.interface? name = document.interface? name := by
  unfold Document.interface?
  rw [agrees.types name isOne]

section Closure

variable {documents : List Document} {document : Document} {name next : String}
variable (listed : document ∈ documents) (relevant : Relevant documents name)

include listed relevant

theorem Relevant.of_mentions {definition : TypeDefinition}
    (found : document.type? name = some definition) (mentioned : next ∈ definition.mentions) :
    Relevant documents next :=
  .dependency listed relevant found (List.mem_append_left _ mentioned)

theorem Relevant.of_interfaces {type : ObjectType}
    (found : document.type? name = some (.object type)) (implemented : next ∈ type.interfaces) :
    Relevant documents next :=
  .dependency listed relevant found (List.mem_append_right _ implemented)

theorem Relevant.of_offered {fields : List Field} {field : Field}
    (offers : document.OffersFields name fields) (member : field ∈ fields)
    (mentioned : next ∈ field.mentions) : Relevant documents next := by
  have inFields : next ∈ fields.flatMap Field.mentions :=
    List.mem_flatMap.mpr ⟨field, member, mentioned⟩
  cases offers with
  | object found | interface found => exact relevant.of_mentions listed found inFields
  | implemented found implemented isInterface =>
      have interfaceRelevant := relevant.of_interfaces listed found implemented
      exact interfaceRelevant.of_mentions listed
        ((Diff.interface?_eq_some_iff _ _ _).mp isInterface) inFields

theorem Relevant.of_refersTo (refers : document.RefersTo name next) : Relevant documents next := by
  cases refers with
  | field offers found =>
      exact relevant.of_offered listed offers (NameMap.mem_of_get?_index found) List.mem_cons_self
  | argument offers found has =>
      apply relevant.of_offered listed offers (NameMap.mem_of_get?_index found)
      apply List.mem_cons_of_mem
      exact List.mem_map.mpr ⟨_, NameMap.mem_of_get?_index has, rfl⟩
  | inputField found has =>
      apply relevant.of_mentions listed found
      exact List.mem_map.mpr ⟨_, NameMap.mem_of_get?_index has, rfl⟩
  | member found inMembers => exact relevant.of_mentions listed found inMembers

end Closure

namespace Diff

section Agreement

variable (options : Options) {oldDocument newDocument oldOther newOther : Document}

section Scripts

variable {names : String → Prop} (oldAgrees : oldDocument.AgreesOn names oldOther)
variable (newAgrees : newDocument.AgreesOn names newOther)

include oldAgrees newAgrees

theorem implementedScript_eq_of_agreesOn {old new : ObjectType}
    (listed : ∀ name ∈ old.interfaces, names name) :
    implementedScript options oldDocument newDocument old new =
      implementedScript options oldOther newOther old new := by
  unfold implementedScript
  apply List.flatMap_congr
  intro name inSet
  have isOne := listed name ((SortedSet.mem_elements_ofList name old.interfaces).mp inSet)
  rw [oldAgrees.interface? isOne, newAgrees.interface? isOne]

theorem definitionScript_eq_of_agreesOn (name : String) {old : TypeDefinition}
    (new : TypeDefinition) (listed : ∀ implemented ∈ old.interfaces, names implemented) :
    definitionScript options oldDocument newDocument name old new =
      definitionScript options oldOther newOther name old new := by
  cases old <;> cases new
  case object.object old new =>
    simp only [definitionScript, objectScript]
    rw [implementedScript_eq_of_agreesOn options oldAgrees newAgrees listed]
  all_goals rfl

theorem operationScript_eq_of_agreesOn (operation : OperationType)
    (rooted : ∀ root, oldDocument.root? operation = some root → names root) :
    operationScript oldDocument newDocument operation =
      operationScript oldOther newOther operation := by
  unfold operationScript
  rw [oldAgrees.roots, newAgrees.roots]
  cases isRoot : oldDocument.root? operation with
  | none => rfl
  | some oldRoot => simp only [oldAgrees.types oldRoot (rooted oldRoot isRoot)]

end Scripts

variable (oldAgrees : oldDocument.AgreesOn (Relevant [oldDocument, newDocument]) oldOther)
variable (newAgrees : newDocument.AgreesOn (Relevant [oldDocument, newDocument]) newOther)

include oldAgrees newAgrees

theorem script_eq_of_agreesOn {oldName newName : String}
    (oldRelevant : Relevant [oldDocument, newDocument] oldName)
    (newRelevant : Relevant [oldDocument, newDocument] newName) :
    script options oldDocument newDocument oldName newName =
      script options oldOther newOther oldName newName := by
  unfold script
  rw [oldAgrees.types oldName oldRelevant, newAgrees.types newName newRelevant]
  cases oldFound : oldDocument.type? oldName with
  | none => rfl
  | some old =>
      have listed : ∀ implemented ∈ old.interfaces,
          Relevant [oldDocument, newDocument] implemented := fun implemented member =>
        .dependency List.mem_cons_self oldRelevant oldFound (List.mem_append_right _ member)
      simp only [definitionScript_eq_of_agreesOn options oldAgrees newAgrees oldName _ listed]

theorem operationsScript_eq_of_agreesOn :
    operationsScript oldDocument newDocument = operationsScript oldOther newOther := by
  refine congrArg (OperationType.all.flatMap ·) (funext fun operation => ?_)
  exact operationScript_eq_of_agreesOn oldAgrees newAgrees operation fun root isRoot =>
    .root List.mem_cons_self isRoot

/-- The walks of the two pairs are one. Their lists of unexamined names may differ, but only in
names that neither of them comes to. -/
theorem diff_eq_of_relevant_agree :
    diff options oldDocument newDocument = diff options oldOther newOther := by
  have oldListed : oldDocument ∈ [oldDocument, newDocument] := List.mem_cons_self
  have newListed : newDocument ∈ [oldDocument, newDocument] :=
    List.mem_cons_of_mem _ List.mem_cons_self
  have sameStart := operationsScript_eq_of_agreesOn oldAgrees newAgrees
  change walk options oldDocument newDocument _ (operationsScript oldDocument newDocument) =
    walk options oldOther newOther _ (operationsScript oldOther newOther)
  rw [← sameStart]
  refine walk_congr options (fun oldName newName =>
    Relevant [oldDocument, newDocument] oldName ∧ Relevant [oldDocument, newDocument] newName ∧
      oldName ∈ oldDocument.mentions ∧ oldName ∈ oldOther.mentions) ?_ ?_ ?_ ?_
  · rintro oldName newName ⟨oldRelevant, newRelevant, _⟩
    exact script_eq_of_agreesOn options oldAgrees newAgrees oldRelevant newRelevant
  · rintro oldName newName ⟨oldRelevant, newRelevant, _⟩ nextOld nextNew follows
    have leads := follow_mem_script_iff.mp follows
    rw [script_eq_of_agreesOn options oldAgrees newAgrees oldRelevant newRelevant] at follows
    exact ⟨oldRelevant.of_refersTo oldListed leads.refersTo,
      newRelevant.of_refersTo newListed leads.newRefersTo, leads.mem_mentions,
      (follow_mem_script_iff.mp follows).mem_mentions⟩
  · rintro oldName newName ⟨_, _, mentioned, mentionedThere⟩
    exact iff_of_true mentioned mentionedThere
  · intro oldName newName follows
    obtain ⟨operation, isOld, isNew, _⟩ := (follow_mem_operationsScript_iff _ _ _ _).mp follows
    have isOldThere := (oldAgrees.roots operation).trans isOld
    exact ⟨.root oldListed isOld, .root newListed isNew, mem_mentions_of_root? isOld,
      mem_mentions_of_root? isOldThere⟩

end Agreement

theorem relevant_of_mem_comparisons {options : Options} {oldDocument newDocument : Document}
    {oldName newName : String}
    (compared : (oldName, newName) ∈ comparisons options oldDocument newDocument) :
    Relevant [oldDocument, newDocument] oldName := by
  revert compared
  apply visits_induction fun oldName _ => Relevant [oldDocument, newDocument] oldName
  · intro rootOld rootNew atStart
    obtain ⟨operation, isOld, _⟩ := (follow_mem_operationsScript_iff _ _ _ _).mp atStart
    exact .root List.mem_cons_self isOld
  · intro firstOld firstNew _ relevant nextOld nextNew follows
    exact relevant.of_refersTo List.mem_cons_self (follow_mem_script_iff.mp follows).refersTo

/-- Types that the roots of neither schema depend on do not take part in a comparison. It gives the
same events and ends in the same way whatever becomes of them, and where it gives up this is for an
object that the roots depend on. -/
theorem diff_eq_of_agreesOn_relevant (options : Options) {old new oldOther newOther : Document}
    (oldAgrees : old.AgreesOn (Relevant [old, new]) oldOther)
    (newAgrees : new.AgreesOn (Relevant [old, new]) newOther) :
    diff options oldOther newOther = diff options old new ∧
      ∀ error, (diff options oldOther newOther).failure? = some error →
        ∃ name type, Relevant [old, new] name ∧ old.type? name = some (.object type) ∧
          error.typeName = type.name ∧ error.interface ∈ type.interfaces ∧
          old.interface? error.interface = none := by
  have same := diff_eq_of_relevant_agree options oldAgrees newAgrees
  refine ⟨same.symm, fun error failed => ?_⟩
  rw [← same] at failed
  obtain ⟨⟨name, newName⟩, compared, type, found, isNamed, listed, unresolved⟩ :=
    unresolved_of_diff_failure failed
  exact ⟨name, type, relevant_of_mem_comparisons compared, found, isNamed, listed, unresolved⟩

def stall (interfaces : List String) : Document :=
  .rooted [.object ⟨"Root", [⟨"ware", .named "Ware", [], []⟩], interfaces, []⟩,
    .object ⟨"Ware", [⟨"id", .named "ID", [], []⟩], [], []⟩]

def strayType : TypeDefinition :=
  .object ⟨"Side", [], ["Gone"], []⟩

theorem stall_agreesOn_insert {interfaces : List String} (unlisted : "Side" ∉ interfaces) :
    (stall interfaces).AgreesOn (Relevant [stall interfaces, stall interfaces])
      ((stall interfaces).insert strayType) := by
  have notSide : ∀ name, Relevant [stall interfaces, stall interfaces] name → name ≠ "Side" := by
    intro name relevant
    cases relevant with
    | @root document operation _ listed isRoot =>
        obtain rfl : document = stall interfaces := by simpa using listed
        cases operation <;> cases isRoot
        decide
    | @dependency document key _ definition listed _ found depends =>
        obtain rfl : document = stall interfaces := by simpa using listed
        have isOne : definition = .object ⟨"Ware", [⟨"id", .named "ID", [], []⟩], [], []⟩ ∨
            definition =
              .object ⟨"Root", [⟨"ware", .named "Ware", [], []⟩], interfaces, []⟩ := by
          have lookup := found
          simp only [stall, Document.rooted, List.foldl_cons, List.foldl_nil, Document.insert,
            Document.type?, NameMap.get?_insert] at lookup
          split at lookup
          · exact Or.inl (Option.some.inj lookup).symm
          · split at lookup
            · exact Or.inr (Option.some.inj lookup).symm
            · cases lookup
        rintro rfl
        rcases isOne with rfl | rfl
        · exact absurd depends (by decide)
        · rcases List.mem_append.mp depends with mentioned | implemented
          · have isWare : "Side" ∈ ["Ware"] := mentioned
            exact absurd isWare (by decide)
          · exact unlisted implemented
  refine ⟨fun operation => by cases operation <;> rfl, fun name relevant => ?_⟩
  exact (NameMap.get?_insert _ _ _ _).trans (if_neg (notSide name relevant))

/-- The unresolved interface of a type on the side is not met, that of the root is. -/
theorem strayType_without_influence :
    (stall []).AgreesOn (Relevant [stall [], stall []]) ((stall []).insert strayType) ∧
      diff default ((stall []).insert strayType) ((stall []).insert strayType) =
        diff default (stall []) (stall []) ∧
      (diff default (stall []) (stall [])).failure? = none ∧
      (diff default ((stall ["Gone"]).insert strayType) ((stall ["Gone"]).insert strayType)).failure? =
        some ⟨"Root", "Gone"⟩ ∧
      ∃ name type, Relevant [stall ["Gone"], stall ["Gone"]] name ∧
        (stall ["Gone"]).type? name = some (.object type) ∧ "Root" = type.name ∧
        "Gone" ∈ type.interfaces ∧ (stall ["Gone"]).interface? "Gone" = none := by
  have whole := stall_agreesOn_insert (show "Side" ∉ [] by decide)
  have broken := stall_agreesOn_insert (show "Side" ∉ ["Gone"] by decide)
  have completes : (diff default (stall []) (stall [])).failure? = none := by cbv
  have givesUp : (diff default ((stall ["Gone"]).insert strayType)
      ((stall ["Gone"]).insert strayType)).failure? = some ⟨"Root", "Gone"⟩ := by cbv
  exact ⟨whole, (diff_eq_of_agreesOn_relevant default whole whole).1, completes, givesUp,
    (diff_eq_of_agreesOn_relevant default broken broken).2 _ givesUp⟩

end Diff

end SchemaEvolution
