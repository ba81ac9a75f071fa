import SchemaEvolution.Diff.Walk

/-!
What a comparison amounts to: its events, how many of them break clients or endanger them, and how
many there are of each category.
-/

namespace SchemaEvolution.Diff

/-- How often each category occurs among events; only categories that occur are listed, in the
order of their identifiers. -/
def categoryCounts (events : List Event) : NameMap Nat :=
  NameMap.ofList (Category.all.filterMap fun category =>
    match events.countP fun event => event.category? = some category with
    | 0 => none
    | count + 1 => some (category.id, count + 1))

structure Result where
  events : List Event
  breakingCount : Nat
  dangerousCount : Nat
  summary : NameMap Nat
  deriving DecidableEq

namespace Result

def ofEvents (events : List Event) : Result :=
  { events
    breakingCount := events.countP Event.isBreaking
    dangerousCount := events.countP Event.isDangerous
    summary := categoryCounts events }

def isBreaking (result : Result) : Bool :=
  result.breakingCount > 0

def breakages (result : Result) : List Event :=
  result.events.filter Event.isBreaking

def dangers (result : Result) : List Event :=
  result.events.filter Event.isDangerous

end Result

def Trace.breakingCount (trace : Trace) : Except UnresolvedInterface Nat :=
  match trace.failure? with
  | some error => .error error
  | none => .ok (trace.events.countP Event.isBreaking)

def result (options : Options) (old new : Document) : Except UnresolvedInterface Result :=
  let trace := diff options old new
  match trace.failure? with
  | some error => .error error
  | none => .ok (.ofEvents trace.events)

end SchemaEvolution.Diff
