import SchemaEvolution.Diff.Result
import SchemaEvolution.Json

/-!
The JSON form of events and results, with their members in a fixed order.
-/

namespace SchemaEvolution

def Event.toJson (event : Event) : Json :=
  .object [("level", .string event.finding.level),
    ("category", .ofOption (fun category => .string category.id) event.category?),
    ("type_name", .string event.location.typeName),
    ("field_name", .ofOption .string event.location.fieldName?),
    ("type_kind", .ofOption (fun kind => .string kind.text) event.location.kind?),
    ("components", .strings event.finding.components),
    ("reason_msg", .string event.reason)]

def Diff.summaryJson (summary : NameMap Nat) : Json :=
  .object (summary.entries.map fun (id, count) => (id, .ofNat count))

def Diff.Result.toJson (result : Diff.Result) : Json :=
  .object [("events", .ofList Event.toJson result.events),
    ("has_breaking_changes", .bool result.isBreaking),
    ("breaking_count", .ofNat result.breakingCount),
    ("dangerous_count", .ofNat result.dangerousCount),
    ("summary", Diff.summaryJson result.summary)]

end SchemaEvolution
