import PlanningAgents.Json.Value
import PlanningAgents.Node.Decode
import PlanningAgents.Trace.Buffer

/-!
# PlanningAgents.Trace.Codec

Traces as structured data.  Every field has to be given.
-/

namespace PlanningAgents

open Node (required)

/-- A kind is given by its name, alone or as the one member of a record that says no more. -/
instance : Decode TraceKind where
  decode n := do
    match ← n.follow with
    | .record [(name, .scalar s)] =>
      if s.isAbsent = some true && !s.isEmpty then TraceKind.ofName? (← decode name) else failure
    | n => TraceKind.ofName? (← decode n)

instance : Decode TraceEvent where
  decode n := do
    match ← n.fields [["kind"], ["timestamp"], ["tick"], ["entity"], ["message"], ["extra"]] with
    | [kind, timestamp, tick, entity, message, extra] =>
      return { kind := ← required kind, timestamp := ← required timestamp, tick := ← required tick,
               entity := ← required entity, message := ← required message,
               extra := ← required extra }
    | _ => failure

instance : Decode TraceBuffer where
  decode n := do
    match ← n.fields [["capacity"], ["events"], ["total_pushed"]] with
    | [capacity, events, totalPushed] =>
      return { capacity := ← required capacity, events := ← required events,
               totalPushed := ← required totalPushed }
    | _ => failure

/-- An event as data. -/
def TraceEvent.toJson (e : TraceEvent) : Json :=
  .object [("kind", .string e.kind.name), ("timestamp", .number e.timestamp),
    ("tick", .nat e.tick.toNat), ("entity", .nat e.entity.toNat), ("message", .string e.message),
    ("extra", .object (e.extra.toList.map fun d => (d.1, .string d.2)))]

/-- A buffer as data. -/
def TraceBuffer.toJson (b : TraceBuffer) : Json :=
  .object [("capacity", .nat b.capacity.toNat), ("events", .array (b.events.map (·.toJson))),
    ("total_pushed", .nat b.totalPushed.toNat)]

end PlanningAgents
