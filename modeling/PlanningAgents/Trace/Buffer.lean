import PlanningAgents.Trace.Event

/-!
# PlanningAgents.Trace.Buffer

A bounded record of the newest events, oldest first.

Main statements:

* `TraceBuffer.length_push_le` — a buffer that is not over its capacity stays so.
* `TraceBuffer.recent_length` — the newest `n` events are all of them when `n` is large enough.
-/

namespace PlanningAgents

/-- How many events a buffer holds unless told otherwise. -/
def defaultTraceCapacity : UInt64 := 256

/-- The newest events, oldest first. -/
structure TraceBuffer where
  capacity : UInt64 := defaultTraceCapacity
  events : List TraceEvent := []
  /-- Counts every event ever pushed, the dropped ones included. -/
  totalPushed : UInt64 := 0
  deriving Inhabited

namespace TraceBuffer

/-- An empty buffer for at least one event. -/
def ofCapacity (capacity : UInt64) : TraceBuffer :=
  { capacity := if capacity = 0 then 1 else capacity }

/-- How many events are held. -/
def size (b : TraceBuffer) : Nat := b.events.length

/-- Appends an event; a buffer that holds as many as its capacity drops the oldest for it. -/
def push (b : TraceBuffer) (e : TraceEvent) : TraceBuffer :=
  { b with
    events := (if b.events.length = b.capacity.toNat then b.events.drop 1 else b.events) ++ [e]
    totalPushed := b.totalPushed + 1 }

/-- The newest `n` events, oldest first. -/
def recent (b : TraceBuffer) (n : Nat) : List TraceEvent :=
  b.events.drop (b.events.length - n)

/-- Drops the events; the count of pushes goes on. -/
def clear (b : TraceBuffer) : TraceBuffer := { b with events := [] }

theorem ofCapacity_pos (capacity : UInt64) : 0 < (ofCapacity capacity).capacity.toNat := by
  unfold ofCapacity
  split
  · decide
  · rename_i h
    exact Nat.pos_of_ne_zero fun h0 => h (UInt64.toNat_inj.1 (by simpa using h0))

/-- A buffer that is not over its capacity stays so. -/
theorem length_push_le (b : TraceBuffer) (e : TraceEvent) (hc : 0 < b.capacity.toNat)
    (h : b.events.length ≤ b.capacity.toNat) :
    (b.push e).events.length ≤ (b.push e).capacity.toNat := by
  simp only [push]
  split <;> simp <;> omega

theorem recent_length (b : TraceBuffer) (n : Nat) :
    (b.recent n).length = min n b.events.length := by
  simp [recent]; omega

end TraceBuffer

end PlanningAgents
