/-!
# PlanningAgents.Tick

The clock reading handed to every decision step.
-/

namespace PlanningAgents

/-- One step of the simulation clock. -/
structure Tick where
  /-- Counts dispatched steps, from 0 before the first. -/
  index : UInt64 := 0
  /-- Simulated seconds covered by this step. -/
  dt : Float32 := 0
  /-- Simulated seconds since the start, this step included. -/
  time : Float := 0
  deriving Repr, Inhabited

namespace Tick

/-- The step that follows `t` after `dt` seconds.  Time is summed in double precision. -/
def next (t : Tick) (dt : Float32) : Tick :=
  { index := t.index + 1, dt, time := t.time + dt.toFloat }

@[simp] theorem index_next (t : Tick) (dt : Float32) : (t.next dt).index = t.index + 1 := rfl

end Tick

end PlanningAgents
