import PlanningAgents.Config
import PlanningAgents.Sense
import PlanningAgents.Tick

/-!
# PlanningAgents.Simulation.Scheduler

Turns frame time into ticks: time is summed up until a whole interval has passed, and the tick that
is then due covers all of it.

Main statements:

* `Scheduler.advance_some` — a dispatched tick has the next index, and nothing is left over.
-/

namespace PlanningAgents

/-- A scheduler between two frames. -/
structure Scheduler where
  interval : Float32
  /-- Time towards the next tick. -/
  accumulated : Float32 := 0
  /-- The tick that was dispatched last. -/
  last : Tick := {}
  deriving Inhabited

namespace Scheduler

/-- A scheduler for an interval; one that is not positive makes every frame a tick. -/
def ofInterval (seconds : Float32) : Scheduler := { interval := Float32.atLeastZero seconds }

/-- Changes the interval. -/
def setInterval (s : Scheduler) (seconds : Float32) : Scheduler :=
  { s with interval := Float32.atLeastZero seconds }

/-- Adds frame time; gives the tick that is due, if one is. -/
def advance (s : Scheduler) (dt : Float32) : Option Tick × Scheduler :=
  let accumulated := s.accumulated + Float32.atLeastZero dt
  if accumulated < s.interval then (none, { s with accumulated })
  else
    let tick := s.last.next accumulated
    (some tick, { s with accumulated := 0, last := tick })

/-- Starts again from the beginning. -/
def reset (s : Scheduler) : Scheduler := { s with accumulated := 0, last := {} }

/-- A dispatched tick has the next index, and nothing is left over. -/
theorem advance_some {s u : Scheduler} {dt : Float32} {tick : Tick}
    (h : s.advance dt = (some tick, u)) :
    tick.index = s.last.index + 1 ∧ u.accumulated = 0 ∧ u.last = tick := by
  unfold advance at h
  simp only at h
  split at h
  · simp at h
  · simp only [Prod.mk.injEq, Option.some.injEq] at h
    obtain ⟨rfl, rfl⟩ := h
    simp

end Scheduler

end PlanningAgents
