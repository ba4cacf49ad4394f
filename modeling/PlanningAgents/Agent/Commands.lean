import PlanningAgents.World

/-!
# PlanningAgents.Agent.Commands

Requests that outlive the handler that makes them.  Interrupts are carried out once the tick of the
current entity is over, a reset before the next tick that is due.

Main statements:

* `Commands.nodup_requestInterrupt` — an entity waits for at most one interrupt.
-/

namespace PlanningAgents

/-- Pending requests. -/
structure Commands where
  resetRequested : Bool := false
  /-- In the order of the first request, each entity once. -/
  interrupts : List EntityId := []
  deriving DecidableEq, Repr, Inhabited

namespace Commands

/-- Asks for a reset of every entity. -/
def requestReset (c : Commands) : Commands := { c with resetRequested := true }

/-- Asks for an interrupt, unless the entity waits for one already. -/
def requestInterrupt (c : Commands) (e : EntityId) : Commands :=
  if e ∈ c.interrupts then c else { c with interrupts := c.interrupts ++ [e] }

/-- Whether a reset is pending, and the commands without it. -/
def takeReset (c : Commands) : Bool × Commands :=
  (c.resetRequested, { c with resetRequested := false })

/-- The pending interrupts, and the commands without them. -/
def takeInterrupts (c : Commands) : List EntityId × Commands :=
  (c.interrupts, { c with interrupts := [] })

/-- An entity waits for at most one interrupt. -/
theorem nodup_requestInterrupt (c : Commands) (e : EntityId) (h : c.interrupts.Nodup) :
    (c.requestInterrupt e).interrupts.Nodup := by
  unfold requestInterrupt
  split
  · exact h
  · rename_i he
    simp only
    refine List.nodup_append.2 ⟨h, by simp, ?_⟩
    intro a ha b hb hab
    simp only [List.mem_singleton] at hb
    exact he (hb ▸ hab ▸ ha)

end Commands

end PlanningAgents
