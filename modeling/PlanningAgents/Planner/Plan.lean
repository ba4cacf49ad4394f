import PlanningAgents.Error
import PlanningAgents.Atoms.State

/-!
# PlanningAgents.Planner.Plan

What a planning query answers.

Main statements:

* `Plan.toResult_eq_ok_iff` — a usable plan is one that was found, or that has nothing to do.
-/

namespace PlanningAgents

/-- An action as the planner sees it. -/
structure PlannerAction where
  name : String
  cost : UInt32 := 1
  pre : WorldState := .empty
  post : WorldState := .empty
  deriving DecidableEq, Repr, Inhabited

/-- How a planning query ended. -/
inductive PlanOutcome where
  /-- The goal holds already. -/
  | atGoal
  | found
  | notFound
  /-- The plan is as long as plans may be. -/
  | truncated
  deriving DecidableEq, Repr, Inhabited

/-- The name of an outcome. -/
def PlanOutcome.name : PlanOutcome → String
  | .atGoal => "AtGoal"
  | .found => "Found"
  | .notFound => "NotFound"
  | .truncated => "Truncated"

/-- The answer to a planning query: the actions to take, the state expected after each of them,
and what they cost together.  The cost -1 stands for no plan within the cap. -/
structure Plan where
  actions : List String := []
  states : List WorldState := []
  cost : Int
  /-- How long the plan could have been. -/
  cap : Nat
  deriving DecidableEq, Repr, Inhabited

namespace Plan

/-- No plan within the cap. -/
def notFound (cap : Nat) : Plan := { cost := -1, cap }

/-- Nothing to do. -/
def atGoal (cap : Nat) : Plan := { cost := 0, cap }

/-- The number of actions. -/
def length (p : Plan) : Nat := p.actions.length

/-- How the query ended. -/
def outcome (p : Plan) : PlanOutcome :=
  if p.cost < 0 then .notFound
  else if p.actions.isEmpty then .atGoal
  else if p.cap ≤ p.actions.length then .truncated
  else .found

/-- The plan, where it can be used. -/
def toResult (p : Plan) : Except AgentError Plan :=
  match p.outcome with
  | .notFound => .error .planNotFound
  | .truncated => .error (.planTruncated p.cap)
  | .atGoal | .found => .ok p

/-- A usable plan is one that was found, or that has nothing to do. -/
theorem toResult_eq_ok_iff (p : Plan) :
    p.toResult = .ok p ↔ p.outcome = .found ∨ p.outcome = .atGoal := by
  unfold toResult
  cases p.outcome <;> simp

end Plan

end PlanningAgents
