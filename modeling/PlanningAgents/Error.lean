import PlanningAgents.Blackboard.Basic

/-!
# PlanningAgents.Error

What can go wrong when agents are loaded, addressed or asked to plan.
-/

namespace PlanningAgents

/-- An error raised by an authored handler, in its own words. -/
structure HandlerError where
  message : String
  deriving DecidableEq, Repr, Inhabited

/-- An error of the library's own operations. -/
inductive AgentError where
  | unknownAtom (atom : String)
  | atomCapExceeded (atom : String) (cap : Nat)
  | actionCapExceeded (action : String) (cap : Nat)
  | unknownType (name : String)
  | unknownEntity (id : UInt64)
  | unknownAction (action : String)
  | handler (error : HandlerError)
  | blackboard (error : BlackboardError)
  | planNotFound
  | planTruncated (cap : Nat)
  deriving DecidableEq, Repr

/-- What the error says. -/
def AgentError.message : AgentError → String
  | .unknownAtom atom => s!"unknown atom '{atom}'"
  | .atomCapExceeded atom cap => s!"cannot register atom '{atom}': atom cap of {cap} reached"
  | .actionCapExceeded action cap =>
    s!"cannot register action '{action}': action cap of {cap} reached"
  | .unknownType name => s!"unknown entity type '{name}'"
  | .unknownEntity id => s!"entity #{id} has no GOAP state"
  | .unknownAction action => s!"unknown action '{action}'"
  | .handler error => error.message
  | .blackboard error => error.message
  | .planNotFound => "no plan reaches the goal"
  | .planTruncated cap => s!"plan search hit the depth cap of {cap} actions"

/-- A handler that cannot go on says what the failed operation said. -/
instance : Coe AgentError HandlerError := ⟨fun e => ⟨e.message⟩⟩

instance : Coe BlackboardError HandlerError := ⟨fun e => ⟨e.message⟩⟩

/-- An operation on a state `σ` that may fail.  What it has changed by then stays. -/
abbrev Attempt (σ α : Type) := ExceptT AgentError (StateM σ) α

/-- Runs a state change that reports its own outcome. -/
def Attempt.ofOutcome {σ α : Type} (f : σ → Except AgentError α × σ) : Attempt σ α :=
  ExceptT.mk fun s => f s

/-- Runs the operation on a state, giving the outcome and the state that it leaves. -/
def Attempt.runOn {σ α : Type} (x : Attempt σ α) (s : σ) : Except AgentError α × σ :=
  x.run s

end PlanningAgents
