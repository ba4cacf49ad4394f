import PlanningAgents.Trace.Buffer
import PlanningAgents.Atoms.Table

/-!
# PlanningAgents.Config

Settings of planners, agents and whole simulations.
-/

namespace PlanningAgents

/-- The most actions that a planner holds, and the length of plans unless told otherwise. -/
def maxActions : Nat := 64

/-- Settings of a planner. -/
structure PlannerConfig where
  /-- The longest plan that is built.  A plan of just this length counts as cut off. -/
  maxPlanLen : UInt64 := 64
  /-- How many states are taken up before a search gives up. -/
  maxExpansions : UInt64 := 4096
  deriving DecidableEq, Repr, Inhabited

/-- Settings of each agent. -/
structure AgentConfig where
  /-- Atoms that each agent may name, but never more than `maxAtoms`. -/
  safeAtomCap : UInt64 := 63
  /-- Whether handlers may write atoms that nothing has declared. -/
  autoRegisterAtoms : Bool := false
  /-- How often a failing action is tried again before its plan is dropped. -/
  maxRetries : UInt32 := 3
  /-- Events kept in each agent's trace. -/
  traceCapacity : UInt64 := defaultTraceCapacity
  planner : PlannerConfig := {}
  deriving DecidableEq, Repr, Inhabited

/-- The atoms that an agent may really name. -/
def AgentConfig.atomCap (c : AgentConfig) : Nat := min c.safeAtomCap.toNat maxAtoms

/-- The key of bindings that serve every entity type without one of its own. -/
def defaultBinding : String := "default"

/-- Simulated seconds between two ticks unless told otherwise. -/
def defaultTickRate : Float32 := 0.5

/-- Settings of a simulation. -/
structure SimulationConfig where
  /-- Simulated seconds between two ticks. -/
  tickRate : Float32 := defaultTickRate
  /-- The key of the blackboard seeding for entity types without one of their own. -/
  defaultBlackboardInit : String := defaultBinding
  agent : AgentConfig := {}
  deriving Inhabited

/-- Whether the settings are those that hold where nothing else is said. -/
def SimulationConfig.isDefault (c : SimulationConfig) : Bool :=
  c.tickRate == defaultTickRate && c.defaultBlackboardInit == defaultBinding && c.agent == {}

end PlanningAgents
