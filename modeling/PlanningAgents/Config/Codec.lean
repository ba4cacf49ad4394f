import PlanningAgents.Config
import PlanningAgents.Json.Value
import PlanningAgents.Node.Decode

/-!
# PlanningAgents.Config.Codec

Settings as structured data.  Whatever is not given keeps its default.
-/

namespace PlanningAgents

open Node (optional)

instance : Decode PlannerConfig where
  decode n := do
    let d : PlannerConfig := {}
    match ← n.fields [["max_plan_len"], ["max_expansions"]] with
    | [maxPlanLen, maxExpansions] =>
      return { maxPlanLen := ← optional d.maxPlanLen maxPlanLen,
               maxExpansions := ← optional d.maxExpansions maxExpansions }
    | _ => failure

instance : Decode AgentConfig where
  decode n := do
    let d : AgentConfig := {}
    match ← n.fields [["safe_atom_cap"], ["auto_register_atoms"], ["max_retries"],
        ["trace_capacity"], ["planner"]] with
    | [safeAtomCap, autoRegisterAtoms, maxRetries, traceCapacity, planner] =>
      return { safeAtomCap := ← optional d.safeAtomCap safeAtomCap,
               autoRegisterAtoms := ← optional d.autoRegisterAtoms autoRegisterAtoms,
               maxRetries := ← optional d.maxRetries maxRetries,
               traceCapacity := ← optional d.traceCapacity traceCapacity,
               planner := ← optional d.planner planner }
    | _ => failure

instance : Decode SimulationConfig where
  decode n := do
    let d : SimulationConfig := {}
    match ← n.fields [["ai_tick_rate_seconds"], ["default_blackboard_init"], ["goap"]] with
    | [tickRate, defaultBlackboardInit, agent] =>
      return { tickRate := ← optional d.tickRate tickRate,
               defaultBlackboardInit := ← optional d.defaultBlackboardInit defaultBlackboardInit,
               agent := ← optional d.agent agent }
    | _ => failure

/-- The settings of a planner as data. -/
def PlannerConfig.toJson (c : PlannerConfig) : Json :=
  .object [("max_plan_len", .nat c.maxPlanLen.toNat),
    ("max_expansions", .nat c.maxExpansions.toNat)]

/-- The settings of agents as data. -/
def AgentConfig.toJson (c : AgentConfig) : Json :=
  .object [("safe_atom_cap", .nat c.safeAtomCap.toNat),
    ("auto_register_atoms", .bool c.autoRegisterAtoms), ("max_retries", .nat c.maxRetries.toNat),
    ("trace_capacity", .nat c.traceCapacity.toNat), ("planner", c.planner.toJson)]

end PlanningAgents
