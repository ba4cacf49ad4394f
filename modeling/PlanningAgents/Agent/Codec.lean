import PlanningAgents.Agent.Basic
import PlanningAgents.Definition.Codec

/-!
# PlanningAgents.Agent.Codec

Agents' states for tools, as structured data.
-/

namespace PlanningAgents.Agent

/-- A snapshot as data. -/
def Snapshot.toJson (s : Snapshot) : Json :=
  .object [("entity_type", .string s.entityType), ("current", AtomMap.toJson s.current),
    ("goal", AtomMap.toJson s.goal), ("plan", .strings s.plan), ("plan_cost", .int s.planCost),
    ("current_action_index", .nat s.actionIndex),
    ("current_action", .ofOption .string s.action),
    ("current_action_phase", .ofOption (fun p => .string p.name) s.phase),
    ("retries", .nat s.retries.toNat), ("max_retries", .nat s.maxRetries.toNat),
    ("dirty", .bool s.dirty), ("actionset_version", .nat s.actionsetVersion.toNat),
    ("atom_schema_version", .nat s.atomSchemaVersion.toNat),
    ("blackboard_keys", .strings s.blackboardKeys), ("trace_len", .nat s.traceLength)]

end PlanningAgents.Agent
