import PlanningAgents.Json.Value
import PlanningAgents.Node.Document

/-!
# PlanningAgents.Node.Json

JSON as structured data.  Every JSON value has exactly one kind; a whole number may also be read
where a machine number is wanted, and an array may stand for a record.

Main statements:

* `Node.follow_ofJson` — nothing that comes from JSON stands for anything else.
-/

namespace PlanningAgents

namespace Node

mutual

/-- The structured data that a JSON value is. -/
def ofJson : Json → Node
  | .null => .scalar { isAbsent := some true }
  | .bool b => .scalar { bool := some b }
  | .int n => .scalar { int := some n, single := some (.ofInt n), double := some (.ofInt n) }
  | .float x => .scalar { single := some x.toFloat32, double := some x }
  | .string s => .ofText s
  | .array items => .list true (ofJsonItems items)
  | .object members => .record (ofJsonMembers members)
  | .unusable => .unreadable

/-- The items of an array. -/
def ofJsonItems : List Json → List Node
  | [] => []
  | v :: rest => ofJson v :: ofJsonItems rest

/-- The members of an object. -/
def ofJsonMembers : List (String × Json) → List (Node × Node)
  | [] => []
  | (k, v) :: rest => (.ofText k, ofJson v) :: ofJsonMembers rest

end

/-- Nothing that comes from JSON stands for anything else. -/
theorem follow_ofJson (v : Json) : (ofJson v).follow = pure (ofJson v) := by
  cases v <;> rfl

end Node

/-- The document that a JSON value is. -/
def Document.ofJson (v : Json) : Document := { root := .ofJson v }

end PlanningAgents
