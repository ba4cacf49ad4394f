import PlanningAgents.Definition.Spec
import PlanningAgents.Json.Value
import PlanningAgents.Node.Decode

/-!
# PlanningAgents.Definition.Codec

Definitions as structured data.  Some fields have older names that still count.  A section that is
left out is empty, and what an optional field does not say is not written out either.
-/

namespace PlanningAgents

open Node (required optional)

/-! ## reading -/

/-- A watch is the text of a pattern or a list of texts. -/
instance : Decode WatchSpec where
  decode n := do
    match ← n.follow with
    | .scalar s => return .pattern (← s.freeText)
    | .list _ items =>
      return .atoms (← items.mapM fun n => do
        match ← n.follow with
        | .scalar s => return ← s.freeText
        | _ => failure)
    | _ => failure

instance : Decode ActionSpec where
  decode n := do
    match ← n.fields [["name"], ["cost"], ["pre", "preconditions"], ["post", "postconditions"],
        ["watch"]] with
    | [name, cost, pre, post, watch] =>
      return { name := ← required name, cost := ← optional 1 cost, pre := ← optional .empty pre,
               post := ← optional .empty post, watch := ← optional none watch }
    | _ => failure

instance : Decode EntityTypeSpec where
  decode n := do
    match ← n.fields [["initial", "initial_state"], ["goal", "goal_state", "goal_template"]] with
    | [initial, goal] =>
      return { initial := ← optional .empty initial, goal := ← optional .empty goal }
    | _ => failure

/-- The names of the sections of a definition. -/
def definitionSections : List (List String) :=
  [["actions"], ["entity_types", "types"], ["max_retries"]]

instance : Decode DefinitionData where
  decode n := do
    match ← n.fields definitionSections with
    | [actions, entityTypes, maxRetries] =>
      return { actions := ← optional [] actions, entityTypes := ← optional .empty entityTypes,
               maxRetries := ← optional none maxRetries }
    | _ => failure

instance : Decode DefinitionOverrides where
  decode n := do
    match ← n.fields definitionSections with
    | [actions, entityTypes, maxRetries] =>
      return { actions := ← optional none actions, entityTypes := ← optional none entityTypes,
               maxRetries := ← optional none maxRetries }
    | _ => failure

/-! ## writing -/

/-- Truth values by name. -/
def AtomMap.toJson (m : AtomMap) : Json := .object (m.toList.map fun e => (e.1, .bool e.2))

/-- A watch as data. -/
def WatchSpec.toJson : WatchSpec → Json
  | .pattern p => .string p
  | .atoms names => .strings names

/-- A member that is written only when there is something to say. -/
def Json.memberOf (name : String) (f : α → Json) : Option α → List (String × Json)
  | none => []
  | some a => [(name, f a)]

/-- An action as data. -/
def ActionSpec.toJson (a : ActionSpec) : Json :=
  .object ([("name", .string a.name), ("cost", .nat a.cost.toNat), ("pre", AtomMap.toJson a.pre),
    ("post", AtomMap.toJson a.post)] ++ Json.memberOf "watch" WatchSpec.toJson a.watch)

/-- An entity type as data. -/
def EntityTypeSpec.toJson (t : EntityTypeSpec) : Json :=
  .object [("initial", AtomMap.toJson t.initial), ("goal", AtomMap.toJson t.goal)]

/-- A definition as data. -/
def DefinitionData.toJson (d : DefinitionData) : Json :=
  .object ([("actions", .array (d.actions.map (·.toJson))),
    ("entity_types", .object (d.entityTypes.toList.map fun e => (e.1, e.2.toJson)))] ++
    Json.memberOf "max_retries" (fun n => .nat n.toNat) d.maxRetries)

end PlanningAgents
