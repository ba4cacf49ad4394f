import PlanningAgents.Vec2

/-!
# PlanningAgents.World

What the agents may ask of the world they live in.  A world only has to exist: without answers of
its own it holds every entity valid and knows no positions.
-/

namespace PlanningAgents

/-- Entities are named by a number, and visited in the order of these numbers. -/
abbrev EntityId := UInt64

/-- Read access to a world. -/
class World (W : Type) where
  /-- Whether an entity still exists.  Entities that do not exist are never ticked. -/
  isValid : W → EntityId → Bool := fun _ _ => true
  /-- Where an entity stands, if that is known. -/
  position : W → EntityId → Option Vec2 := fun _ _ => none
  /-- Every entity that stands somewhere, in any order. -/
  positioned : W → List (EntityId × Vec2) := fun _ => []

/-- Types whose values name an entity by a stable number. -/
class StableId (ε : Type) where
  stableId : ε → UInt64

export StableId (stableId)

instance : StableId UInt64 := ⟨id⟩

instance : StableId UInt32 := ⟨UInt32.toUInt64⟩

instance : StableId USize := ⟨USize.toUInt64⟩

end PlanningAgents
