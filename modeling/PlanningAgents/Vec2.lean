/-!
# PlanningAgents.Vec2

Points and displacements in the plane, with single-precision coordinates.
-/

namespace PlanningAgents

/-- A point or displacement in the plane. -/
structure Vec2 where
  x : Float32
  y : Float32
  deriving Repr, Inhabited

namespace Vec2

/-- The origin. -/
def zero : Vec2 := ⟨0, 0⟩

/-- Coordinates are compared as numbers: the two zeros are equal and NaN equals nothing. -/
instance : BEq Vec2 := ⟨fun a b => a.x == b.x && a.y == b.y⟩

instance : Add Vec2 := ⟨fun a b => ⟨a.x + b.x, a.y + b.y⟩⟩

instance : Sub Vec2 := ⟨fun a b => ⟨a.x - b.x, a.y - b.y⟩⟩

/-- The square of the length, without taking a root. -/
def lengthSquared (v : Vec2) : Float32 := v.x * v.x + v.y * v.y

/-- The Euclidean length. -/
def length (v : Vec2) : Float32 := v.lengthSquared.sqrt

/-- The distance between two points. -/
def distance (a b : Vec2) : Float32 := (a - b).length

/-- The square of the distance between two points. -/
def distanceSquared (a b : Vec2) : Float32 := (a - b).lengthSquared

end Vec2

end PlanningAgents
