import PlanningAgents.World

/-!
# PlanningAgents.Sense

Questions about who is near whom.  Answers are deterministic: of two entities at the same distance
the one with the smaller number comes first.

Distances are compared as squares, by the ordering of machine numbers, in which NaN is neither
below nor above anything.  The two queries treat such a distance differently: `nearestMatching`
drops an entity when its distance exceeds the radius, `allInRange` keeps one when its distance
does not.
-/

namespace PlanningAgents

/-- An entity found by a query, with its distance from the one who asks. -/
structure Sensed where
  entity : EntityId
  distance : Float32
  deriving Repr, Inhabited

/-- Options of `Sense.allInRange`. -/
structure RangeQuery where
  /-- List the asking entity too, at its distance zero. -/
  includeSelf : Bool := false
  /-- Keep only this many of the nearest. -/
  maxResults : Option Nat := none
  deriving Repr, Inhabited

/-- `x`, or zero when `x` is not above zero. -/
def Float32.atLeastZero (x : Float32) : Float32 := if 0 < x then x else 0

namespace Sense

/-- An entity with the square of its distance. -/
abbrev Sighting := Float32 × EntityId

/-- By distance, then by entity.  A distance that is NaN ties with every other. -/
def Sighting.compare (a b : Sighting) : Ordering :=
  (if a.1 < b.1 then .lt else if b.1 < a.1 then .gt else .eq : Ordering).then (Ord.compare a.2 b.2)

/-- The square of a radius, of which a negative one counts as zero. -/
def squaredRadius (radius : Float32) : Float32 :=
  Float32.atLeastZero radius * Float32.atLeastZero radius

/-- The answer that a sighting stands for. -/
def Sighting.toSensed (s : Sighting) : Sensed := ⟨s.2, s.1.sqrt⟩

/-- The better of the best sighting so far and another; a tie keeps the earlier one. -/
def Sighting.better (best : Option Sighting) (s : Sighting) : Option Sighting :=
  match best with
  | none => some s
  | some b => if Sighting.compare s b = .lt then some s else some b

variable {W : Type} [World W]

/-- Where an entity stands. -/
def position (world : W) (entity : EntityId) : Option Vec2 := World.position world entity

/-- The distance between two entities that both stand somewhere. -/
def distance (world : W) (a b : EntityId) : Option Float32 := do
  let p ← World.position world a
  let q ← World.position world b
  return p.distance q

/-- Every listed entity with the square of its distance from `origin`, in listed order. -/
def sightings (world : W) (origin : Vec2) : List Sighting :=
  (World.positioned world).map fun e => (origin.distanceSquared e.2, e.1)

/-- The nearest other entity that `accept` takes and that is not beyond `radius`. -/
def nearestMatching (world : W) (entity : EntityId) (radius : Float32)
    (accept : EntityId → Bool) : Option Sensed := do
  let origin ← World.position world entity
  let candidates := (sightings world origin).filter fun s =>
    s.2 != entity && accept s.2 && !(decide (squaredRadius radius < s.1))
  let best ← candidates.foldl Sighting.better none
  return best.toSensed

/-- The nearest other entity that is not beyond `radius`. -/
def nearest (world : W) (entity : EntityId) (radius : Float32) : Option Sensed :=
  nearestMatching world entity radius fun _ => true

/-- Drops a sighting of the same entity as the one before it. -/
def dropRepeats : List Sighting → List Sighting
  | [] => []
  | s :: rest =>
    s :: (dropRepeats rest).dropWhile (fun t => t.2 == s.2)

/-- Every entity within `radius`, nearest first. -/
def allInRange (world : W) (entity : EntityId) (radius : Float32) (query : RangeQuery) :
    List Sensed :=
  match World.position world entity with
  | none => []
  | some origin =>
    let found := (sightings world origin).filter fun s =>
      (query.includeSelf || s.2 != entity) && decide (s.1 ≤ squaredRadius radius)
    let sorted := dropRepeats (found.mergeSort fun a b => Sighting.compare a b != .gt)
    let kept := match query.maxResults with
      | none => sorted
      | some n => sorted.take n
    kept.map Sighting.toSensed

end Sense

end PlanningAgents
