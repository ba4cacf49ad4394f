import PlanningAgents.Vec2
import PlanningAgents.Decimal.Style
import PlanningAgents.Text.Quoted

/-!
# PlanningAgents.Blackboard.Value

The kinds of values that an agent can note down, and how they are written for people.
-/

namespace PlanningAgents

/-- The kinds of noted values. -/
inductive ValueKind where
  | bool | int | float | double | text | entity | vec2
  deriving DecidableEq, Repr

/-- The name of a kind. -/
def ValueKind.name : ValueKind → String
  | .bool => "bool"
  | .int => "int"
  | .float => "float"
  | .double => "double"
  | .text => "string"
  | .entity => "entity"
  | .vec2 => "vec2"

/-- A noted value. -/
inductive Value where
  | bool (b : Bool)
  | int (n : Int64)
  | float (x : Float32)
  | double (x : Float)
  | text (s : String)
  /-- Another entity, by its stable number. -/
  | entity (id : UInt64)
  | vec2 (v : Vec2)
  deriving Inhabited

namespace Value

/-- The kind of a value. -/
def kind : Value → ValueKind
  | .bool _ => .bool
  | .int _ => .int
  | .float _ => .float
  | .double _ => .double
  | .text _ => .text
  | .entity _ => .entity
  | .vec2 _ => .vec2

/-- The value as a single-precision number, for the kinds that are numbers. -/
def toFloat32? : Value → Option Float32
  | .float x => some x
  | .double x => some x.toFloat32
  | .int n => some n.toFloat32
  | _ => none

/-- A single-precision number for people. -/
def showFloat32 (x : Float32) : String := Decimal.Style.plain.write (Decimal.ofFloat32 x)

/-- The kind and the value. -/
def describe (v : Value) : String :=
  v.kind.name ++ ":" ++ match v with
    | .bool b => if b then "true" else "false"
    | .int n => toString n.toInt
    | .float x => showFloat32 x
    | .double x => Decimal.Style.plain.write (Decimal.ofFloat x)
    | .text s => Text.quote s
    | .entity id => "#" ++ toString id.toNat
    | .vec2 v => "(" ++ showFloat32 v.x ++ ", " ++ showFloat32 v.y ++ ")"

end Value

end PlanningAgents
