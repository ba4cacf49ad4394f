/-!
# PlanningAgents.Json.Value

The values of JSON.  Whole numbers are kept apart from numbers with a point or an exponent, and
the members of an object stand in written order with repeats, since readers care about both.
-/

namespace PlanningAgents

/-- A JSON value. -/
inductive Json where
  | null
  | bool (b : Bool)
  | int (n : Int)
  | float (x : Float)
  | string (s : String)
  | array (items : List Json)
  | object (members : List (String × Json))
  /-- A value that is well formed but stands for nothing: a number beyond the range of machine
  numbers, or text with half of a surrogate pair.  It can be skipped but not used. -/
  | unusable
  deriving Inhabited

namespace Json

/-- The value of the first member with a name. -/
def member? (name : String) : Json → Option Json
  | .object members => members.lookup name
  | _ => none

instance : Coe String Json := ⟨.string⟩
instance : Coe Bool Json := ⟨.bool⟩

/-- A count as a value. -/
def nat (n : Nat) : Json := .int n

/-- A machine number as a value.  One that is not finite has none of its own and becomes null. -/
def number (x : Float) : Json := if x.isFinite then .float x else .null

/-- Texts as an array. -/
def strings (ss : List String) : Json := .array (ss.map .string)

/-- A value, or null where there is none. -/
def ofOption (f : α → Json) : Option α → Json
  | none => .null
  | some a => f a

end Json

end PlanningAgents
