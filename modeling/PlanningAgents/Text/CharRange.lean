/-!
# PlanningAgents.Text.CharRange

Sets of characters given by the ranges of their code points.
-/

namespace PlanningAgents.Text

/-- A range of code points, both ends included. -/
abbrev CharRange := Nat × Nat

/-- Whether a range holds the code point of `c`. -/
def CharRange.holds (r : CharRange) (c : Char) : Bool := r.1 ≤ c.toNat && c.toNat ≤ r.2

/-- Whether one of the ranges holds `c`. -/
def inRanges (ranges : List CharRange) (c : Char) : Bool := ranges.any (·.holds c)

end PlanningAgents.Text
