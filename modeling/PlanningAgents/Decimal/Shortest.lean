import PlanningAgents.Decimal.Binary

/-!
# PlanningAgents.Decimal.Shortest

The decimal numeral with the fewest digits that reads back as a given machine number and, of
those, the one nearest to it.

A numeral reads back as the number when it lies between the midpoints to the number's two
neighbours; a midpoint itself reads back when the mantissa is even.  For 1, 2, … digits the two
points of the decimal grid next to the number are tried in exact arithmetic.  If any point of a
grid reads back then so does one of these two, so the first grid with a hit has the fewest digits.
-/

namespace PlanningAgents.Decimal

/-- Which of two equally near numerals is taken. -/
inductive Tie where
  /-- The greater one. -/
  | up
  /-- The one whose last digit is even. -/
  | even
  deriving DecidableEq, Repr

/-- The numeral `digits * 10 ^ scale`. -/
structure Scaled where
  digits : Nat
  scale : Int
  deriving DecidableEq, Repr, Inhabited

/-- How many decimal digits a number has. -/
def digitCount (n : Nat) : Nat := (Nat.toDigits 10 n).length

/-- The power of ten of the leading digit of `num / den`. -/
def leadingPower (num den : Nat) : Int :=
  if den ≤ num then (digitCount (num / den) : Int) - 1
  else -(digitCount ((den + num - 1) / num - 1) : Int)

/-- A positive number with its two midpoints, as numerators over one denominator. -/
structure Interval where
  low : Nat
  value : Nat
  high : Nat
  denominator : Nat
  /-- Whether the midpoints themselves belong to it. -/
  closed : Bool

/-- The numbers that read back as `mantissa * 2 ^ exponent`. -/
def interval (mantissa : Nat) (exponent : Int) (atBoundary : Bool) : Interval :=
  let grow := 1 <<< (exponent - 2).toNat
  { low := (4 * mantissa - if atBoundary then 1 else 2) * grow
    value := 4 * mantissa * grow
    high := (4 * mantissa + 2) * grow
    denominator := 1 <<< (2 - exponent).toNat
    closed := mantissa % 2 = 0 }

/-- The same numbers in units of `10 ^ k`. -/
def Interval.inUnits (i : Interval) (k : Int) : Interval :=
  let grow := Nat.pow 10 (-k).toNat
  { i with
    low := i.low * grow
    value := i.value * grow
    high := i.high * grow
    denominator := i.denominator * Nat.pow 10 k.toNat }

/-- Whether the interval holds the whole number `d`. -/
def Interval.holds (i : Interval) (d : Nat) : Bool :=
  let p := d * i.denominator
  if i.closed then i.low ≤ p && p ≤ i.high else i.low < p && p < i.high

/-- Of the whole numbers next to the value, the nearest one that the interval holds. -/
def Interval.pick (i : Interval) (tie : Tie) : Option Nat :=
  let below := i.value / i.denominator
  let rest := i.value % i.denominator
  let above := if rest = 0 then below else below + 1
  match i.holds below, i.holds above with
  | false, false => none
  | true, false => some below
  | false, true => some above
  | true, true =>
    if 2 * rest < i.denominator then some below
    else if i.denominator < 2 * rest then some above
    else match tie with
      | .up => some above
      | .even => some (if below % 2 = 0 then below else above)

/-- Moves the zeros at the end of the digits into the scale. -/
def Scaled.trim (s : Scaled) : Scaled :=
  if h : s.digits ≠ 0 ∧ s.digits % 10 = 0 then
    Scaled.trim ⟨s.digits / 10, s.scale + 1⟩
  else s
termination_by s.digits
decreasing_by omega

/-- The shortest numeral for `mantissa * 2 ^ exponent`, which is not zero.  Seventeen digits always
suffice for the formats of this library. -/
def shortest (mantissa : Nat) (exponent : Int) (atBoundary : Bool) (tie : Tie) : Scaled :=
  let i := interval mantissa exponent atBoundary
  let lead := leadingPower i.value i.denominator
  let found := (List.range 18).findSome? fun (n : Nat) =>
    let k := lead - n
    ((i.inUnits k).pick tie).map fun d => (⟨d, k⟩ : Scaled)
  (found.getD ⟨mantissa, exponent⟩).trim

end PlanningAgents.Decimal
