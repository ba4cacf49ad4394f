/-!
# PlanningAgents.Decimal.Numeral

Decimal numerals as they are written, and the machine numbers they stand for.

A numeral is read in one of two ways.  `Numeral.nearest` gives the machine number nearest to its
value.  `Numeral.scaled` is the quick reading: the digits that fit a 64-bit word, rounded once, are
multiplied or divided by one power of ten.
-/

namespace PlanningAgents.Decimal

/-- A numeral: its digits before and behind the point, and its exponent. -/
structure Numeral where
  negative : Bool
  whole : List Nat
  fraction : List Nat := []
  exponent : Int := 0
  deriving Repr, DecidableEq

namespace Numeral

/-- The number that a list of decimal digits spells. -/
def ofDigits (ds : List Nat) : Nat := ds.foldl (fun n d => 10 * n + d) 0

/-- Appends digits to a number as long as it fits 64 bits; also says how many were taken. -/
def takeDigits (n : Nat) : List Nat → Nat × Nat
  | [] => (n, 0)
  | d :: rest =>
    if 10 * n + d < UInt64.size then
      let (m, k) := takeDigits (10 * n + d) rest
      (m, k + 1)
    else (n, 0)

/-- A power of ten in double precision. -/
def powerOfTen (n : Nat) : Float := Float.ofScientific 1 false n

/-- Divides by `10 ^ e`, in steps of which each is in range. -/
def scaleDown (x : Float) (e : Nat) : Float :=
  if h : e ≤ 308 then x / powerOfTen e
  else if x == 0 then x
  else scaleDown (x / powerOfTen 308) (e - 308)
termination_by e
decreasing_by omega

/-- Restores the sign of a magnitude. -/
def withSign (negative : Bool) (x : Float) : Float := if negative then -x else x

/-- The quick reading; `none` when the number is too great. -/
def scaled (n : Numeral) : Option Float :=
  let (word, taken) := takeDigits 0 n.whole
  let dropped : Int := n.whole.length - taken
  let (word, behind) := takeDigits word n.fraction
  let exponent := dropped - behind + n.exponent
  let x := word.toUInt64.toFloat
  if Int32.maxValue.toInt < n.exponent.natAbs then
    if word ≠ 0 && 0 < n.exponent then none else some (withSign n.negative 0)
  else if exponent < 0 then some (withSign n.negative (scaleDown x exponent.natAbs))
  else if 308 < exponent then if x == 0 then some (withSign n.negative x) else none
  else
    let y := x * powerOfTen exponent.natAbs
    if y.isInf then none else some (withSign n.negative y)

/-- All digits of the numeral, without leading zeros. -/
def digits (n : Numeral) : List Nat := (n.whole ++ n.fraction).dropWhile (· = 0)

/-- The machine number nearest to the value; beyond the greatest one it is infinite. -/
def nearest (n : Numeral) : Float :=
  let ds := n.digits
  let exponent := n.exponent - n.fraction.length
  let magnitude :=
    if ds.isEmpty || ds.length + exponent < -400 then 0
    else if 400 < ds.length + exponent then 1 / 0
    else Float.ofScientific (ofDigits ds) (exponent < 0) exponent.natAbs
  withSign n.negative magnitude

/-! ## characters -/

/-- The value of a decimal digit. -/
def digit? (c : Char) : Option Nat := if c.isDigit then some (c.toNat - '0'.toNat) else none

/-- The leading digits of a text, with what follows them. -/
def digitsOf (cs : List Char) : List Nat × List Char :=
  ((cs.takeWhile Char.isDigit).filterMap digit?, cs.dropWhile Char.isDigit)

/-- Reads the exponent that ends a numeral, if there is one. -/
def exponent? : List Char → Option (Option Int)
  | [] => some none
  | c :: rest =>
    if c = 'e' || c = 'E' then
      let (negative, rest) := match rest with
        | '+' :: r => (false, r)
        | '-' :: r => (true, r)
        | r => (false, r)
      match digitsOf rest with
      | (d :: ds, []) =>
        let n : Int := ofDigits (d :: ds)
        some (some (if negative then -n else n))
      | _ => none
    else none

/-- Reads a numeral as people write it: with digits before or behind the point, or both. -/
def ofChars? (cs : List Char) : Option Numeral := do
  let (negative, cs) := match cs with
    | '-' :: r => (true, r)
    | r => (false, r)
  let (whole, cs) := digitsOf cs
  let (fraction, cs) := match cs with
    | '.' :: r => digitsOf r
    | r => ([], r)
  if whole.isEmpty && fraction.isEmpty then none
  let exponent ← exponent? cs
  return { negative, whole, fraction, exponent := exponent.getD 0 }

end Numeral

end PlanningAgents.Decimal
