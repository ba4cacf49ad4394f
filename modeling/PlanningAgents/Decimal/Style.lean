import PlanningAgents.Decimal.Shortest

/-!
# PlanningAgents.Decimal.Style

How a shortest numeral is laid out: with a point among its digits or with an exponent after them.
Each kind of output of the library is one `Style`.
-/

namespace PlanningAgents.Decimal

/-- The decisions that a numeral's layout leaves open. -/
structure Style where
  /-- Which of two equally near shortest numerals is written. -/
  tie : Tie
  /-- Whether a number whose decimal point stands after this many of its digits is written with
  that point, and not with an exponent. -/
  positional : Int → Bool
  /-- What follows the digits of a whole number written without an exponent. -/
  wholeEnd : String
  /-- What stands before the digits of an exponent that is not negative. -/
  exponentPlus : String
  nan : String
  infinity : String
  negativeInfinity : String

/-- Numbers for people: never an exponent, and no point after a whole number. -/
def Style.plain : Style :=
  { tie := .up, positional := fun _ => true, wholeEnd := "", exponentPlus := "", nan := "NaN",
    infinity := "inf", negativeInfinity := "-inf" }

/-- Numbers in data files: a point or an exponent marks them as not integers, and exponents begin
beyond sixteen digits before the point or five zeros behind it and always have a sign.  There is no
text for what is not finite. -/
def Style.data : Style :=
  { tie := .even, positional := fun point => -5 < point && point ≤ 16, wholeEnd := ".0",
    exponentPlus := "+", nan := "null", infinity := "null", negativeInfinity := "null" }

/-- A run of zeros. -/
def zeros (n : Nat) : String := "".pushn '0' n

/-- Writes `digits * 10 ^ scale`, which is positive. -/
def Style.layout (style : Style) (s : Scaled) : String :=
  let ds := toString s.digits
  let point : Int := ds.length + s.scale
  if style.positional point then
    if 0 ≤ s.scale then ds ++ zeros s.scale.toNat ++ style.wholeEnd
    else if 0 < point then
      String.ofList (ds.toList.take point.toNat) ++ "." ++
        String.ofList (ds.toList.drop point.toNat)
    else "0." ++ zeros (-point).toNat ++ ds
  else
    let exponent := (if 0 < point then style.exponentPlus else "") ++ toString (point - 1)
    match ds.toList with
    | [] => ""
    | [d] => String.ofList [d] ++ "e" ++ exponent
    | d :: rest => String.ofList (d :: '.' :: rest) ++ "e" ++ exponent

/-- Puts a minus sign before a text. -/
def signed (negative : Bool) (s : String) : String := if negative then "-" ++ s else s

/-- Writes a number. -/
def Style.write (style : Style) : Binary → String
  | .nan => style.nan
  | .infinite negative => if negative then style.negativeInfinity else style.infinity
  | .finite negative mantissa exponent atBoundary =>
    if mantissa = 0 then signed negative ("0" ++ style.wholeEnd)
    else signed negative (style.layout (shortest mantissa exponent atBoundary style.tie))

end PlanningAgents.Decimal
