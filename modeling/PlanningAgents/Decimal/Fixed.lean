import PlanningAgents.Decimal.Style

/-!
# PlanningAgents.Decimal.Fixed

Numbers with a fixed count of decimal places, rounded from their exact value.

Main statements:

* `roundDiv_near` — rounding moves a quotient by at most half a unit.
-/

namespace PlanningAgents.Decimal

/-- The whole number nearest to `num / den`; a tie goes to the even one. -/
def roundDiv (num den : Nat) : Nat :=
  let below := num / den
  let rest := num % den
  if 2 * rest < den then below
  else if den < 2 * rest then below + 1
  else if below % 2 = 0 then below else below + 1

/-- Rounding moves a quotient by at most half a unit. -/
theorem roundDiv_near (num den : Nat) (h : 0 < den) :
    2 * num ≤ 2 * (roundDiv num den * den) + den ∧
      2 * (roundDiv num den * den) ≤ 2 * num + den := by
  have hm := Nat.div_add_mod num den
  have hr := Nat.mod_lt num h
  have hc : den * (num / den) = num / den * den := Nat.mul_comm ..
  have hs : (num / den + 1) * den = num / den * den + den := Nat.succ_mul ..
  unfold roundDiv
  simp only
  split
  · omega
  · split
    · omega
    · split <;> omega

/-- Writes a number with `places` digits behind the point. -/
def fixed (places : Nat) : Binary → String
  | .nan => "NaN"
  | .infinite negative => signed negative "inf"
  | .finite negative mantissa exponent _ =>
    let unit := Nat.pow 10 places
    let units := roundDiv ((mantissa <<< exponent.toNat) * unit) (1 <<< (-exponent).toNat)
    let whole := toString (units / unit)
    let part := toString (units % unit)
    let point := if places = 0 then "" else "." ++ zeros (places - part.length) ++ part
    signed negative (whole ++ point)

end PlanningAgents.Decimal
