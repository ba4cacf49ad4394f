import Mathlib
import PlanningAgents.Sense

/-!
# PlanningAgents.Proofs.Sense.Order

The order of distances.  Machine numbers other than NaN are ordered by sign, exponent and mantissa,
so each has a place in one linear order (`Sense.place`), which the two zeros share.  NaN has no
place of its own: no comparison with it holds.

A sighting is a distance with an entity.  One sighting comes before another when it is nearer, or
equally near and of a smaller entity (`Sense.Sighting.Before`).  As long as no distance is NaN this
is the order of one key (`Sense.Sighting.key`), and the queries compare by it.

Main statements:

* `Sense.lt_iff`, `Sense.le_iff`, `Sense.beq_iff` — comparisons of numbers as comparisons of places;
* `Sense.Sighting.compare_eq` — comparisons of sightings as comparisons of keys.
-/

namespace PlanningAgents

namespace Sense

open Float.Model (UnpackedFloat Format)
open Float.Model.UnpackedFloat (pack unpack unpackExponent unpackMantissa
  unpackExponent_packComponents unpackMantissa_packComponents)

/-! ## numbers -/

/-- Sign, exponent and mantissa in the order in which they count.  Infinities stand beyond all
finite numbers of their sign, and NaN stands apart. -/
def rank : UnpackedFloat → ℤ ×ₗ ℤ ×ₗ ℤ
  | .infinity .negative => toLex (-2, toLex (0, 0))
  | .finite .negative mantissa exponent _ => toLex (-1, toLex (-exponent, -mantissa))
  | .zero _ => toLex (0, toLex (0, 0))
  | .finite .positive mantissa exponent _ => toLex (1, toLex (exponent, mantissa))
  | .infinity .positive => toLex (2, toLex (0, 0))
  | .notANumber => toLex (3, toLex (0, 0))

theorem compare_natCast (m n : ℕ) : compare (m : ℤ) n = compare m n := by
  simp [compare, compareOfLessAndEq]

theorem compare_neg (m n : ℤ) : compare (-m) (-n) = (compare m n).swap := by
  rw [← Std.OrientedCmp.eq_swap]
  simp [compare, compareOfLessAndEq, eq_comm]

/-- What is not NaN compares by rank. -/
theorem compare_eq_rank {x y : UnpackedFloat} (hx : x ≠ .notANumber) (hy : y ≠ .notANumber) :
    x.compare y = some (compare (rank x) (rank y)) := by
  rcases x with (_ | _) | _ | _ | ⟨_ | _, m, e, hm⟩ <;>
    rcases y with (_ | _) | _ | _ | ⟨_ | _, n, f, hn⟩ <;>
    first
    | contradiction
    | rfl
    | simp [UnpackedFloat.compare, rank, Prod.Lex.compare_def, compareLex, compareOn, compare_neg,
        compare_natCast, Ordering.swap_then]

theorem compare_nan (x y : UnpackedFloat) (h : x = .notANumber ∨ y = .notANumber) :
    x.compare y = none := by
  rcases h with rfl | rfl
  · rfl
  · cases x <;> rfl

/-- Where a number stands among the numbers. -/
def place (x : Float32) : ℤ ×ₗ ℤ ×ₗ ℤ := rank x.toModel.unpack

variable {x y : Float32}

theorem isNaN_eq_false_iff : x.isNaN = false ↔ x.toModel.unpack ≠ .notANumber := by
  unfold Float32.isNaN Float32.Model.isNaN
  cases x.toModel.unpack <;> simp [UnpackedFloat.isNaN]

/-- The comparison of two numbers; there is none where one of them is NaN. -/
theorem compare_unpack (x y : Float32) :
    x.toModel.unpack.compare y.toModel.unpack =
      if x.isNaN = false ∧ y.isNaN = false then some (compare (place x) (place y)) else none := by
  split
  · next h => exact compare_eq_rank (isNaN_eq_false_iff.mp h.1) (isNaN_eq_false_iff.mp h.2)
  · next h =>
      simp only [isNaN_eq_false_iff, not_and_or, not_not] at h
      exact compare_nan _ _ h

theorem lt_iff : x < y ↔ x.isNaN = false ∧ y.isNaN = false ∧ place x < place y := by
  have hlt : x < y ↔ (x.toModel.unpack.compare y.toModel.unpack == some .lt) = true :=
    decide_eq_true_iff
  rw [hlt, compare_unpack]
  split <;> simp_all [compare_lt_iff_lt]

theorem le_iff : x ≤ y ↔ x.isNaN = false ∧ y.isNaN = false ∧ place x ≤ place y := by
  have hle : x ≤ y ↔ (x.toModel.unpack.compare y.toModel.unpack).any (·.isLE) = true :=
    decide_eq_true_iff
  rw [hle, compare_unpack]
  split <;> simp_all [Ordering.isLE_iff_ne_gt, compare_le_iff_le]

theorem beq_iff : (x == y) = true ↔ x.isNaN = false ∧ y.isNaN = false ∧ place x = place y := by
  have hbeq : (x == y) = (x.toModel.unpack.compare y.toModel.unpack == some .eq) := rfl
  rw [hbeq, compare_unpack]
  split <;> simp_all [compare_eq_iff_eq]

/-! ## the square of a radius -/

/-- Only NaN is stored as NaN. -/
theorem unpack_pack_ne_nan {f : UnpackedFloat} (hf : f ≠ .notANumber) :
    unpack Format.binary32 (pack Format.binary32 f) ≠ .notANumber := by
  -- The greatest exponent is kept for infinities, which have no mantissa, and for NaN.
  have hmantissa : unpackExponent (pack Format.binary32 f) = -1#_ →
      unpackMantissa (pack Format.binary32 f) = 0#_ := by
    cases f with
    | notANumber => contradiction
    | infinity sign => exact fun _ => unpackMantissa_packComponents
    | zero sign => exact fun _ => unpackMantissa_packComponents
    | finite sign mantissa exponent hpos =>
        simp only [pack]
        split
        · exact fun _ => unpackMantissa_packComponents
        · next hsmall =>
            split <;> rw [unpackExponent_packComponents] <;> intro h
            · have hnat := congrArg BitVec.toNat h
              simp [Format.binary32] at hnat hsmall
              omega
            · exact absurd h (by decide)
  simp only [unpack]
  split
  · next h => simp [hmantissa h]
  · split
    · split <;> simp
    · simp

theorem mul_self_ne_nan {f : UnpackedFloat} (hf : f ≠ .notANumber) :
    UnpackedFloat.mul Format.binary32 f f ≠ .notANumber := by
  cases f with
  | notANumber => contradiction
  | infinity sign => simp [UnpackedFloat.mul]
  | zero sign => simp [UnpackedFloat.mul]
  | finite sign mantissa exponent hpos =>
      simp only [UnpackedFloat.mul, UnpackedFloat.roundWithAccuracy]
      split <;> simp

/-- Whatever the radius is, NaN included, its square is a number. -/
theorem isNaN_squaredRadius (radius : Float32) : (squaredRadius radius).isNaN = false := by
  have hradius : (Float32.atLeastZero radius).isNaN = false := by
    unfold Float32.atLeastZero
    split
    · next h => exact (lt_iff.mp h).2.1
    · decide +kernel
  rw [isNaN_eq_false_iff] at hradius ⊢
  exact unpack_pack_ne_nan (mul_self_ne_nan hradius)

/-! ## sightings -/

namespace Sighting

/-- **One sighting comes before another** when it is nearer, or equally near and of a smaller
entity. -/
def Before (a b : Sighting) : Prop := a.1 < b.1 ∨ (a.1 == b.1) = true ∧ a.2 < b.2

instance (a b : Sighting) : Decidable (a.Before b) := inferInstanceAs (Decidable (_ ∨ _))

/-- A sighting at a distance that is a number. -/
def Measured (s : Sighting) : Prop := s.1.isNaN = false

instance (s : Sighting) : Decidable s.Measured := inferInstanceAs (Decidable (_ = _))

/-- What sightings are ordered by. -/
def key (s : Sighting) : (ℤ ×ₗ ℤ ×ₗ ℤ) ×ₗ ℕ := toLex (place s.1, s.2.toNat)

variable {a b : Sighting}

theorem before_iff (ha : a.Measured) (hb : b.Measured) : a.Before b ↔ a.key < b.key := by
  rw [Before, lt_iff, beq_iff, key, key, Prod.Lex.toLex_lt_toLex, UInt64.lt_iff_toNat_lt]
  simp only [show a.1.isNaN = false from ha, show b.1.isNaN = false from hb, true_and]

theorem compare_key (a b : Sighting) :
    Ord.compare a.key b.key =
      (Ord.compare (place a.1) (place b.1)).then (Ord.compare a.2.toNat b.2.toNat) := by
  rw [Prod.Lex.compare_def]
  rfl

theorem compare_entity (m n : EntityId) : Ord.compare m n = Ord.compare m.toNat n.toNat := by
  rcases lt_trichotomy m.toNat n.toNat with h | h | h
  · rw [compare_lt_iff_lt.mpr h, Std.compare_eq_lt, UInt64.lt_iff_toNat_lt]
    exact h
  · simp [UInt64.toNat_inj.mp h]
  · rw [compare_gt_iff_gt.mpr h, Std.compare_eq_gt, UInt64.lt_iff_toNat_lt]
    exact h

/-- **The queries compare sightings by their keys.** -/
theorem compare_eq (ha : a.Measured) (hb : b.Measured) :
    Sighting.compare a b = Ord.compare a.key b.key := by
  rw [compare_key, ← compare_entity, Sighting.compare]
  simp only [lt_iff, show a.1.isNaN = false from ha, show b.1.isNaN = false from hb, true_and]
  rcases lt_trichotomy (place a.1) (place b.1) with h | h | h
  · rw [if_pos h, compare_lt_iff_lt.mpr h]
  · simp [h]
  · rw [if_neg h.not_gt, if_pos h, compare_gt_iff_gt.mpr h]

/-- Sightings with one key are of one entity. -/
theorem entity_eq (h : a.key = b.key) : a.2 = b.2 := by
  simp only [key, EmbeddingLike.apply_eq_iff_eq, Prod.mk.injEq] at h
  exact UInt64.toNat_inj.mp h.2

/-- Of one entity, the sighting with the smaller key is the nearer one. -/
theorem le_of_key_le (ha : a.Measured) (hb : b.Measured) (hentity : a.2 = b.2)
    (h : a.key ≤ b.key) : a.1 ≤ b.1 := by
  simp only [key, Prod.Lex.toLex_le_toLex, hentity, le_refl, and_true] at h
  exact le_iff.mpr ⟨ha, hb, le_iff_lt_or_eq.mpr h⟩

end Sighting

end Sense

end PlanningAgents
