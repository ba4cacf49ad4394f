import Mathlib.Data.Finite.Prod
import PlanningAgents.Atoms.State

/-!
# PlanningAgents.Proofs.Atoms.Distance

The number of goal atoms that still differ, as an estimate of what the rest of a way costs.  An
effect can bring a state closer to the goal only by the atoms that effect and goal both specify
(`WorldState.shared`), so an action that costs at least that much never pays for less than it
gains.

Main statements:

* `WorldState.testBit_changed_iff` — what has changed between states is where they differ;
* `WorldState.distanceTo_eq_zero_iff` — the distance is zero exactly where the goal is met;
* `WorldState.distanceTo_le_apply` — an effect gains at most the atoms that it shares with the goal.
-/

namespace PlanningAgents

/-! ## counting bits -/

/-- No bit is counted exactly when none of them is set. -/
theorem countBits_eq_zero_iff (w : UInt64) (n : Nat) :
    countBits w n = 0 ↔ ∀ i < n, testBit w i = false := by
  induction n with
  | zero => simp [countBits]
  | succ n ih =>
      rw [countBits, Nat.add_eq_zero_iff, ih]
      constructor
      · rintro ⟨hlow, htop⟩ i hi
        obtain h | rfl := Nat.lt_succ_iff_lt_or_eq.mp hi
        · exact hlow i h
        · by_contra hset
          simp [Bool.not_eq_false] at hset
          simp [hset] at htop
      · intro h
        exact ⟨fun i hi => h i (by omega), by simp [h n (by omega)]⟩

/-- Bits that are all covered by two other words are no more than the bits of these together. -/
theorem countBits_le_add {u v w : UInt64} (n : Nat)
    (h : ∀ i < n, testBit u i = true → testBit v i = true ∨ testBit w i = true) :
    countBits u n ≤ countBits v n + countBits w n := by
  induction n with
  | zero => exact Nat.zero_le _
  | succ n ih =>
      have hlow := ih fun i hi => h i (by omega)
      have htop := h n (by omega)
      simp only [countBits]
      grind

/-- Words with the same bits are the same. -/
theorem eq_of_testBit {v w : UInt64} (h : ∀ i < 64, testBit v i = testBit w i) : v = w := by
  rw [← UInt64.toBitVec_inj]
  ext i hi
  have hbit := h i hi
  rw [testBit_eq_getLsbD v hi, testBit_eq_getLsbD w hi] at hbit
  simpa [BitVec.getLsbD_eq_getElem hi] using hbit

namespace WorldState

/-! ## atoms that differ -/

/-- Both states specify an atom, and they differ on it. -/
def DiffersAt (s t : WorldState) (i : Nat) : Prop :=
  ∃ value, s.value? i = some value ∧ t.value? i = some !value

theorem DiffersAt.symm {s t : WorldState} {i : Nat} (h : s.DiffersAt t i) : t.DiffersAt s i := by
  obtain ⟨value, hs, ht⟩ := h
  exact ⟨!value, ht, by rw [hs, Bool.not_not]⟩

theorem DiffersAt.ne {s t : WorldState} {i : Nat} (h : s.DiffersAt t i) : s ≠ t := by
  rintro rfl
  obtain ⟨value, hs, ht⟩ := h
  rw [hs] at ht
  simp at ht

/-- The changed atoms are those on which the states differ. -/
theorem testBit_changed_iff (s t : WorldState) {i : Nat} (hi : i < 64) :
    testBit (s.changed t) i = true ↔ s.DiffersAt t i := by
  simp only [changed, testBit_and, testBit_xor, testBit_not, hi, DiffersAt, value?]
  cases testBit s.dontcare i <;> cases testBit t.dontcare i <;> cases testBit s.values i <;>
    cases testBit t.values i <;> simp

theorem not_differsAt_of_changed_eq_zero {s t : WorldState} (h : s.changed t = 0) {i : Nat}
    (hi : i < 64) : ¬s.DiffersAt t i := by
  rw [← testBit_changed_iff s t hi, h]
  simp [testBit_eq_getLsbD _ hi]

/-! ## the distance to a goal -/

/-- How many atoms two states both specify. -/
def shared (s t : WorldState) : Nat := countBits (s.specified &&& t.specified) 64

/-- The distance is zero exactly where the goal is met. -/
theorem distanceTo_eq_zero_iff (s goal : WorldState) :
    s.distanceTo goal = 0 ↔ s.meets goal = true := by
  rw [distanceTo, countBits_eq_zero_iff, meets, beq_iff_eq]
  constructor
  · intro h
    apply eq_of_testBit
    intro i hi
    have hbit := h i hi
    rw [testBit_and _ _ hi, testBit_xor _ _ hi] at hbit
    rw [testBit_and _ _ hi, testBit_and _ _ hi]
    grind
  · intro h i hi
    have hbit := congrArg (testBit · i) h
    simp only [testBit_and _ _ hi] at hbit
    rw [testBit_and _ _ hi, testBit_xor _ _ hi]
    grind

/-- Effects bring themselves about. -/
theorem apply_meets (s effect : WorldState) : (s.apply effect).meets effect = true := by
  rw [meets, beq_iff_eq]
  apply eq_of_testBit
  intro i hi
  simp only [apply, testBit_and _ _ hi, testBit_or _ _ hi, testBit_not _ hi]
  grind

/-- An effect gains at most the atoms that it shares with the goal. -/
theorem distanceTo_le_apply (s effect goal : WorldState) :
    s.distanceTo goal ≤ (s.apply effect).distanceTo goal + effect.shared goal := by
  apply countBits_le_add
  intro i hi hbit
  rw [testBit_and _ _ hi, testBit_xor _ _ hi, testBit_not _ hi] at hbit
  -- an atom that the effect leaves alone differs afterwards just as it did before
  cases heffect : testBit effect.dontcare i with
  | true =>
      left
      simp only [apply, testBit_and _ _ hi, testBit_or _ _ hi, testBit_xor _ _ hi,
        testBit_not _ hi, heffect]
      simpa using hbit
  | false =>
      right
      simp only [specified, testBit_and _ _ hi, testBit_not _ hi, heffect]
      simp_all

/-- There are only finitely many states. -/
instance : Finite WorldState := by
  have hword : Finite UInt64 :=
    Finite.of_injective UInt64.toFin fun v w h => UInt64.toFin_inj.mp h
  apply Finite.of_injective fun s : WorldState => (s.values, s.dontcare)
  intro s t h
  cases s
  cases t
  simpa using h

end WorldState

end PlanningAgents
