/-!
# PlanningAgents.Atoms.State

World states as the planner sees them: each of 64 atoms is true, false or left unspecified.  Two
words hold a state, one with the values and one that marks what is unspecified.

Main statements:

* `WorldState.value?_set` — writing an atom decides this atom and keeps the others.
* `WorldState.value?_apply` — an effect decides the atoms that it specifies and keeps the others.
-/

namespace PlanningAgents

/-! ## bits of a word -/

/-- The word in which only bit `i` is set. -/
def bit (i : Nat) : UInt64 := 1 <<< i.toUInt64

/-- Whether bit `i` of a word is set. -/
def testBit (w : UInt64) (i : Nat) : Bool := (w >>> i.toUInt64) &&& 1 == 1

/-- How many of the lowest `n` bits of a word are set. -/
def countBits (w : UInt64) : Nat → Nat
  | 0 => 0
  | n + 1 => countBits w n + if testBit w n then 1 else 0

theorem shiftAmount_toNat {i : Nat} (h : i < 64) : (i.toUInt64.toBitVec % 64).toNat = i := by
  show (i.toUInt64.toBitVec % 64#64).toNat = i
  simp [Nat.toUInt64]; omega

theorem testBit_eq_getLsbD (w : UInt64) {i : Nat} (h : i < 64) :
    testBit w i = w.toBitVec.getLsbD i := by
  unfold testBit
  rw [Bool.eq_iff_iff, beq_iff_eq, ← UInt64.toBitVec_inj]
  simp only [UInt64.toBitVec_and, UInt64.toBitVec_shiftRight, UInt64.toBitVec_one]
  rw [BitVec.ushiftRight_eq', shiftAmount_toNat h]
  constructor
  · intro e
    have := congrArg (fun v => BitVec.getLsbD v 0) e
    simpa using this
  · intro e
    ext k hk
    by_cases hk0 : k = 0
    · subst hk0; simpa using e
    · simp [hk0, BitVec.getElem_one]

theorem getLsbD_bit {i : Nat} (h : i < 64) (j : Nat) :
    (bit i).toBitVec.getLsbD j = decide (i = j) := by
  unfold bit
  simp only [UInt64.toBitVec_shiftLeft, UInt64.toBitVec_one]
  rw [BitVec.shiftLeft_eq', shiftAmount_toNat h]
  simp
  grind

theorem testBit_and (v w : UInt64) {i : Nat} (h : i < 64) :
    testBit (v &&& w) i = (testBit v i && testBit w i) := by
  simp [testBit_eq_getLsbD, h]

theorem testBit_or (v w : UInt64) {i : Nat} (h : i < 64) :
    testBit (v ||| w) i = (testBit v i || testBit w i) := by
  simp [testBit_eq_getLsbD, h]

theorem testBit_xor (v w : UInt64) {i : Nat} (h : i < 64) :
    testBit (v ^^^ w) i = (testBit v i ^^ testBit w i) := by
  simp [testBit_eq_getLsbD, h]

theorem testBit_not (w : UInt64) {i : Nat} (h : i < 64) : testBit (~~~w) i = !testBit w i := by
  simp [testBit_eq_getLsbD, h]

theorem testBit_bit {i j : Nat} (hi : i < 64) (hj : j < 64) :
    testBit (bit i) j = decide (i = j) := by
  rw [testBit_eq_getLsbD _ hj, getLsbD_bit hi]

/-! ## states -/

/-- A partial assignment of truth values to 64 atoms. -/
structure WorldState where
  values : UInt64
  dontcare : UInt64
  deriving DecidableEq, Repr, Inhabited

namespace WorldState

/-- Every atom unspecified. -/
def empty : WorldState := ⟨0, ~~~0⟩

/-- Writes one atom. -/
def set (s : WorldState) (i : Nat) (value : Bool) : WorldState :=
  { values := if value then s.values ||| bit i else s.values &&& ~~~(bit i)
    dontcare := s.dontcare &&& ~~~(bit i) }

/-- What the state says of one atom. -/
def value? (s : WorldState) (i : Nat) : Option Bool :=
  if testBit s.dontcare i then none else some (testBit s.values i)

/-- The atoms that the state specifies. -/
def specified (s : WorldState) : UInt64 := ~~~s.dontcare

/-- Whether every atom that `expected` specifies has the same value here. -/
def meets (s expected : WorldState) : Bool :=
  s.values &&& ~~~expected.dontcare == expected.values &&& ~~~expected.dontcare

/-- The state after an effect: what `effect` specifies is overwritten. -/
def apply (s effect : WorldState) : WorldState :=
  { values := (s.values &&& effect.dontcare) ||| (effect.values &&& ~~~effect.dontcare)
    dontcare := s.dontcare &&& effect.dontcare }

/-- The atoms that both states specify and on which they differ. -/
def changed (s t : WorldState) : UInt64 :=
  (s.values ^^^ t.values) &&& ~~~s.dontcare &&& ~~~t.dontcare

/-- How many atoms specified by `goal` differ here. -/
def distanceTo (s goal : WorldState) : Nat :=
  countBits ((s.values ^^^ goal.values) &&& ~~~goal.dontcare) 64

/-- A state is canonical when unspecified atoms have the value bit zero. -/
def Canonical (s : WorldState) : Prop := s.values &&& s.dontcare = 0

instance (s : WorldState) : Decidable s.Canonical := inferInstanceAs (Decidable (_ = _))

/-- By the words of values, then by the words of unspecified atoms. -/
def compare (s t : WorldState) : Ordering :=
  (Ord.compare s.values t.values).then (Ord.compare s.dontcare t.dontcare)

instance : Ord WorldState := ⟨WorldState.compare⟩

instance : Std.TransOrd WorldState :=
  inferInstanceAs (Std.TransCmp
    (compareLex (compareOn WorldState.values) (compareOn WorldState.dontcare)))

instance : Std.LawfulEqOrd WorldState where
  eq_of_compare {s t} h := by
    have ⟨hv, hd⟩ := Ordering.then_eq_eq.1 h
    cases s; cases t
    simp_all only [Std.LawfulEqOrd.compare_eq_iff_eq]

@[simp] theorem value?_empty {i : Nat} (h : i < 64) : empty.value? i = none := by
  have : testBit (~~~0) i = true := by
    rw [testBit_not _ h, testBit_eq_getLsbD _ h]
    simp
  exact if_pos this

/-- Writing an atom decides this atom and keeps the others. -/
theorem value?_set (s : WorldState) {i j : Nat} (hi : i < 64) (hj : j < 64) (value : Bool) :
    (s.set i value).value? j = if i = j then some value else s.value? j := by
  cases value <;> by_cases h : i = j <;>
    simp [value?, set, testBit_and, testBit_or, testBit_not, testBit_bit, hi, hj, h]

/-- An effect decides the atoms that it specifies and keeps the others. -/
theorem value?_apply (s effect : WorldState) {i : Nat} (h : i < 64) :
    (s.apply effect).value? i = (effect.value? i).or (s.value? i) := by
  cases he : testBit effect.dontcare i <;>
    simp [value?, apply, testBit_and, testBit_or, testBit_not, h, he]

end WorldState

end PlanningAgents
