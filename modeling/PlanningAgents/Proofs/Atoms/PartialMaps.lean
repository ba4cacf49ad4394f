import PlanningAgents.Proofs.Atoms.Renumbering

/-!
# PlanningAgents.Proofs.Atoms.PartialMaps

World states as partial maps.  Two words can say more than the partial map that they stand for: the
word of values may have bits where nothing is specified, and whether a state meets another depends
on them.  Canonical states have no such bits, every way of writing keeps them canonical, and so two
of them are the same as soon as they say the same of every atom.

An effect overrides a state, and effects that follow each other override it as one.  The empty state
is the effect that changes nothing; what it makes way for is the state itself if that is canonical,
and its canonical form if not.

Main statements:

* `WorldState.canonical_of_remap` — what is read into another table is canonical;
* `WorldState.Canonical.eq_iff` — canonical states are told apart by what they say;
* `WorldState.apply_assoc`, `WorldState.apply_empty`, `WorldState.empty_apply_eq_self_iff` — effects
  one after the other, and the effect that is none;
* `WorldState.shared_eq_card` — what two states both specify, counted atom by atom;
* `WorldState.partialMap_laws` — all of it.
-/

namespace PlanningAgents

/-- What is counted are the bits that are set. -/
theorem countBits_eq_card (w : UInt64) (n : Nat) :
    countBits w n = {i ∈ Finset.range n | testBit w i = true}.card := by
  rw [countBits_eq_sum, Finset.card_filter]

namespace WorldState

variable {s t : WorldState} {table into u : AtomTable} {i : Nat}

/-! ## canonical states -/

/-- Canonical states are the same exactly if they say the same of every atom. -/
theorem Canonical.eq_iff (hs : s.Canonical) (ht : t.Canonical) :
    s = t ↔ ∀ i < 64, s.value? i = t.value? i :=
  ⟨fun h _ _ => h ▸ rfl, hs.ext ht⟩

/-- Writing pairs one after another keeps a state canonical. -/
theorem Canonical.writeAll (h : s.Canonical) {pairs : List (String × Bool)}
    {write : AtomTable → WorldState → String → Bool → Except AgentError (WorldState × AtomTable)}
    (hwrites : AtomTable.Writes write) (hrun : into.writeAll write s pairs = (.ok t, u)) :
    t.Canonical := by
  induction pairs generalizing into s with
  | nil =>
      obtain ⟨hs, -⟩ := Prod.mk.inj hrun
      exact Except.ok.inj hs ▸ h
  | cons pair rest ih =>
      rw [AtomTable.writeAll] at hrun
      cases hfirst : write into s pair.1 pair.2 with
      | error e =>
          rw [hfirst] at hrun
          cases hrun
      | ok result =>
          rw [hfirst] at hrun
          obtain ⟨-, i, -, hset⟩ := hwrites hfirst
          exact ih (hset ▸ h.set i pair.2) hrun

/-- What is read into another table is canonical, since it is written anew. -/
theorem canonical_of_remap (hrun : s.remap table into = (.ok t, u)) : t.Canonical :=
  canonical_empty.writeAll AtomTable.writes_setRegistering hrun

/-! ## effects -/

/-- Effects that follow each other come to one effect. -/
theorem apply_assoc (s effect effect' : WorldState) :
    (s.apply effect).apply effect' = s.apply (effect.apply effect') := by
  rw [WorldState.mk.injEq]
  constructor
  · apply eq_of_testBit
    intro i hi
    simp only [apply, testBit_and _ _ hi, testBit_or _ _ hi, testBit_not _ hi]
    grind
  · simp only [apply, UInt64.and_assoc]

@[simp] theorem apply_empty (s : WorldState) : s.apply empty = s := by
  simp [apply, empty]

/-- Applied to the empty state, an effect loses the bits that stand for nothing. -/
theorem empty_apply (s : WorldState) : empty.apply s = ⟨s.values &&& s.specified, s.dontcare⟩ := by
  simp [apply, empty, specified]

theorem empty_apply_eq_self_iff : empty.apply s = s ↔ s.Canonical := by
  rw [canonical_iff, empty_apply, WorldState.mk.injEq, and_iff_left rfl, specified]
  constructor
  · intro h i hi hdontcare
    have hbit := congrArg (testBit · i) h
    simpa [testBit_and _ _ hi, testBit_not _ hi, hdontcare] using hbit.symm
  · intro h
    apply eq_of_testBit
    intro i hi
    have hzero := h i hi
    rw [testBit_and _ _ hi, testBit_not _ hi]
    grind

/-! ## atoms that are specified -/

theorem testBit_specified (s : WorldState) (hi : i < 64) :
    testBit s.specified i = (s.value? i).isSome := by
  rw [specified, testBit_not _ hi, value?]
  cases testBit s.dontcare i with
  | true => rfl
  | false => rfl

/-- What two states both specify, counted atom by atom. -/
theorem shared_eq_card (s t : WorldState) :
    s.shared t =
      {i ∈ Finset.range 64 | (s.value? i).isSome = true ∧ (t.value? i).isSome = true}.card := by
  rw [shared, countBits_eq_card]
  congr 1
  apply Finset.filter_congr
  intro i hi
  rw [Finset.mem_range] at hi
  rw [testBit_and _ _ hi, testBit_specified s hi, testBit_specified t hi, Bool.and_eq_true]

/-! ## the laws -/

/-- **States are partial maps.**  The empty state is canonical; writing an atom, applying an effect
and reading into another table keep states canonical, and canonical states are the same exactly if
they say the same of every atom.  An effect decides what it specifies and keeps the rest, effects
that follow each other come to one, and the empty state is the effect that changes nothing, and what
a canonical effect makes of nothing is itself.  An effect is met where it has been applied; a goal
is met exactly where nothing of it is left to be done, and an effect does no more of it than the
atoms that both specify. -/
theorem partialMap_laws :
    (empty.Canonical ∧
      (∀ s : WorldState, s.Canonical → ∀ i value, (s.set i value).Canonical) ∧
      (∀ s effect : WorldState, s.Canonical → effect.Canonical → (s.apply effect).Canonical) ∧
      ∀ (s t : WorldState) (table into u : AtomTable), s.Canonical →
        s.remap table into = (.ok t, u) → t.Canonical) ∧
    (∀ s t : WorldState, s.Canonical → t.Canonical →
      (s = t ↔ ∀ i < 64, s.value? i = t.value? i)) ∧
    (∀ s effect : WorldState, ∀ i < 64,
      (s.apply effect).value? i = (effect.value? i).or (s.value? i)) ∧
    (∀ s effect effect' : WorldState,
      (s.apply effect).apply effect' = s.apply (effect.apply effect')) ∧
    (∀ s : WorldState, s.apply empty = s) ∧
    (∀ s : WorldState, empty.apply s = s ↔ s.Canonical) ∧
    (∀ s effect : WorldState, (s.apply effect).meets effect = true) ∧
    (∀ s goal : WorldState, s.meets goal = true ↔ s.distanceTo goal = 0) ∧
    ∀ s effect goal : WorldState, s.distanceTo goal ≤ (s.apply effect).distanceTo goal +
      {i ∈ Finset.range 64 |
        (effect.value? i).isSome = true ∧ (goal.value? i).isSome = true}.card := by
  refine ⟨⟨canonical_empty, fun s h => h.set, fun s effect => Canonical.apply,
    fun s t table into u _ => canonical_of_remap⟩, fun s t => Canonical.eq_iff,
    fun s effect i hi => value?_apply s effect hi, apply_assoc, apply_empty,
    fun s => empty_apply_eq_self_iff, apply_meets,
    fun s goal => (distanceTo_eq_zero_iff s goal).symm, fun s effect goal => ?_⟩
  rw [← shared_eq_card]
  exact distanceTo_le_apply s effect goal

end WorldState

end PlanningAgents
