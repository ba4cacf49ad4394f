import PlanningAgents.Proofs.Planner.Optimality

/-!
# PlanningAgents.Proofs.Planner.Estimate

When the distance to a goal never promises more than it costs to get there.  That every action
costs something is not enough, since one action can bring several atoms of a goal about at once.
What counts is how many atoms an action can change: those that it sets and that its preconditions
do not already give the value that it sets them to (`PlannerAction.changes`).

Main statements:

* `Planner.Admissible` — the distance is at most what any way to the goal costs;
* `PlannerAction.distanceTo_le_apply` — an action gains at most the atoms that it can change;
* `PlannerAction.distanceTo_worst` — there is a state and a goal where it gains all of them;
* `Planner.admissible_iff` — the distance is admissible exactly if no action costs less than that;
* `Planner.admissible_of_single` — it is if each action costs something and sets one atom at most.
-/

namespace PlanningAgents

/-! ## what an action can change -/

namespace PlannerAction

/-- The atoms that the preconditions already give the value that the effects set them to. -/
def settled (a : PlannerAction) : UInt64 :=
  a.pre.specified &&& ~~~(a.pre.values ^^^ a.post.values)

/-- The atoms that an action can change. -/
def changeable (a : PlannerAction) : UInt64 := a.post.specified &&& ~~~a.settled

/-- How many atoms an action can change. -/
def changes (a : PlannerAction) : Nat := countBits a.changeable 64

/-- What the preconditions specify holds where the action applies. -/
theorem testBit_values_of_meets {s expected : WorldState} (h : s.meets expected = true) {i : Nat}
    (hi : i < 64) (hspecified : testBit expected.dontcare i = false) :
    testBit s.values i = testBit expected.values i := by
  rw [WorldState.meets, beq_iff_eq] at h
  have hbit := congrArg (testBit · i) h
  simpa only [testBit_and _ _ hi, testBit_not _ hi, hspecified, Bool.not_false,
    Bool.and_true] using hbit

/-- **An action gains at most the atoms that it can change**, whatever the goal is. -/
theorem distanceTo_le_apply (a : PlannerAction) {s : WorldState} (hpre : s.meets a.pre = true)
    (goal : WorldState) :
    s.distanceTo goal ≤ (s.apply a.post).distanceTo goal + a.changes := by
  apply countBits_le_add
  intro i hi hbit
  simp only [testBit_and _ _ hi, testBit_xor _ _ hi, testBit_not _ hi] at hbit
  have hmeets := testBit_values_of_meets hpre hi
  simp only [WorldState.apply, changeable, settled, WorldState.specified, testBit_and _ _ hi,
    testBit_or _ _ hi, testBit_xor _ _ hi, testBit_not _ hi]
  -- an atom that the effects leave alone, or set to the value that it has, differs as it did before
  grind

/-- The state in which the preconditions hold and all else is the opposite of the effects. -/
def worst (a : PlannerAction) : WorldState where
  values := (a.pre.values &&& a.pre.specified) ||| (~~~a.post.values &&& a.pre.dontcare)
  dontcare := 0

theorem meets_worst (a : PlannerAction) : a.worst.meets a.pre = true := by
  rw [WorldState.meets, beq_iff_eq]
  apply eq_of_testBit
  intro i hi
  simp only [worst, WorldState.specified, testBit_and _ _ hi, testBit_or _ _ hi, testBit_not _ hi]
  grind

/-- **All atoms that an action can change** differ there from what it brings about. -/
theorem distanceTo_worst (a : PlannerAction) : a.worst.distanceTo a.post = a.changes := by
  have hdiffer : (a.worst.values ^^^ a.post.values) &&& ~~~a.post.dontcare = a.changeable := by
    apply eq_of_testBit
    intro i hi
    simp only [worst, changeable, settled, WorldState.specified, testBit_and _ _ hi,
      testBit_or _ _ hi, testBit_xor _ _ hi, testBit_not _ hi]
    grind
  rw [WorldState.distanceTo, hdiffer, changes]

/-- An action changes only what it sets. -/
theorem changes_le (a : PlannerAction) : a.changes ≤ countBits a.post.specified 64 := by
  have hle := countBits_le_add (u := a.changeable) (v := a.post.specified) (w := 0) 64 ?_
  · have hzero : countBits 0 64 = 0 := by decide
    rwa [hzero, Nat.add_zero] at hle
  · intro i hi hbit
    rw [changeable, testBit_and _ _ hi, Bool.and_eq_true] at hbit
    exact .inl hbit.1

end PlannerAction

/-! ## the estimate -/

namespace Planner

variable {p : Planner}

/-- **The distance never promises too much**: it is at most what any way to the goal costs. -/
def Admissible (p : Planner) (goal : WorldState) : Prop :=
  ∀ s names, p.Reaches s goal names → s.distanceTo goal ≤ p.costOf names

/-- If no action can change more atoms than it costs, the distance is admissible. -/
theorem admissible_of_changes (hpaid : ∀ a ∈ p.actions, a.changes ≤ a.cost.toNat)
    (goal : WorldState) : p.Admissible goal := by
  rintro s names ⟨t, hafter, hgoal⟩
  have hle : s.distanceTo goal ≤ p.costOf names + t.distanceTo goal := by
    refine distanceTo_le_of_gains (fun a ha y hpre => ?_) hafter
    exact Nat.le_trans (a.distanceTo_le_apply hpre goal) (Nat.add_le_add_left (hpaid a ha) _)
  rwa [(t.distanceTo_eq_zero_iff goal).mpr hgoal, Nat.add_zero] at hle

/-- The distance is admissible if each action costs something and sets one atom at most. -/
theorem admissible_of_single
    (hsingle : ∀ a ∈ p.actions, countBits a.post.specified 64 ≤ 1 ∧ 1 ≤ a.cost.toNat)
    (goal : WorldState) : p.Admissible goal := by
  refine admissible_of_changes (fun a ha => ?_) goal
  obtain ⟨hset, hcost⟩ := hsingle a ha
  exact a.changes_le.trans (hset.trans hcost)

/-- **When the distance is admissible.**  It is at most the cost of every way to every goal exactly
if no action can change more atoms than it costs. -/
theorem admissible_iff (hp : p.Built) :
    (∀ goal, p.Admissible goal) ↔ ∀ a ∈ p.actions, a.changes ≤ a.cost.toNat := by
  constructor
  · intro hall a ha
    have hreaches : p.Reaches a.worst a.post [a.name] := by
      refine ⟨a.worst.apply a.post, ?_, WorldState.apply_meets _ _⟩
      rw [after?, List.foldlM_cons, hp.step?_name ha a.meets_worst]
      rfl
    calc a.changes = a.worst.distanceTo a.post := a.distanceTo_worst.symm
      _ ≤ p.costOf [a.name] := hall a.post a.worst [a.name] hreaches
      _ = a.cost.toNat := by rw [costOf, List.map_singleton, List.sum_singleton, hp.costAt_name ha]
  · exact admissible_of_changes

/-- A river on which nothing is cheap. -/
def dearRiver : Planner := ((addSpecs (riverSpecs.map ({ · with cost := 2 }))).runOn {}).2

/-- On a river where each action costs two, as it changes two atoms at most, no way to any goal
costs less than the distance to it. -/
theorem admissible_iff_dearRiver :
    dearRiver.Built ∧ (∀ a ∈ dearRiver.actions, a.changes ≤ a.cost.toNat) ∧
      ∀ goal, dearRiver.Admissible goal := by
  have hbuilt : dearRiver.Built := .addSpecs (.empty {} {}) _
  have hpaid : ∀ a ∈ dearRiver.actions, a.changes ≤ a.cost.toNat := by decide +kernel
  exact ⟨hbuilt, hpaid, (admissible_iff hbuilt).mpr hpaid⟩

/-- **The distance promises too much** on a river where each action costs one at least: whoever
launches a raft has it launched, and has none built any more, for the price of one atom. -/
theorem not_admissible_river :
    river.Built ∧ (∀ a ∈ river.actions, 1 ≤ a.cost.toNat) ∧
      ∃ s goal names, river.Reaches s goal names ∧ river.costOf names = 1 ∧
        s.distanceTo goal = 2 := by
  refine ⟨built_river, by decide +kernel, ⟨0b0100, ~~~0b1111⟩, ⟨0b0010, ~~~0b0110⟩,
    ["launch_raft"], ⟨⟨0b0010, ~~~0b1111⟩, ?_, ?_⟩, ?_, ?_⟩
  · decide +kernel
  · decide +kernel
  · decide +kernel
  · decide +kernel

end Planner

end PlanningAgents
