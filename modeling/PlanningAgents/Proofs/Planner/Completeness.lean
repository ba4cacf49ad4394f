import PlanningAgents.Proofs.Planner.Optimality

/-!
# PlanningAgents.Proofs.Planner.Completeness

What it means that a query has no answer although its search was not cut short by the budget.  The
search keeps the cheapest way to every state, however long it is, while the cap limits the length.
So a way to the goal can be lost: at a state on it a way that costs no more, but is already as long
as the cap allows, takes its place (`Planner.Eclipsed`).  A way can also be too dear, since the
limit of costs stands for states that were never met.  Nothing else is lost.

Main statements:

* `Planner.eclipsed_of_no_plan` — without an answer, every way to the goal is too dear or eclipsed;
* `Planner.not_eclipsed_of_ncard_le`, `Planner.not_eclipsed_of_uniform` — no way is eclipsed under a
  cap of as many as there are reachable states, or among actions that all cost the same;
* `Planner.no_plan_iff` — where no way is lost, no answer means no way within the cap.
-/

namespace PlanningAgents

/-- Whether a search has given up although something is open. -/
def SearchEnd.isOverBudget : SearchEnd → Bool
  | .overBudget => true
  | .found _ | .exhausted => false

namespace Planner

/-- Whether a query is left unanswered because its search has used up the budget. -/
def isOverBudget (p : Planner) (start goal : WorldState) (cap : Nat) : Bool :=
  !start.meets goal && cap != 0 &&
    ((p.problem goal cap).solve start p.config.maxExpansions.toNat).isOverBudget

/-- A sequence is eclipsed under a cap: to a state on it, before its end, another one leads that
costs no more, that meets no state twice and the goal nowhere, and that has just as many actions as
the cap allows. -/
def Eclipsed (p : Planner) (start goal : WorldState) (cap : Nat) (names : List String) : Prop :=
  ∃ first rest other states, names = first ++ rest ∧ rest ≠ [] ∧
    p.Executes start other states ∧ p.after? start first = some (states.getLastD start) ∧
    other.length = cap ∧ p.costOf other ≤ p.costOf first ∧
    (start :: states).Nodup ∧ ∀ s ∈ start :: states, s.meets goal = false

variable {p : Planner} {start goal : WorldState} {cap : Nat} {names : List String}

/-! ## what is lost -/

/-- A state that was cut off eclipses the ways through it that cost no less. -/
theorem eclipsed_of_cutOff (hp : p.Built) {s : Search} {x : WorldState} {first rest : List String}
    (hrest : rest ≠ []) (hx : p.after? start first = some x) (hcost : s.bestCost x ≤ p.costOf first)
    (hcut : Search.CutOff (p.problem goal cap) start s x) :
    p.Eclipsed start goal cap (first ++ rest) := by
  obtain ⟨hgoal, n, hn, rfl, hbest, hdepth⟩ := hcut
  have hlength : n.names.length = cap := hn.length_names.trans hdepth
  refine ⟨first, rest, n.names, n.states, rfl, hrest, hn.executes hp, ?_, hlength, ?_, hn.nodup, ?_⟩
  · rw [hx, hn.getLastD_states]
  · rw [← hn.cost_eq hp, hbest]
    exact hcost
  · exact hn.not_meets hgoal

/-- With no room for actions, everything is eclipsed at the start. -/
theorem eclipsed_zero (hgoal : start.meets goal = false) (hnames : p.Reaches start goal names) :
    p.Eclipsed start goal 0 names := by
  obtain ⟨x, hx, hmeets⟩ := hnames
  have hne : names ≠ [] := by
    rintro rfl
    obtain rfl : start = x := Option.some.inj hx
    exact absurd (hmeets.symm.trans hgoal) (by decide)
  refine ⟨[], names, [], [], rfl, hne, .nil, rfl, rfl, Nat.le_refl _, List.nodup_singleton _, ?_⟩
  intro s hs
  rw [List.mem_singleton] at hs
  exact hs ▸ hgoal

/-- Where a search has nothing left to open, every way to the goal is eclipsed. -/
theorem eclipsed_of_exhausted (hp : p.Built) {s : Search}
    (hs : Search.Explored (p.problem goal cap) start s) (hclosed : ∀ x, ¬ Search.IsOpen s x)
    (hnames : p.Reaches start goal names) (hcost : p.costOf names < costLimit) :
    p.Eclipsed start goal cap names := by
  obtain ⟨x, hx, hmeets⟩ := hnames
  obtain hbest | ⟨first, rest, y, rfl, hrest, hy, hbest, hopen | hcut⟩ := hs.way_cases hx hcost
  · -- a state that meets the goal is neither followed up nor cut off
    obtain hopen | ⟨hnot, -⟩ | ⟨hnot, -⟩ := hs.accounted x (by omega)
    · exact absurd hopen (hclosed x)
    · exact absurd (hmeets.symm.trans hnot) (by decide)
    · exact absurd (hmeets.symm.trans hnot) (by decide)
  · exact absurd hopen (hclosed y)
  · exact eclipsed_of_cutOff hp hrest hy hbest hcut

/-- **Nothing else is lost**: where a search within its budget gives no plan, every executable
sequence that leads to the goal is too dear or eclipsed. -/
theorem eclipsed_of_no_plan (hp : p.Built) (hbudget : p.isOverBudget start goal cap = false)
    (hnone : (p.planWithCap start goal cap).cost = -1) (hnames : p.Reaches start goal names) :
    costLimit ≤ p.costOf names ∨ p.Eclipsed start goal cap names := by
  by_cases hcost : p.costOf names < costLimit
  · right
    cases hgoal : start.meets goal with
    | true =>
        rw [planWithCap, if_pos hgoal] at hnone
        exact absurd hnone (by simp [Plan.atGoal])
    | false =>
        by_cases hcap : cap = 0
        · exact hcap ▸ eclipsed_zero hgoal hnames
        · have hsolve := Search.solve_cases (p.problem goal cap) start p.config.maxExpansions.toNat
          rw [p.planWithCap_eq hgoal hcap] at hnone
          cases hend : (p.problem goal cap).solve start p.config.maxExpansions.toNat with
          | found n =>
              rw [hend] at hnone
              have hprice : min (n.cost : Int) maxPlanCost = -1 := hnone
              omega
          | exhausted =>
              rw [hend] at hsolve
              obtain ⟨s, hs, hclosed⟩ := hsolve
              exact eclipsed_of_exhausted hp hs hclosed hnames hcost
          | overBudget =>
              rw [isOverBudget, hend, hgoal] at hbudget
              simp [SearchEnd.isOverBudget, hcap] at hbudget
  · exact .inl (Nat.le_of_not_lt hcost)

/-! ## where nothing is lost -/

/-- Under a cap of as many as there are reachable states nothing is eclipsed: a way that meets no
state twice is shorter. -/
theorem not_eclipsed_of_ncard_le (hcap : (p.reachable start).ncard ≤ cap) :
    ¬ p.Eclipsed start goal cap names := by
  rintro ⟨first, rest, other, states, -, -, hother, -, hlength, -, hnodup, -⟩
  have hshort := hother.length_lt_ncard hnodup
  omega

/-- Actions that all cost the same cost as often that. -/
theorem costOf_eq_of_uniform {c : Nat} (hc : ∀ a ∈ p.actions, a.cost.toNat = c) {s t : WorldState}
    (h : p.after? s names = some t) : p.costOf names = names.length * c := by
  induction names using List.reverseRecOn generalizing t with
  | nil => simp
  | append_singleton names name ih =>
      rw [after?_concat, Option.bind_eq_some_iff] at h
      obtain ⟨y, hy, hlast⟩ := h
      obtain ⟨a, ha, -, -⟩ := step?_eq_some_iff.mp hlast
      have hprice : p.costAt name = c := by
        rw [costAt, ha]
        exact hc a (action?_eq_some ha).1
      rw [costOf_concat, ih hy, hprice, List.length_append, List.length_singleton, Nat.succ_mul]

/-- Among actions that all cost the same, and are not free, nothing within the cap is eclipsed. -/
theorem not_eclipsed_of_uniform {c : Nat} (hpos : 0 < c)
    (hc : ∀ a ∈ p.actions, a.cost.toNat = c) (hlength : names.length ≤ cap) :
    ¬ p.Eclipsed start goal cap names := by
  rintro ⟨first, rest, other, states, rfl, hrest, hother, hx, hcap, hcost, -, -⟩
  rw [costOf_eq_of_uniform hc hother.after?_eq, costOf_eq_of_uniform hc hx] at hcost
  have hlong := Nat.le_of_mul_le_mul_right hcost hpos
  have hmore := List.length_pos_iff.mpr hrest
  rw [List.length_append] at hlength
  omega

/-- Actions within a price cost together no more than as often that. -/
theorem costOf_le {c : Nat} (hc : ∀ a ∈ p.actions, a.cost.toNat ≤ c) (names : List String) :
    p.costOf names ≤ names.length * c := by
  induction names with
  | nil => simp
  | cons name names ih =>
      have hprice : p.costAt name ≤ c := by
        cases ha : p.action? name with
        | none => simp [costAt, ha]
        | some a => simpa [costAt, ha] using hc a (action?_eq_some ha).1
      rw [← List.singleton_append, costOf_append, List.length_append, Nat.add_mul]
      simpa [costOf] using Nat.add_le_add hprice ih

/-- **No answer means no way within the cap**, where every way within the cap is cheap enough and
none is eclipsed. -/
theorem no_plan_iff (hp : p.Built) (hbudget : p.isOverBudget start goal cap = false)
    (hways : ∀ names, names.length ≤ cap → p.Reaches start goal names →
      p.costOf names < costLimit ∧ ¬ p.Eclipsed start goal cap names) :
    (p.planWithCap start goal cap).cost = -1 ↔
      ∀ names, names.length ≤ cap → ¬ p.Reaches start goal names := by
  refine ⟨fun hnone names hlength hnames => ?_, fun hnone => ?_⟩
  · obtain ⟨hcost, hfree⟩ := hways names hlength hnames
    obtain hdear | heclipsed := eclipsed_of_no_plan hp hbudget hnone hnames
    · omega
    · exact hfree heclipsed
  · obtain hcost | hcost := p.cost_planWithCap start goal cap
    · exact hcost
    · have hsolves := solves_of_cost_nonneg hp hcost
      exact absurd hsolves.reaches (hnone _ hsolves.length_le)

/-- With room for five actions no way home is lost, and there is one. -/
theorem no_plan_iff_river :
    river.isOverBudget nearBank atHome 5 = false ∧
      (∀ names : List String, names.length ≤ 5 → river.Reaches nearBank atHome names →
        river.costOf names < costLimit ∧ ¬ river.Eclipsed nearBank atHome 5 names) ∧
      (river.planWithCap nearBank atHome 5).cost ≠ -1 := by
  have hbudget : river.isOverBudget nearBank atHome 5 = false := by decide +kernel
  have hprice : ∀ a ∈ river.actions, a.cost.toNat ≤ 5 := by decide +kernel
  have hlimit : 25 < costLimit := by decide
  have hways : ∀ names : List String, names.length ≤ 5 → river.Reaches nearBank atHome names →
      river.costOf names < costLimit ∧ ¬ river.Eclipsed nearBank atHome 5 names := by
    intro names hlength _
    have hcost := costOf_le hprice names
    exact ⟨by omega, not_eclipsed_of_ncard_le ncard_reachable_river⟩
  refine ⟨hbudget, hways, fun hnone => ?_⟩
  exact (no_plan_iff built_river hbudget hways).mp hnone _ (by decide) reaches_swim

/-! ## what is lost at the river -/

/-- A ferry that costs as much as can be said. -/
def ferry : Planner :=
  ((addSpecs [{ name := "ferry", cost := 4294967295, post := .ofList [("across", true)] }]).runOn
    {}).2

/-- **Ways are lost.**  With room for three actions the raft, cheap but three actions long, takes
the place of the swimmer on the far bank, from where there is no room left for the walk home.  The
ferry is too dear for any room. -/
theorem no_plan_swim_ferry :
    (river.Built ∧ river.isOverBudget nearBank atHome 3 = false ∧
      (river.planWithCap nearBank atHome 3).cost = -1 ∧
      ["swim", "walk_home"].length ≤ 3 ∧ river.Reaches nearBank atHome ["swim", "walk_home"]) ∧
    (ferry.Built ∧ ferry.isOverBudget nearBank ⟨1, ~~~1⟩ 3 = false ∧
      (ferry.planWithCap nearBank ⟨1, ~~~1⟩ 3).cost = -1 ∧
      ["ferry"].length ≤ 3 ∧ ferry.Reaches nearBank ⟨1, ~~~1⟩ ["ferry"]) := by
  refine ⟨⟨built_river, ?_, ?_, by decide, reaches_swim⟩,
    .addSpecs (.empty {} {}) _, ?_, ?_, by decide, ⟨0b0001, ~~~0b1111⟩, ?_, ?_⟩
  all_goals decide +kernel

end Planner

end PlanningAgents
