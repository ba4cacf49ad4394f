import PlanningAgents.Proofs.Planner.Exploration

/-!
# PlanningAgents.Proofs.Planner.Soundness

A plan that is found can be carried out as it stands.  `Plan.Solves` collects what that means: each
action applies in its turn and leads to the state that the plan records, the last state meets the
goal and none before it does, no state is met twice, and the cost is what the actions cost together,
as far as the range of costs goes.

Main statements:

* `SearchNode.Opened.solves` — a node that meets the goal gives such a plan;
* `Planner.solves_planWithCap` — every plan with a cost is such a plan, and a plan is empty exactly
  where there is nothing to do.
-/

namespace PlanningAgents

/-- The cost at which plans stop getting dearer. -/
def maxPlanCost : Nat := Int32.maxValue.toInt.toNat

/-- A plan leads from a state to a goal, within a cap. -/
structure Plan.Solves (plan : Plan) (p : Planner) (start goal : WorldState) (cap : Nat) : Prop where
  /-- Each action applies in its turn, and leads to the state recorded for it. -/
  executes : p.Executes start plan.actions plan.states
  meets_goal : (plan.states.getLastD start).meets goal = true
  cost_eq : plan.cost = (min (p.costOf plan.actions) maxPlanCost : Nat)
  length_le : plan.length ≤ cap
  length_states : plan.states.length = plan.length
  nodup : (start :: plan.states).Nodup
  /-- The goal is not met before the last state. -/
  not_earlier : ∀ s ∈ (start :: plan.states).dropLast, s.meets goal = false

/-- Nothing has to be done where the goal is met. -/
theorem Plan.solves_atGoal {start goal : WorldState} (p : Planner) (cap : Nat)
    (h : start.meets goal = true) : (Plan.atGoal cap).Solves p start goal cap where
  executes := .nil
  meets_goal := h
  cost_eq := rfl
  length_le := Nat.zero_le cap
  length_states := rfl
  nodup := List.nodup_singleton start
  not_earlier _ hs := absurd hs List.not_mem_nil

/-- **A node that meets the goal gives a plan** that leads there. -/
theorem SearchNode.Opened.solves {p : Planner} (hp : p.Built) {start goal : WorldState} {cap : Nat}
    {n : SearchNode} (hn : n.Opened (p.problem goal cap) start)
    (hgoal : n.state.meets goal = true) : (n.toPlan cap).Solves p start goal cap where
  executes := hn.executes hp
  meets_goal := by
    show (n.states.getLastD start).meets goal = true
    rw [hn.getLastD_states]
    exact hgoal
  cost_eq := by
    show min (n.cost : Int) maxPlanCost = (min (p.costOf n.names) maxPlanCost : Nat)
    rw [hn.cost_eq hp]
    omega
  length_le := hn.length_names_le
  length_states := (hn.executes hp).length_eq
  nodup := hn.nodup
  not_earlier := hn.not_meets_of_mem_dropLast

namespace Plan.Solves

variable {plan : Plan} {p : Planner} {start goal : WorldState} {cap : Nat}

/-- The actions of a plan lead to the goal. -/
theorem reaches (h : plan.Solves p start goal cap) : p.Reaches start goal plan.actions :=
  ⟨_, h.executes.after?_eq, h.meets_goal⟩

/-- A plan for a goal that is not met yet has actions. -/
theorem actions_ne_nil (h : plan.Solves p start goal cap) (hstart : start.meets goal = false) :
    plan.actions ≠ [] := by
  intro hnil
  have hstates : plan.states = [] := by
    rw [← List.length_eq_zero_iff, h.length_states, Plan.length, hnil, List.length_nil]
  have hgoal := h.meets_goal
  rw [hstates, List.getLastD_nil, hstart] at hgoal
  exact Bool.false_ne_true hgoal

end Plan.Solves

namespace Planner

/-- A plan with a cost leads to the goal. -/
theorem solves_of_cost_nonneg {p : Planner} (hp : p.Built) {start goal : WorldState} {cap : Nat}
    (h : 0 ≤ (p.planWithCap start goal cap).cost) :
    (p.planWithCap start goal cap).Solves p start goal cap := by
  obtain ⟨hstart, hplan⟩ | ⟨-, ⟨n, hn, hgoal, hplan⟩ | hplan⟩ := p.planWithCap_cases start goal cap
  · exact hplan ▸ Plan.solves_atGoal p cap hstart
  · exact hplan ▸ hn.solves hp hgoal
  · rw [hplan] at h
    exact absurd h (by simp [Plan.notFound])

/-- A plan without a cost is no plan. -/
theorem cost_planWithCap (p : Planner) (start goal : WorldState) (cap : Nat) :
    (p.planWithCap start goal cap).cost = -1 ∨ 0 ≤ (p.planWithCap start goal cap).cost := by
  obtain ⟨-, hplan⟩ | ⟨-, ⟨n, -, -, hplan⟩ | hplan⟩ := p.planWithCap_cases start goal cap
  · exact .inr (hplan ▸ Int.le_refl 0)
  · right
    rw [hplan]
    show (0 : Int) ≤ min (n.cost : Int) maxPlanCost
    omega
  · exact .inl (hplan ▸ rfl)

/-- What a query answers has actions only if it leads to the goal. -/
theorem solves_or_actions_eq_nil {p : Planner} (hp : p.Built) (start goal : WorldState)
    (cap : Nat) :
    (p.planWithCap start goal cap).Solves p start goal cap ∨
      (p.planWithCap start goal cap).actions = [] := by
  obtain ⟨-, hplan⟩ | ⟨-, ⟨n, hn, hgoal, hplan⟩ | hplan⟩ := p.planWithCap_cases start goal cap
  · exact .inr (hplan ▸ rfl)
  · exact .inl (hplan ▸ hn.solves hp hgoal)
  · exact .inr (hplan ▸ rfl)

/-- A plan is made of the planner's actions. -/
theorem action?_of_mem_planWithCap {p : Planner} (hp : p.Built) {start goal : WorldState}
    {cap : Nat} {name : String} (h : name ∈ (p.planWithCap start goal cap).actions) :
    ∃ a, p.action? name = some a := by
  obtain hsolves | hnil := solves_or_actions_eq_nil hp start goal cap
  · exact hsolves.executes.action?_of_mem name h
  · rw [hnil] at h
    exact absurd h List.not_mem_nil

/-- A plan is no longer than it may be. -/
theorem length_planWithCap_le {p : Planner} (hp : p.Built) (start goal : WorldState) (cap : Nat) :
    (p.planWithCap start goal cap).length ≤ cap := by
  obtain hsolves | hnil := solves_or_actions_eq_nil hp start goal cap
  · exact hsolves.length_le
  · rw [Plan.length, hnil]
    exact Nat.zero_le cap

/-- A plan knows how long it could have been. -/
@[simp] theorem cap_planWithCap (p : Planner) (start goal : WorldState) (cap : Nat) :
    (p.planWithCap start goal cap).cap = cap := by
  obtain ⟨-, hplan⟩ | ⟨-, ⟨n, -, -, hplan⟩ | hplan⟩ := p.planWithCap_cases start goal cap
  · exact hplan ▸ rfl
  · exact hplan ▸ rfl
  · exact hplan ▸ rfl

/-- A plan that has actions and a cost, and is not as long as plans may be, is found. -/
theorem outcome_plan {p : Planner} (hp : p.Built) {start goal : WorldState}
    (hne : (p.plan start goal).actions.isEmpty = false) (hcost : 0 ≤ (p.plan start goal).cost)
    (hlength : (p.plan start goal).length ≠ p.maxPlanLen) :
    (p.plan start goal).outcome = .found := by
  have hle := length_planWithCap_le hp start goal p.maxPlanLen
  have hcap := p.cap_planWithCap start goal p.maxPlanLen
  rw [← plan] at hle hcap
  have hlt : ¬ p.maxPlanLen ≤ (p.plan start goal).actions.length := by
    rw [Plan.length] at hle hlength
    omega
  rw [Plan.outcome, if_neg (Int.not_lt.mpr hcost), hne, hcap, if_neg hlt]
  rfl

/-- **Every plan with a cost can be carried out** and leads to the goal, and a plan is empty and
free exactly where the goal is met already. -/
theorem solves_planWithCap {p : Planner} (hp : p.Built) (start goal : WorldState) (cap : Nat) :
    (0 ≤ (p.planWithCap start goal cap).cost →
      (p.planWithCap start goal cap).Solves p start goal cap) ∧
    ((p.planWithCap start goal cap).actions = [] ∧ (p.planWithCap start goal cap).cost = 0 ↔
      start.meets goal = true) := by
  refine ⟨solves_of_cost_nonneg hp, fun ⟨hempty, hcost⟩ => ?_, fun hgoal => ?_⟩
  · by_contra hstart
    have hsolves := solves_of_cost_nonneg hp (Int.le_of_eq hcost.symm)
    exact hsolves.actions_ne_nil (by simpa using hstart) hempty
  · rw [planWithCap, if_pos hgoal]
    exact ⟨rfl, rfl⟩

/-- With time enough the raft is built, which takes four actions and costs four. -/
theorem solves_planWithCap_river :
    river.Built ∧ 0 ≤ (river.planWithCap nearBank atHome 64).cost ∧
      (river.planWithCap nearBank atHome 64).Solves river nearBank atHome 64 :=
  have hcost : 0 ≤ (river.planWithCap nearBank atHome 64).cost := by decide +kernel
  ⟨built_river, hcost, (solves_planWithCap built_river nearBank atHome 64).1 hcost⟩

end Planner

end PlanningAgents
