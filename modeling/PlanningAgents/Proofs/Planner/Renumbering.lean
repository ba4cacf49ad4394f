import PlanningAgents.Proofs.Atoms.Renumbering
import PlanningAgents.Proofs.Planner.Merging
import PlanningAgents.Proofs.Planner.Exploration

/-!
# PlanningAgents.Proofs.Planner.Renumbering

Plans do not hang on the numbers of atoms.  A search that is renumbered goes the same way as before,
step by step (`Search.Mirrors`): its entries are handed out in the same order, since what they
promise and when they were opened decides that, and the costs that it keeps are those of the
renumbered states, although they are kept in another order.

Main statements:

* `Frontier.map_merge`, `Frontier.map_pop?` — what the items of a frontier are does not matter;
* `Search.Mirrors.next?`, `Search.Mirrors.expand`, `Search.run_renumber` — a renumbered search goes
  the same way;
* `Planner.planWithCap_renumber` — it finds the same plan;
* `Planner.plans_without_numbers` — in whatever numbers, the same is planned.
-/

namespace PlanningAgents

/-! ## frontiers -/

/-- The entry with another item. -/
def Entry.map (f : α → β) (e : Entry α) : Entry β :=
  { total := e.total, rest := e.rest, serial := e.serial, item := f e.item }

@[simp] theorem Entry.le_map (f : α → β) (a b : Entry α) : (a.map f).le (b.map f) = a.le b := rfl

namespace Frontier

/-- The frontier with other items in the same places. -/
def map (f : α → β) : Frontier α → Frontier β
  | .empty => .empty
  | .node r e a b => .node r (e.map f) (a.map f) (b.map f)

@[simp] theorem rank_map (f : α → β) (a : Frontier α) : (a.map f).rank = a.rank := by
  cases a <;> rfl

theorem map_join (f : α → β) (e : Entry α) (a b : Frontier α) :
    (join e a b).map f = join (e.map f) (a.map f) (b.map f) := by
  simp only [join, rank_map]
  split <;> rfl

/-- What the items are does not matter when heaps are merged. -/
theorem map_merge (f : α → β) (a b : Frontier α) :
    (merge a b).map f = merge (a.map f) (b.map f) := by
  fun_induction merge a b with
  | case1 b => rw [map, merge]
  | case2 a => cases a <;> simp [map, merge]
  | case3 ra x la qa rb y lb qb hxy ih =>
      rw [map_join, ih, map, map, merge, Entry.le_map, if_pos hxy]
  | case4 ra x la qa rb y lb qb hxy ih =>
      rw [map_join, ih, map, map, merge, Entry.le_map, if_neg hxy]

theorem map_insert (f : α → β) (a : Frontier α) (e : Entry α) :
    (a.insert e).map f = (a.map f).insert (e.map f) := by
  rw [insert, insert, map_merge]
  rfl

theorem map_pop? (f : α → β) (a : Frontier α) :
    (a.map f).pop? = a.pop?.map fun r => (r.1.map f, r.2.map f) := by
  cases a with
  | empty => rfl
  | node r e a b => simp only [map, pop?, Option.map_some, map_merge]

end Frontier

/-! ## renumbered searches -/

variable {π : Equiv.Perm (Fin 64)}

/-- The action in other numbers. -/
def PlannerAction.renumber (π : Equiv.Perm (Fin 64)) (a : PlannerAction) : PlannerAction :=
  { a with pre := a.pre.renumber π, post := a.post.renumber π }

/-- The problem in other numbers. -/
def SearchProblem.renumber (π : Equiv.Perm (Fin 64)) (q : SearchProblem) : SearchProblem :=
  { q with actions := q.actions.map (·.renumber π), goal := q.goal.renumber π }

/-- The plan in other numbers. -/
def Plan.renumber (π : Equiv.Perm (Fin 64)) (plan : Plan) : Plan :=
  { plan with states := plan.states.map (·.renumber π) }

namespace SearchNode

/-- The node in other numbers, with the whole way to it. -/
def renumber (π : Equiv.Perm (Fin 64)) : SearchNode → SearchNode
  | .start s => .start (s.renumber π)
  | .step n a s cost depth => .step (n.renumber π) (a.renumber π) (s.renumber π) cost depth

@[simp] theorem state_renumber (n : SearchNode) : (n.renumber π).state = n.state.renumber π := by
  cases n <;> rfl

@[simp] theorem cost_renumber (n : SearchNode) : (n.renumber π).cost = n.cost := by
  cases n <;> rfl

@[simp] theorem depth_renumber (n : SearchNode) : (n.renumber π).depth = n.depth := by
  cases n <;> rfl

theorem extend_renumber (n : SearchNode) (a : PlannerAction) :
    (n.renumber π).extend (a.renumber π) = (n.extend a).renumber π := by
  simp [extend, renumber, PlannerAction.renumber]

theorem trail_renumber (n : SearchNode) :
    (n.renumber π).trail = n.trail.map fun x => (x.1.renumber π, x.2.renumber π) := by
  induction n with
  | start s => rfl
  | step n a s cost depth ih => rw [renumber, trail, trail, ih, List.map_cons]

/-- The way to a node makes the same plan. -/
theorem toPlan_renumber (n : SearchNode) (cap : Nat) :
    (n.renumber π).toPlan cap = (n.toPlan cap).renumber π := by
  simp only [toPlan, Plan.renumber, trail_renumber, List.map_map, List.map_reverse, cost_renumber]
  rfl

end SearchNode

/-- The end of a search in other numbers. -/
def SearchEnd.renumber (π : Equiv.Perm (Fin 64)) : SearchEnd → SearchEnd
  | .found n => .found (n.renumber π)
  | .exhausted => .exhausted
  | .overBudget => .overBudget

namespace Search

/-- A search goes the way of another one, in other numbers. -/
structure Mirrors (π : Equiv.Perm (Fin 64)) (s s' : Search) : Prop where
  frontier : s'.frontier = s.frontier.map (·.renumber π)
  bestCost : ∀ x : WorldState, s'.bestCost (x.renumber π) = s.bestCost x
  opened : s'.opened = s.opened

variable {q : SearchProblem} {s s' t : Search} {n : SearchNode}

/-- Nothing is taken from an empty frontier. -/
theorem next?_of_pop?_eq_none (h : s.frontier.pop? = none) : s.next? = none := by
  unfold Search.next?
  split
  · rfl
  · next hsome => cases h.symm.trans hsome

/-- The first entry is taken, or passed over. -/
theorem next?_of_pop? {e : Entry SearchNode} {f : Frontier SearchNode}
    (h : s.frontier.pop? = some (e, f)) :
    s.next? = if s.isCurrent e.item then some (e.item, { s with frontier := f })
      else Search.next? { s with frontier := f } := by
  rw [Search.next?]
  split
  · next hnone => cases h.symm.trans hnone
  · next hsome =>
      obtain ⟨rfl, rfl⟩ := Prod.mk.inj (Option.some.inj (h.symm.trans hsome))
      rfl

namespace Mirrors

theorem openNode (h : Mirrors π s s') (goal : WorldState) (n : SearchNode) :
    Mirrors π (s.openNode goal n) (s'.openNode (goal.renumber π) (n.renumber π)) where
  frontier := by
    simp only [Search.openNode, h.frontier, h.opened, Frontier.map_insert,
      SearchNode.cost_renumber, SearchNode.state_renumber, WorldState.distanceTo_renumber]
    rfl
  bestCost x := by
    rw [bestCost_openNode, bestCost_openNode, SearchNode.state_renumber, SearchNode.cost_renumber,
      h.bestCost]
    simp only [WorldState.renumber_inj]
  opened := congrArg (· + 1) h.opened

theorem init (q : SearchProblem) (start : WorldState) :
    Mirrors π (Search.init q start) (Search.init (q.renumber π) (start.renumber π)) :=
  openNode ⟨rfl, fun _ => rfl, rfl⟩ q.goal (.start start)

theorem isCurrent (h : Mirrors π s s') (n : SearchNode) :
    s'.isCurrent (n.renumber π) = s.isCurrent n := by
  rw [Search.isCurrent, Search.isCurrent, SearchNode.state_renumber, SearchNode.cost_renumber,
    h.bestCost]

/-- The same actions are followed. -/
theorem follow (h : Mirrors π s s') (q : SearchProblem) (n : SearchNode) (a : PlannerAction) :
    Mirrors π (Search.follow q n s a)
      (Search.follow (q.renumber π) (n.renumber π) s' (a.renumber π)) := by
  rw [follow_eq, follow_eq, SearchNode.extend_renumber]
  simp only [SearchNode.state_renumber, SearchNode.cost_renumber, h.bestCost, ne_eq,
    WorldState.renumber_inj, PlannerAction.renumber, WorldState.meets_renumber]
  split
  · exact h.openNode q.goal (n.extend a)
  · exact h

theorem foldl_follow (h : Mirrors π s s') (q : SearchProblem) (n : SearchNode)
    (as : List PlannerAction) :
    Mirrors π (as.foldl (Search.follow q n) s)
      ((as.map (·.renumber π)).foldl (Search.follow (q.renumber π) (n.renumber π)) s') := by
  induction as generalizing s s' with
  | nil => exact h
  | cons a as ih => exact ih (h.follow q n a)

theorem proceed (h : Mirrors π s s') (q : SearchProblem) (n : SearchNode) :
    Mirrors π (Search.proceed q n s) (Search.proceed (q.renumber π) (n.renumber π) s') := by
  rw [Search.proceed, Search.proceed, SearchNode.depth_renumber]
  show Mirrors π _ (if q.cap ≤ n.depth then s' else _)
  split
  · exact h
  · exact h.foldl_follow q n q.actions

/-- The same entry comes first. -/
theorem pop? (h : Mirrors π s s') {e : Entry SearchNode} {f : Frontier SearchNode}
    (hpop : s.frontier.pop? = some (e, f)) :
    s'.frontier.pop? = some (e.map (·.renumber π), f.map (·.renumber π)) ∧
      Mirrors π { s with frontier := f } { s' with frontier := f.map (·.renumber π) } := by
  refine ⟨?_, rfl, h.bestCost, h.opened⟩
  rw [h.frontier, Frontier.map_pop?, hpop, Option.map_some]

/-- **The same node is taken up**, if any. -/
theorem next? (h : Mirrors π s s') :
    (s.next? = none → s'.next? = none) ∧
    ∀ n t, s.next? = some (n, t) →
      ∃ t', s'.next? = some (n.renumber π, t') ∧ Mirrors π t t' := by
  fun_induction Search.next? s generalizing s' with
  | case1 s hpop =>
      refine ⟨fun _ => next?_of_pop?_eq_none ?_, fun n t hnext => ?_⟩
      · rw [h.frontier, Frontier.map_pop?, hpop, Option.map_none]
      · cases hnext
  | case2 s e f hpop hcurrent =>
      obtain ⟨hpop', hmirrors⟩ := h.pop? hpop
      rw [← h.isCurrent] at hcurrent
      rw [next?_of_pop? hpop', Entry.map, if_pos hcurrent]
      refine ⟨fun hnone => ?_, fun n t hnext => ?_⟩
      · cases hnone
      · obtain ⟨rfl, rfl⟩ := Prod.mk.inj (Option.some.inj hnext)
        exact ⟨_, rfl, hmirrors⟩
  | case3 s e f hpop hstale ih =>
      obtain ⟨hpop', hmirrors⟩ := h.pop? hpop
      rw [← h.isCurrent] at hstale
      rw [next?_of_pop? hpop', Entry.map, if_neg hstale]
      exact ih hmirrors

end Mirrors

/-- **A renumbered search ends in the same way**, at the renumbered node if at any. -/
theorem run_renumber (h : Mirrors π s s') (q : SearchProblem) (b : Nat) :
    run (q.renumber π) b s' = (run q b s).renumber π := by
  induction b generalizing s s' with
  | zero =>
      cases hnext : s.next? with
      | none =>
          rw [run, run, hnext, h.next?.1 hnext]
          rfl
      | some r =>
          obtain ⟨t', hnext', -⟩ := h.next?.2 r.1 r.2 hnext
          rw [run, run, hnext, hnext']
          rfl
  | succ b ih =>
      cases hnext : s.next? with
      | none =>
          rw [run, run, hnext, h.next?.1 hnext]
          rfl
      | some r =>
          obtain ⟨n, t⟩ := r
          obtain ⟨t', hnext', ht⟩ := h.next?.2 n t hnext
          have hgoal : (n.renumber π).state.meets (q.renumber π).goal = n.state.meets q.goal := by
            rw [SearchNode.state_renumber]
            exact WorldState.meets_renumber _ _
          rw [run_succ q b hnext, run_succ (q.renumber π) b hnext', hgoal, ih (ht.proceed q n)]
          split <;> rfl

theorem solve_renumber (π : Equiv.Perm (Fin 64)) (q : SearchProblem) (start : WorldState)
    (b : Nat) : (q.renumber π).solve (start.renumber π) b = (q.solve start b).renumber π :=
  run_renumber (.init q start) q b

end Search

/-! ## renumbered queries -/

namespace Planner

/-- The planner in other numbers. -/
def renumber (π : Equiv.Perm (Fin 64)) (p : Planner) : Planner :=
  { p with actions := p.actions.map (·.renumber π) }

/-- **In other numbers the same plan is found**, with its states in these numbers. -/
theorem planWithCap_renumber (π : Equiv.Perm (Fin 64)) (p : Planner) (start goal : WorldState)
    (cap : Nat) :
    (p.renumber π).planWithCap (start.renumber π) (goal.renumber π) cap =
      (p.planWithCap start goal cap).renumber π := by
  have hmeets : (start.renumber π).meets (goal.renumber π) = start.meets goal :=
    WorldState.meets_renumber start goal
  cases hgoal : start.meets goal with
  | true =>
      rw [planWithCap_of_meets _ _ hgoal, planWithCap_of_meets _ _ (hmeets.trans hgoal)]
      rfl
  | false =>
      by_cases hcap : cap = 0
      · subst hcap
        rw [planWithCap_zero _ hgoal, planWithCap_zero _ (hmeets.trans hgoal)]
        rfl
      · have hproblem : (p.renumber π).problem (goal.renumber π) cap =
            (p.problem goal cap).renumber π := rfl
        have hbudget : (p.renumber π).config = p.config := rfl
        rw [planWithCap_eq _ (hmeets.trans hgoal) hcap, planWithCap_eq _ hgoal hcap, hproblem,
          hbudget, Search.solve_renumber]
        cases (p.problem goal cap).solve start p.config.maxExpansions.toNat with
        | found n => exact n.toPlan_renumber cap
        | exhausted => rfl
        | overBudget => rfl

end Planner

/-! ## other tables -/

/-- Two actions are the same by name, each in the terms of its table. -/
structure PlannerAction.SaysAlike (t u : AtomTable) (a a' : PlannerAction) : Prop where
  name : a'.name = a.name
  cost : a'.cost = a.cost
  pre : t.SaysAlike u a.pre a'.pre
  post : t.SaysAlike u a.post a'.post

/-- Two planners have the same actions by name, whatever numbers their tables give to atoms. -/
structure Planner.SaysAlike (p p' : Planner) : Prop where
  atoms : p.atoms.Valid
  atoms' : p'.atoms.Valid
  actions : List.Forall₂ (PlannerAction.SaysAlike p.atoms p'.atoms) p.actions p'.actions
  maxExpansions : p'.config.maxExpansions = p.config.maxExpansions

namespace Planner

variable {p p' : Planner} {start start' goal goal' : WorldState} {cap : Nat}

/-- What holds of the start, and is kept by every effect, holds of every state of a plan. -/
theorem forall_states_planWithCap {P : WorldState → Prop} (hstart : P start)
    (hstep : ∀ s, P s → ∀ a ∈ p.actions, P (s.apply a.post)) :
    ∀ s ∈ (p.planWithCap start goal cap).states, P s := by
  obtain ⟨-, hplan⟩ | ⟨-, ⟨n, hn, -, hplan⟩ | hplan⟩ := p.planWithCap_cases start goal cap
  · rw [hplan]
    exact List.forall_mem_nil _
  · rw [hplan]
    have hboth : P n.state ∧ ∀ s ∈ n.states, P s := by
      clear hplan
      induction hn with
      | start => exact ⟨hstart, List.forall_mem_nil _⟩
      | @extend n a _ ha _ _ _ _ _ ih =>
          have hnext : P (n.extend a).state := hstep _ ih.1 a ha
          refine ⟨hnext, fun s hs => ?_⟩
          rw [SearchNode.states_extend] at hs
          obtain hs | hs := List.mem_append.mp hs
          · exact ih.2 s hs
          · exact List.mem_singleton.mp hs ▸ hnext
    exact hboth.2
  · rw [hplan]
    exact List.forall_mem_nil _

/-- One permutation renumbers all actions of planners that have the same by name. -/
theorem SaysAlike.renumber (h : p.SaysAlike p') {π : Equiv.Perm (Fin 64)}
    (hπ : ∀ s s', p.atoms.SaysAlike p'.atoms s s' → s' = s.renumber π) :
    p'.actions = p.actions.map (·.renumber π) ∧
      ∀ a ∈ p.actions, PlannerAction.SaysAlike p.atoms p'.atoms a (a.renumber π) := by
  have hactions : p'.actions = p.actions.map (·.renumber π) := by
    have hsame : List.Forall₂ (fun a a' => a.renumber π = a') p.actions p'.actions := by
      refine h.actions.imp fun a a' ha => ?_
      obtain ⟨name, cost, pre, post⟩ := a'
      obtain ⟨rfl, rfl, hpre, hpost⟩ := ha
      rw [PlannerAction.renumber, ← hπ _ _ hpre, ← hπ _ _ hpost]
    rw [← List.forall₂_map_left_iff, List.forall₂_eq_eq_eq] at hsame
    exact hsame.symm
  refine ⟨hactions, ?_⟩
  have hall := h.actions
  rw [hactions, List.forall₂_map_right_iff, List.forall₂_same] at hall
  exact hall

/-- **In another table the same plan is found**, with states that say the same by name. -/
theorem SaysAlike.planWithCap (h : p.SaysAlike p')
    (hstart : p.atoms.SaysAlike p'.atoms start start')
    (hgoal : p.atoms.SaysAlike p'.atoms goal goal') (cap : Nat) :
    (p'.planWithCap start' goal' cap).actions = (p.planWithCap start goal cap).actions ∧
    (p'.planWithCap start' goal' cap).cost = (p.planWithCap start goal cap).cost ∧
    (p'.planWithCap start' goal' cap).outcome = (p.planWithCap start goal cap).outcome ∧
    List.Forall₂ (p.atoms.SaysAlike p'.atoms) (p.planWithCap start goal cap).states
      (p'.planWithCap start' goal' cap).states := by
  obtain ⟨π, hπ⟩ := AtomTable.exists_renumber_eq h.atoms h.atoms'
  obtain ⟨hactions, halike⟩ := h.renumber hπ
  have hplan : p'.planWithCap start' goal' cap = (p.planWithCap start goal cap).renumber π := by
    rw [← planWithCap_renumber, ← hπ _ _ hstart, ← hπ _ _ hgoal]
    simp only [Planner.planWithCap, Planner.renumber, hactions, h.maxExpansions]
  rw [hplan]
  refine ⟨rfl, rfl, rfl, ?_⟩
  rw [Plan.renumber, List.forall₂_map_right_iff, List.forall₂_same]
  refine forall_states_planWithCap (hπ _ _ hstart ▸ hstart) fun s hs a ha => ?_
  have hnext := hs.apply (halike a ha).post h.atoms h.atoms'
  rwa [PlannerAction.renumber, WorldState.apply_renumber] at hnext

/-- **What is planned does not hang on the numbers of atoms.**  In whatever other numbers, the same
actions are planned at the same cost and with the same outcome, and the states expected are the same
in the other numbers.  So they are in any other table, in which the actions, the start and the goal
say the same by name. -/
theorem plans_without_numbers (p : Planner) (start goal : WorldState) (cap : Nat) :
    (∀ π : Equiv.Perm (Fin 64),
      let plan := p.planWithCap start goal cap
      let plan' := (p.renumber π).planWithCap (start.renumber π) (goal.renumber π) cap
      plan'.actions = plan.actions ∧ plan'.cost = plan.cost ∧ plan'.outcome = plan.outcome ∧
        plan'.states = plan.states.map (·.renumber π)) ∧
    ∀ (p' : Planner) (start' goal' : WorldState), p.SaysAlike p' →
      p.atoms.SaysAlike p'.atoms start start' → p.atoms.SaysAlike p'.atoms goal goal' →
      let plan := p.planWithCap start goal cap
      let plan' := p'.planWithCap start' goal' cap
      plan'.actions = plan.actions ∧ plan'.cost = plan.cost ∧ plan'.outcome = plan.outcome ∧
        List.Forall₂ (p.atoms.SaysAlike p'.atoms) plan.states plan'.states := by
  refine ⟨fun π => ?_, fun p' start' goal' h hstart hgoal => h.planWithCap hstart hgoal cap⟩
  rw [planWithCap_renumber]
  exact ⟨rfl, rfl, rfl, rfl⟩

end Planner

end PlanningAgents
