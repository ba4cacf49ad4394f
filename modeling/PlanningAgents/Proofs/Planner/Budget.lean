import PlanningAgents.Proofs.Planner.Exploration

/-!
# PlanningAgents.Proofs.Planner.Budget

What a budget does to a search.  Left to itself, a search takes up one node after the other
(`Search.Expands`) until it meets the goal or has nothing open (`Search.Ends`).  A budget cuts it
off behind as many nodes and changes nothing before that, so what is taken up on a budget are the
first of the nodes that are taken up on a larger one.  Entries that are not current are passed over
on the way to the next node and do not count; the node that meets the goal does.

Main statements:

* `Search.ends_takenUp` — a run takes its nodes up as the search left to itself does;
* `Search.run_eq_of_le`, `Search.takenUp_eq_take` — runs on two budgets keep in step until one of
  the budgets is used up;
* `Planner.budget_only_withholds` — a smaller budget gives the same plan, or none.
-/

namespace PlanningAgents

namespace Search

/-! ## searches left to themselves -/

/-- A search takes up nodes one after the other, each of them short of the goal. -/
inductive Expands (q : SearchProblem) (s : Search) : List SearchNode → Search → Prop
  | nil : Expands q s [] s
  | concat {t u : Search} {n : SearchNode} {ns : List SearchNode} (h : Expands q s ns t)
      (hnext : t.next? = some (n, u)) (hgoal : n.state.meets q.goal = false) :
      Expands q s (ns ++ [n]) (proceed q n u)

/-- What a search takes up, and how it ends: at the goal, with nothing open, or cut off. -/
inductive Ends (q : SearchProblem) (s : Search) : List SearchNode → SearchEnd → Prop
  | found {t u : Search} {n : SearchNode} {ns : List SearchNode} (h : s.Expands q ns t)
      (hnext : t.next? = some (n, u)) (hgoal : n.state.meets q.goal = true) :
      Ends q s (ns ++ [n]) (.found n)
  | exhausted {t : Search} {ns : List SearchNode} (h : s.Expands q ns t)
      (hnext : t.next? = none) : Ends q s ns .exhausted
  | overBudget {t u : Search} {n : SearchNode} {ns : List SearchNode} (h : s.Expands q ns t)
      (hnext : t.next? = some (n, u)) : Ends q s ns .overBudget

/-- The nodes that a run takes up on a budget. -/
def takenUp (q : SearchProblem) : Nat → Search → List SearchNode
  | 0, _ => []
  | budget + 1, s =>
    match s.next? with
    | none => []
    | some (n, t) => n :: if n.state.meets q.goal then [] else takenUp q budget (proceed q n t)

variable {q : SearchProblem} {s t u : Search} {n : SearchNode} {ns : List SearchNode}
  {result : SearchEnd} {b b' : Nat}

/-- A node can be taken up before others. -/
theorem Expands.cons (hnext : s.next? = some (n, t)) (hgoal : n.state.meets q.goal = false)
    (h : (proceed q n t).Expands q ns u) : s.Expands q (n :: ns) u := by
  induction h with
  | nil => exact .concat .nil hnext hgoal
  | concat _ hnext' hgoal' ih => exact .concat ih hnext' hgoal'

theorem Ends.cons (hnext : s.next? = some (n, t)) (hgoal : n.state.meets q.goal = false)
    (h : (proceed q n t).Ends q ns result) : s.Ends q (n :: ns) result := by
  cases h with
  | found h hnext' hgoal' => exact .found (h.cons hnext hgoal) hnext' hgoal'
  | exhausted h hnext' => exact .exhausted (h.cons hnext hgoal) hnext'
  | overBudget h hnext' => exact .overBudget (h.cons hnext hgoal) hnext'

/-! ## runs on a budget -/

/-- Where nothing can be taken, a run is over. -/
theorem run_of_next?_eq_none (h : s.next? = none) (b : Nat) : run q b s = .exhausted := by
  rw [run, h]

/-- Without a budget nothing is taken. -/
theorem run_zero (h : s.next? = some (n, t)) : run q 0 s = .overBudget := by
  rw [run, h]

theorem takenUp_of_next?_eq_none (h : s.next? = none) (b : Nat) : takenUp q b s = [] := by
  cases b with
  | zero => rfl
  | succ b => rw [takenUp, h]

/-- A run with budget left takes a node up and ends at the goal, or proceeds. -/
theorem takenUp_succ (b : Nat) (h : s.next? = some (n, t)) :
    takenUp q (b + 1) s =
      n :: if n.state.meets q.goal then [] else takenUp q b (proceed q n t) := by
  rw [takenUp, h]

/-- **A run takes its nodes up** as the search left to itself does, and ends where that is over or
where the budget cuts it off. -/
theorem ends_takenUp (q : SearchProblem) (b : Nat) (s : Search) :
    s.Ends q (takenUp q b s) (run q b s) := by
  induction b generalizing s with
  | zero =>
      cases hnext : s.next? with
      | none =>
          rw [run_of_next?_eq_none hnext]
          exact .exhausted .nil hnext
      | some r =>
          rw [run_zero hnext]
          exact .overBudget .nil hnext
  | succ b ih =>
      cases hnext : s.next? with
      | none =>
          rw [run_of_next?_eq_none hnext, takenUp_of_next?_eq_none hnext]
          exact .exhausted .nil hnext
      | some r =>
          obtain ⟨n, t⟩ := r
          rw [run_succ q b hnext, takenUp_succ b hnext]
          cases hgoal : n.state.meets q.goal with
          | true => exact .found .nil hnext hgoal
          | false => exact .cons hnext hgoal (ih (proceed q n t))

/-- A run takes up no more nodes than its budget allows. -/
theorem length_takenUp_le (q : SearchProblem) (b : Nat) (s : Search) :
    (takenUp q b s).length ≤ b := by
  induction b generalizing s with
  | zero => exact Nat.le_refl 0
  | succ b ih =>
      cases hnext : s.next? with
      | none =>
          rw [takenUp_of_next?_eq_none hnext]
          exact Nat.zero_le _
      | some r =>
          rw [takenUp_succ b hnext, List.length_cons]
          split
          · exact Nat.succ_le_succ (Nat.zero_le b)
          · exact Nat.succ_le_succ (ih _)

/-- A run is cut off only where its budget is used up. -/
theorem length_takenUp_of_overBudget (h : run q b s = .overBudget) :
    (takenUp q b s).length = b := by
  induction b generalizing s with
  | zero => rfl
  | succ b ih =>
      cases hnext : s.next? with
      | none =>
          rw [run_of_next?_eq_none hnext] at h
          cases h
      | some r =>
          rw [run_succ q b hnext] at h
          rw [takenUp_succ b hnext, List.length_cons]
          cases hgoal : r.1.state.meets q.goal with
          | true =>
              rw [hgoal] at h
              cases h
          | false =>
              rw [hgoal] at h
              exact congrArg (· + 1) (ih h)

/-! ## runs on two budgets -/

/-- **A run on a larger budget ends in the same way**, unless the smaller one was used up. -/
theorem run_eq_of_le (h : b ≤ b') (s : Search) :
    run q b s = .overBudget ∨ run q b' s = run q b s := by
  induction b generalizing b' s with
  | zero =>
      cases hnext : s.next? with
      | none => exact .inr (by rw [run_of_next?_eq_none hnext, run_of_next?_eq_none hnext])
      | some r => exact .inl (run_zero hnext)
  | succ b ih =>
      obtain ⟨c, rfl⟩ := Nat.exists_eq_add_of_le' h
      cases hnext : s.next? with
      | none => exact .inr (by rw [run_of_next?_eq_none hnext, run_of_next?_eq_none hnext])
      | some r =>
          rw [run_succ q b hnext, ← Nat.add_assoc, run_succ q (c + b) hnext]
          cases r.1.state.meets q.goal with
          | true => exact .inr rfl
          | false => exact ih (Nat.le_add_left b c) _

/-- **What is taken up on a budget** are the first of the nodes that are taken up on a larger
one. -/
theorem takenUp_eq_take (h : b ≤ b') (s : Search) : takenUp q b s = (takenUp q b' s).take b := by
  induction b generalizing b' s with
  | zero => rw [List.take_zero, takenUp]
  | succ b ih =>
      obtain ⟨c, rfl⟩ := Nat.exists_eq_add_of_le' h
      cases hnext : s.next? with
      | none =>
          rw [takenUp_of_next?_eq_none hnext, takenUp_of_next?_eq_none hnext, List.take_nil]
      | some r =>
          rw [takenUp_succ b hnext, ← Nat.add_assoc, takenUp_succ (c + b) hnext,
            List.take_succ_cons]
          cases r.1.state.meets q.goal with
          | true => simp
          | false => simpa using ih (Nat.le_add_left b c) (proceed q r.1 r.2)

end Search

namespace Planner

/-! ## planning queries -/

/-- The planner with another budget. -/
def withBudget (p : Planner) (budget : UInt64) : Planner :=
  { p with config.maxExpansions := budget }

/-- The nodes that a query takes up.  A query that has nothing to do, or no room for an action,
takes up none. -/
def takenUp (p : Planner) (start goal : WorldState) (cap : Nat) : List SearchNode :=
  if start.meets goal || cap = 0 then []
  else Search.takenUp (p.problem goal cap) p.config.maxExpansions.toNat
    (Search.init (p.problem goal cap) start)

variable {b b' : UInt64}

/-- A query that has something to do takes up what its search takes up. -/
theorem takenUp_eq (p : Planner) {start goal : WorldState} {cap : Nat}
    (hgoal : start.meets goal = false) (hcap : cap ≠ 0) :
    (p.withBudget b).takenUp start goal cap =
      Search.takenUp (p.problem goal cap) b.toNat (Search.init (p.problem goal cap) start) := by
  rw [takenUp, if_neg (by simp [hgoal, hcap])]
  rfl

/-- What a query with something to do is answered on a budget. -/
theorem planWithCap_withBudget_eq (p : Planner) {start goal : WorldState} {cap : Nat}
    (hgoal : start.meets goal = false) (hcap : cap ≠ 0) :
    (p.withBudget b).planWithCap start goal cap =
      match (p.problem goal cap).solve start b.toNat with
      | .found n => n.toPlan cap
      | .exhausted | .overBudget => .notFound cap :=
  planWithCap_eq _ hgoal hcap

/-- A query is answered as on a larger budget, unless its budget is used up. -/
theorem planWithCap_withBudget (p : Planner) (start goal : WorldState) (cap : Nat) (h : b ≤ b') :
    ((p.withBudget b).planWithCap start goal cap = .notFound cap ∧
      ((p.withBudget b).takenUp start goal cap).length = b.toNat) ∨
    (p.withBudget b).planWithCap start goal cap =
      (p.withBudget b').planWithCap start goal cap := by
  cases hgoal : start.meets goal with
  | true => exact .inr (by rw [planWithCap_of_meets _ _ hgoal, planWithCap_of_meets _ _ hgoal])
  | false =>
      by_cases hcap : cap = 0
      · subst hcap
        exact .inr (by rw [planWithCap_zero _ hgoal, planWithCap_zero _ hgoal])
      · rw [planWithCap_withBudget_eq p hgoal hcap, planWithCap_withBudget_eq p hgoal hcap,
          takenUp_eq p hgoal hcap]
        obtain hover | hsame := Search.run_eq_of_le (UInt64.le_iff_toNat_le.mp h)
          (Search.init (p.problem goal cap) start)
        · refine .inl ⟨?_, Search.length_takenUp_of_overBudget hover⟩
          rw [SearchProblem.solve, hover]
        · exact .inr (by rw [SearchProblem.solve, SearchProblem.solve, hsame])

/-- **A budget only ever withholds an answer.**  A query gives the plan that it gives on a larger
budget, or none, and then the budget is used up.  It takes up no more nodes than the budget allows:
they are the first of those that it takes up on the larger one, and the search left to itself takes
up just these before it ends or is cut off. -/
theorem budget_only_withholds (p : Planner) (start goal : WorldState) (cap : Nat) (h : b ≤ b') :
    (((p.withBudget b).planWithCap start goal cap = .notFound cap ∧
        ((p.withBudget b).takenUp start goal cap).length = b.toNat) ∨
      (p.withBudget b).planWithCap start goal cap =
        (p.withBudget b').planWithCap start goal cap) ∧
    ((p.withBudget b).takenUp start goal cap).length ≤ b.toNat ∧
    (p.withBudget b).takenUp start goal cap =
      ((p.withBudget b').takenUp start goal cap).take b.toNat ∧
    (start.meets goal = false → cap ≠ 0 →
      (Search.init (p.problem goal cap) start).Ends (p.problem goal cap)
        ((p.withBudget b).takenUp start goal cap) ((p.problem goal cap).solve start b.toNat)) := by
  refine ⟨planWithCap_withBudget p start goal cap h, ?_, ?_, fun hgoal hcap => ?_⟩
  · rw [takenUp]
    split
    · exact Nat.zero_le _
    · exact Search.length_takenUp_le _ _ _
  · rw [takenUp, takenUp]
    split
    · rw [List.take_nil]
    · exact Search.takenUp_eq_take (UInt64.le_iff_toNat_le.mp h) _
  · rw [takenUp_eq p hgoal hcap]
    exact Search.ends_takenUp _ _ _

/-- On the way home five nodes are taken up.  On a budget of four the last one, which is home, is
withheld. -/
theorem budget_only_withholds_river :
    (4 : UInt64) ≤ 5 ∧ (river.withBudget 5).planWithCap nearBank atHome 64 ≠ .notFound 64 ∧
      (river.withBudget 4).planWithCap nearBank atHome 64 = .notFound 64 ∧
      ((river.withBudget 4).takenUp nearBank atHome 64).length = 4 ∧
      (river.withBudget 4).takenUp nearBank atHome 64 =
        ((river.withBudget 5).takenUp nearBank atHome 64).take 4 := by
  have hle : (4 : UInt64) ≤ 5 := by decide
  obtain ⟨hanswer, -, htake, -⟩ := budget_only_withholds river nearBank atHome 64 hle
  have hfound : (river.withBudget 5).planWithCap nearBank atHome 64 ≠ .notFound 64 := by
    decide +kernel
  have hdiffer : (river.withBudget 4).planWithCap nearBank atHome 64 ≠
      (river.withBudget 5).planWithCap nearBank atHome 64 := by decide +kernel
  obtain ⟨hnone, hused⟩ := hanswer.resolve_right hdiffer
  exact ⟨hle, hfound, hnone, hused, htake⟩

end Planner

end PlanningAgents
