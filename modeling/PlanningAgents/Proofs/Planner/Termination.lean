import PlanningAgents.Proofs.Planner.Budget

/-!
# PlanningAgents.Proofs.Planner.Termination

Why a search ends by itself.  A state is taken up again only when a cheaper way to it has been found
meanwhile, since a node that was taken up is spent for good (`Search.Spent`): its state is recorded
at no more than the node costs, and is never open at this cost again.  There are finitely many
states that can be reached and finitely many costs below the limit, so a search takes up finitely
many nodes.  Neither the order in which entries are handed out nor what they promise plays a part,
and actions may be free, or undo each other.

Main statements:

* `Search.Lowers` — nodes that are opened, each cheaper than what is recorded of its state;
* `Search.Expands.undercuts` — a state is taken up again only at a lower cost;
* `Planner.search_ends` — every search ends by itself.
-/

namespace PlanningAgents

/-- A node does not have the state of another one, or is cheaper. -/
def SearchNode.Undercuts (n m : SearchNode) : Prop := n.state = m.state → n.cost < m.cost

/-- Where each node undercuts all before it, and costs are limited, there are only so many. -/
theorem SearchNode.length_le_of_undercuts {ns : List SearchNode} {S : Set WorldState} {limit : Nat}
    (h : ns.Pairwise fun m n => n.Undercuts m)
    (hmem : ∀ n ∈ ns, n.state ∈ S ∧ n.cost < limit) : ns.length ≤ S.ncard * limit := by
  have hnodup : (ns.map fun n => (n.state, n.cost)).Nodup := by
    refine List.pairwise_map.mpr (h.imp fun hlt heq => ?_)
    obtain ⟨hstate, hcost⟩ := Prod.mk.inj heq
    exact Nat.ne_of_gt (hlt hstate.symm) hcost
  have hsub : (ns.map fun n => (n.state, n.cost)).toFinset ⊆
      S.toFinite.toFinset ×ˢ Finset.range limit := by
    intro x hx
    obtain ⟨n, hn, rfl⟩ := List.mem_map.mp (List.mem_toFinset.mp hx)
    obtain ⟨hstate, hcost⟩ := hmem n hn
    exact Finset.mem_product.mpr ⟨S.toFinite.mem_toFinset.mpr hstate, Finset.mem_range.mpr hcost⟩
  calc ns.length = (ns.map fun n => (n.state, n.cost)).toFinset.card := by
        rw [List.toFinset_card_of_nodup hnodup, List.length_map]
    _ ≤ (S.toFinite.toFinset ×ˢ Finset.range limit).card := Finset.card_le_card hsub
    _ = S.ncard * limit := by
        rw [Finset.card_product, Finset.card_range, Set.ncard_eq_toFinset_card S S.toFinite]

namespace Search

/-- Nodes are opened one after the other, each at one of the given states and cheaper than what is
recorded of it. -/
inductive Lowers (q : SearchProblem) (S : Set WorldState) (s : Search) :
    List SearchNode → Search → Prop
  | nil : Lowers q S s [] s
  | concat {t : Search} {n : SearchNode} {ns : List SearchNode} (h : Lowers q S s ns t)
      (hstate : n.state ∈ S) (hlt : n.cost < t.bestCost n.state) :
      Lowers q S s (ns ++ [n]) (t.openNode q.goal n)

/-- A node is spent: its state is recorded at no more than it costs, and not open at this cost. -/
structure Spent (s : Search) (n : SearchNode) : Prop where
  bestCost_le : s.bestCost n.state ≤ n.cost
  cost_ne : ∀ e ∈ s.frontier.toList, e.item.state = n.state → e.item.cost ≠ n.cost

variable {q : SearchProblem} {start : WorldState} {s t : Search} {e : Entry SearchNode}
  {m n : SearchNode} {ns : List SearchNode} {result : SearchEnd} {b : Nat}

/-! ## spent nodes -/

namespace Spent

/-- Opening a cheaper node spares no node that is spent. -/
theorem openNode (h : s.Spent n) (goal : WorldState) (hlt : m.cost < s.bestCost m.state) :
    (s.openNode goal m).Spent n where
  bestCost_le := (bestCost_openNode_le goal hlt n.state).trans h.bestCost_le
  cost_ne e he hstate := by
    obtain rfl | he := mem_openNode.mp he
    · have hstate : m.state = n.state := hstate
      have hbest := h.bestCost_le
      rw [← hstate] at hbest
      exact Nat.ne_of_lt (hlt.trans_le hbest)
    · exact h.cost_ne e he hstate

theorem takes (h : s.Spent n) (ht : s.Takes e t) : t.Spent n where
  bestCost_le := ht.bestCost_eq n.state ▸ h.bestCost_le
  cost_ne e' he' := h.cost_ne e' (ht.mem_of_mem he')

/-- Once an entry is taken, its node is spent. -/
theorem of_takes (hs : Sound q start s) (ht : s.Takes e t) : t.Spent e.item where
  bestCost_le := Nat.le_of_eq (by rw [ht.bestCost_eq, ht.current])
  cost_ne _ he' hstate := hs.ne_of_mem_takes ht he' hstate

theorem proceed (h : s.Spent n) : (Search.proceed q m s).Spent n := by
  unfold Search.proceed
  split
  · exact h
  · exact expand_induction (R := (Spent · n)) h fun t a ht _ _ _ hlt => ht.openNode q.goal hlt

/-- What is taken undercuts every node that is spent. -/
theorem undercuts (h : s.Spent n) (ht : s.Takes e t) : e.item.Undercuts n := by
  intro hstate
  have hcost : e.item.cost ≤ n.cost := by
    rw [ht.current, hstate]
    exact h.bestCost_le
  exact lt_of_le_of_ne hcost (h.cost_ne e ht.mem hstate)

end Spent

/-! ## what a search takes up -/

namespace Expands

theorem explored (h : (init q start).Expands q ns s) : Explored q start s := by
  induction h with
  | nil => exact Explored.init q start
  | concat _ hnext hgoal ih =>
      obtain ⟨e, rfl, ht⟩ := takes_of_next? ih.ordered hnext
      exact ih.proceed ht hgoal

/-- What has been taken up is spent. -/
theorem spent (h : (init q start).Expands q ns s) : ∀ n ∈ ns, s.Spent n := by
  induction h with
  | nil => exact fun _ hn => absurd hn List.not_mem_nil
  | @concat t u n ns h hnext hgoal ih =>
      obtain ⟨e, rfl, ht⟩ := takes_of_next? h.explored.ordered hnext
      intro m hm
      obtain hm | hm := List.mem_append.mp hm
      · exact ((ih m hm).takes ht).proceed
      · obtain rfl := List.mem_singleton.mp hm
        exact (Spent.of_takes h.explored.toSound ht).proceed

/-- What is taken up next undercuts all that was taken up before. -/
theorem undercuts_concat (h : (init q start).Expands q ns s) (hnext : s.next? = some (n, t))
    (hns : ns.Pairwise fun m n => n.Undercuts m) :
    (ns ++ [n]).Pairwise fun m n => n.Undercuts m := by
  obtain ⟨e, rfl, ht⟩ := takes_of_next? h.explored.ordered hnext
  refine List.pairwise_append.mpr ⟨hns, List.pairwise_singleton _ _, fun m hm k hk => ?_⟩
  obtain rfl := List.mem_singleton.mp hk
  exact (h.spent m hm).undercuts ht

/-- **A state is taken up again only at a lower cost**: each node undercuts all that were taken up
before it. -/
theorem undercuts (h : (init q start).Expands q ns s) :
    ns.Pairwise fun m n => n.Undercuts m := by
  induction h with
  | nil => exact .nil
  | concat h hnext _ ih => exact h.undercuts_concat hnext ih

theorem opened_of_next? (h : (init q start).Expands q ns s) (hnext : s.next? = some (n, t)) :
    n.Opened q start := by
  obtain ⟨e, rfl, ht⟩ := takes_of_next? h.explored.ordered hnext
  exact (h.explored.entry e ht.mem).opened

theorem opened (h : (init q start).Expands q ns s) : ∀ n ∈ ns, n.Opened q start := by
  induction h with
  | nil => exact fun _ hn => absurd hn List.not_mem_nil
  | concat h hnext _ ih =>
      intro m hm
      obtain hm | hm := List.mem_append.mp hm
      · exact ih m hm
      · exact List.mem_singleton.mp hm ▸ h.opened_of_next? hnext

end Expands

namespace Ends

theorem undercuts (h : (init q start).Ends q ns result) :
    ns.Pairwise fun m n => n.Undercuts m := by
  cases h with
  | found h hnext _ => exact h.undercuts_concat hnext h.undercuts
  | exhausted h _ => exact h.undercuts
  | overBudget h _ => exact h.undercuts

theorem opened (h : (init q start).Ends q ns result) : ∀ n ∈ ns, n.Opened q start := by
  cases h with
  | found h hnext _ =>
      intro m hm
      obtain hm | hm := List.mem_append.mp hm
      · exact h.opened m hm
      · exact List.mem_singleton.mp hm ▸ h.opened_of_next? hnext
  | exhausted h _ => exact h.opened
  | overBudget h _ => exact h.opened

/-- Where a search was cut off, it could have taken up another node. -/
theorem exists_concat {s : Search} (h : s.Ends q ns .overBudget) :
    ∃ n result, s.Ends q (ns ++ [n]) result := by
  cases h with
  | @overBudget t u n _ h hnext =>
      cases hgoal : n.state.meets q.goal with
      | true => exact ⟨n, _, .found h hnext hgoal⟩
      | false =>
          have hmore := h.concat hnext hgoal
          cases hlater : (Search.proceed q n u).next? with
          | none => exact ⟨n, _, .exhausted hmore hlater⟩
          | some r => exact ⟨n, _, .overBudget hmore hlater⟩

end Ends

end Search

namespace Planner

variable {p : Planner} {start goal : WorldState} {cap : Nat} {s t : Search} {n : SearchNode}
  {ns : List SearchNode} {result : SearchEnd}

/-- What is opened has a state that can be reached. -/
theorem Built.mem_reachable (hp : p.Built) (h : n.Opened (p.problem goal cap) start) :
    n.state ∈ p.reachable start :=
  ⟨n.names, h.after?_names hp⟩

/-- **Every expansion opens nodes** that can be reached, each cheaper than what is recorded. -/
theorem Built.lowers_expand (hp : p.Built) (h : n.Opened (p.problem goal cap) start)
    (t : Search) :
    ∃ ms, t.Lowers (p.problem goal cap) (p.reachable start) ms
      (t.expand (p.problem goal cap) n) := by
  refine Search.expand_induction
    (R := fun u => ∃ ms, t.Lowers (p.problem goal cap) (p.reachable start) ms u) ⟨[], .nil⟩ ?_
  rintro u a ⟨ms, hu⟩ ha hpre - hlt
  exact ⟨_, hu.concat (step?_mem_reachable (hp.mem_reachable h) (hp.step?_name ha hpre)) hlt⟩

theorem Built.lowers_proceed (hp : p.Built) (h : n.Opened (p.problem goal cap) start)
    (t : Search) :
    ∃ ms, t.Lowers (p.problem goal cap) (p.reachable start) ms
      (Search.proceed (p.problem goal cap) n t) := by
  unfold Search.proceed
  split
  · exact ⟨[], .nil⟩
  · exact hp.lowers_expand h t

/-- **A search takes up only so many nodes**: at most one for every state that can be reached and
every cost below the limit. -/
theorem Built.length_le_of_ends (hp : p.Built)
    (h : (Search.init (p.problem goal cap) start).Ends (p.problem goal cap) ns result) :
    ns.length ≤ (p.reachable start).ncard * costLimit :=
  SearchNode.length_le_of_undercuts h.undercuts fun n hn =>
    ⟨hp.mem_reachable (h.opened n hn), (h.opened n hn).cost_lt⟩

/-- On a budget of that many nodes a search is not cut off. -/
theorem Built.solve_ne_overBudget (hp : p.Built) {b : Nat}
    (hb : (p.reachable start).ncard * costLimit ≤ b) :
    (p.problem goal cap).solve start b ≠ .overBudget := by
  intro hover
  have hends := Search.ends_takenUp (p.problem goal cap) b
    (Search.init (p.problem goal cap) start)
  rw [← SearchProblem.solve, hover] at hends
  obtain ⟨n, result, hmore⟩ := hends.exists_concat
  have hlength := hp.length_le_of_ends hmore
  rw [List.length_append, Search.length_takenUp_of_overBudget hover,
    List.length_singleton] at hlength
  omega

/-- **Every search ends by itself**, whatever its actions cost and wherever they lead: it meets the
goal, or nothing is open any more.  It takes up at most one node for every state that can be reached
and every cost below the limit, and a state again only at a lower cost.  All that it opens on the
way lowers what is recorded of a state that can be reached, and there are finitely many of these.
So on a budget of that many nodes it is never cut off. -/
theorem search_ends (hp : p.Built) (start goal : WorldState) (cap : Nat) :
    (p.reachable start).Finite ∧
    (∃ ns result, (Search.init (p.problem goal cap) start).Ends (p.problem goal cap) ns result ∧
      result ≠ .overBudget) ∧
    (∀ ns result,
      (Search.init (p.problem goal cap) start).Ends (p.problem goal cap) ns result →
        ns.length ≤ (p.reachable start).ncard * costLimit ∧
        ns.Pairwise fun m n => n.state = m.state → n.cost < m.cost) ∧
    (∀ ns s n t, (Search.init (p.problem goal cap) start).Expands (p.problem goal cap) ns s →
      s.next? = some (n, t) → n.state.meets goal = false →
        ∃ ms, t.Lowers (p.problem goal cap) (p.reachable start) ms
          (Search.proceed (p.problem goal cap) n t)) ∧
    ∀ b, (p.reachable start).ncard * costLimit ≤ b →
      (p.problem goal cap).solve start b ≠ .overBudget := by
  refine ⟨Set.toFinite _, ?_, fun ns result h => ⟨hp.length_le_of_ends h, h.undercuts⟩,
    fun ns s n t h hnext _ => hp.lowers_proceed (h.opened_of_next? hnext) t,
    fun b hb => hp.solve_ne_overBudget hb⟩
  exact ⟨_, _, Search.ends_takenUp _ _ _, hp.solve_ne_overBudget (Nat.le_refl _)⟩

/-! ## a swing -/

/-- A swing that goes up and down for free. -/
def swing : Planner :=
  ((addSpecs
    [ { name := "push", cost := 0, pre := .ofList [("up", false)], post := .ofList [("up", true)] },
      { name := "fall", cost := 0, pre := .ofList [("up", true)], post := .ofList [("up", false)] }
    ]).runOn {}).2

/-- The swing is up or down, and nothing else ever. -/
theorem ncard_reachable_swing : (swing.reachable ⟨0, ~~~1⟩).ncard ≤ 2 := by
  have hstep : ∀ s ∈ [(⟨0, ~~~1⟩ : WorldState), ⟨1, ~~~1⟩], ∀ a ∈ swing.actions,
      s.meets a.pre = true → s.apply a.post ∈ [(⟨0, ~~~1⟩ : WorldState), ⟨1, ~~~1⟩] := by
    decide +kernel
  have hsub : swing.reachable ⟨0, ~~~1⟩ ⊆
      ([(⟨0, ~~~1⟩ : WorldState), ⟨1, ~~~1⟩].toFinset : Set WorldState) := by
    rw [List.coe_toFinset]
    exact reachable_subset (by decide +kernel) hstep
  have hcard := Set.ncard_le_ncard hsub (Set.toFinite _)
  rw [Set.ncard_coe_finset] at hcard
  exact hcard.trans (List.toFinset_card_le _)

/-- A search that swings to and fro for something out of reach comes to an end. -/
theorem search_ends_swing :
    swing.Built ∧
    (∃ ns result, (Search.init (swing.problem ⟨2, ~~~2⟩ 64) ⟨0, ~~~1⟩).Ends
      (swing.problem ⟨2, ~~~2⟩ 64) ns result ∧ result ≠ .overBudget ∧
        ns.length ≤ 2 * costLimit) ∧
    (swing.problem ⟨2, ~~~2⟩ 64).solve ⟨0, ~~~1⟩ (2 * costLimit) ≠ .overBudget := by
  have hbuilt : swing.Built := .addSpecs (.empty {} {}) _
  obtain ⟨-, ⟨ns, result, hends, hresult⟩, hbound, -, hbudget⟩ :=
    search_ends hbuilt ⟨0, ~~~1⟩ ⟨2, ~~~2⟩ 64
  have hfew : (swing.reachable ⟨0, ~~~1⟩).ncard * costLimit ≤ 2 * costLimit :=
    Nat.mul_le_mul_right _ ncard_reachable_swing
  exact ⟨hbuilt, ⟨ns, result, hends, hresult, (hbound ns result hends).1.trans hfew⟩,
    hbudget _ hfew⟩

end Planner

end PlanningAgents
