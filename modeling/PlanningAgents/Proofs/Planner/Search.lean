import PlanningAgents.Proofs.Planner.Frontier
import PlanningAgents.Proofs.Planner.Node

/-!
# PlanningAgents.Proofs.Planner.Search

The steps of a search.  It takes an entry (`Search.Takes`), it opens a node, and it follows every
action from a node.  For each of these steps a few lemmas say what it changes, and nothing else
looks into the search; a whole run is met through `Search.run_cases` alone.

Main statements:

* `Search.takes_of_next?` — what is taken is current and comes before all that is left;
* `Search.expand_induction`, `Search.bestCost_expand_extend_le` — what an expansion keeps, and
  what it achieves;
* `Search.run_cases` — what every step keeps holds where the search ends.
-/

namespace PlanningAgents

namespace Search

/-! ## opening a node -/

/-- Opening a node records its cost. -/
theorem bestCost_openNode (goal : WorldState) (s : Search) (n : SearchNode) (x : WorldState) :
    (s.openNode goal n).bestCost x = if x = n.state then n.cost else s.bestCost x := by
  simp only [bestCost, openNode, Std.ExtTreeMap.getD_insert, Std.LawfulEqCmp.compare_eq_iff_eq,
    eq_comm (a := n.state)]

/-- The entry with which a node is opened. -/
def entryOf (goal : WorldState) (s : Search) (n : SearchNode) : Entry SearchNode :=
  { total := addCost n.cost (n.state.distanceTo goal), rest := n.state.distanceTo goal,
    serial := s.opened, item := n }

/-- Opening a node adds just its entry. -/
theorem perm_openNode (goal : WorldState) (s : Search) (n : SearchNode) :
    (s.openNode goal n).frontier.toList.Perm (s.entryOf goal n :: s.frontier.toList) :=
  Frontier.perm_insert s.frontier (s.entryOf goal n)

theorem mem_openNode {goal : WorldState} {s : Search} {n : SearchNode} {e : Entry SearchNode} :
    e ∈ (s.openNode goal n).frontier.toList ↔ e = s.entryOf goal n ∨ e ∈ s.frontier.toList := by
  rw [(perm_openNode goal s n).mem_iff, List.mem_cons]

/-! ## taking an entry -/

/-- The search takes an entry: some entries that are not current are passed over, and the entry
comes before all that is left. -/
structure Takes (s : Search) (e : Entry SearchNode) (t : Search) : Prop where
  current : e.item.cost = s.bestCost e.item.state
  perm : ∃ stale, s.frontier.toList.Perm (stale ++ e :: t.frontier.toList) ∧
    ∀ x ∈ stale, x.item.cost ≠ s.bestCost x.item.state
  best : t.best = s.best
  opened : t.opened = s.opened
  ordered : t.frontier.Ordered
  first : ∀ x ∈ t.frontier.toList, e.le x = true

theorem isCurrent_iff {s : Search} {n : SearchNode} :
    s.isCurrent n = true ↔ n.cost = s.bestCost n.state := by
  simp [isCurrent]

/-- What is taken is current and comes before all that is left. -/
theorem takes_of_next? {s t : Search} {n : SearchNode} (hs : s.frontier.Ordered)
    (h : s.next? = some (n, t)) : ∃ e, e.item = n ∧ s.Takes e t := by
  fun_induction next? s with
  | case1 s hpop => simp at h
  | case2 s e f hpop hcurrent =>
      simp only [Option.some.injEq, Prod.mk.injEq] at h
      obtain ⟨rfl, rfl⟩ := h
      refine ⟨e, rfl, isCurrent_iff.mp hcurrent, ⟨[], ?_, by simp⟩, rfl, rfl, ?_, ?_⟩
      · exact Frontier.perm_pop? hpop
      · exact Frontier.ordered_pop? hs hpop
      · exact Frontier.le_of_pop? hs hpop
  | case3 s e f hpop hstale ih =>
      obtain ⟨e', he', hcurrent, ⟨stale, hperm, hstales⟩, hbest, hopened, hordered, hfirst⟩ :=
        ih (Frontier.ordered_pop? hs hpop) h
      refine ⟨e', he', hcurrent, ⟨e :: stale, ?_, ?_⟩, hbest, hopened, hordered, hfirst⟩
      · exact (Frontier.perm_pop? hpop).trans (hperm.cons e)
      · intro x hx
        obtain rfl | hx := List.mem_cons.mp hx
        · exact fun heq => hstale (isCurrent_iff.mpr heq)
        · exact hstales x hx

/-- When nothing can be taken, no entry is current. -/
theorem not_current_of_next? {s : Search} (h : s.next? = none) :
    ∀ e ∈ s.frontier.toList, e.item.cost ≠ s.bestCost e.item.state := by
  fun_induction next? s with
  | case1 s hpop => simp [Frontier.pop?_eq_none_iff.mp hpop]
  | case2 s e f hpop hcurrent => simp at h
  | case3 s e f hpop hstale ih =>
      intro x hx
      obtain rfl | hx := List.mem_cons.mp ((Frontier.perm_pop? hpop).mem_iff.mp hx)
      · exact fun heq => hstale (isCurrent_iff.mpr heq)
      · exact ih h x hx

namespace Takes

variable {s t : Search} {e : Entry SearchNode}

/-- Taking an entry changes no recorded cost. -/
theorem bestCost_eq (h : s.Takes e t) (x : WorldState) : t.bestCost x = s.bestCost x := by
  rw [bestCost, h.best, bestCost]

theorem mem (h : s.Takes e t) : e ∈ s.frontier.toList := by
  obtain ⟨stale, hperm, -⟩ := h.perm
  exact hperm.mem_iff.mpr (by simp)

theorem mem_of_mem (h : s.Takes e t) {x : Entry SearchNode} (hx : x ∈ t.frontier.toList) :
    x ∈ s.frontier.toList := by
  obtain ⟨stale, hperm, -⟩ := h.perm
  exact hperm.mem_iff.mpr (by simp [hx])

/-- A current entry is the one that is taken, or is left. -/
theorem eq_or_mem (h : s.Takes e t) {x : Entry SearchNode} (hx : x ∈ s.frontier.toList)
    (hcurrent : x.item.cost = s.bestCost x.item.state) : x = e ∨ x ∈ t.frontier.toList := by
  obtain ⟨stale, hperm, hstale⟩ := h.perm
  have hmem := hperm.mem_iff.mp hx
  rw [List.mem_append, List.mem_cons] at hmem
  obtain hx | hx := hmem
  · exact absurd hcurrent (hstale x hx)
  · exact hx

/-- No current entry promises less than the one that is taken. -/
theorem total_le (h : s.Takes e t) {x : Entry SearchNode} (hx : x ∈ s.frontier.toList)
    (hcurrent : x.item.cost = s.bestCost x.item.state) : e.total ≤ x.total := by
  obtain rfl | hx := h.eq_or_mem hx hcurrent
  · exact Nat.le_refl _
  · exact Entry.total_le_of_le (h.first x hx)

end Takes

/-! ## following the actions -/

variable {p : SearchProblem} {n : SearchNode} {s : Search}

/-- Following an action opens a node just where the action applies, changes something and is cheaper
than what is known. -/
theorem follow_eq (p : SearchProblem) (n : SearchNode) (s : Search) (a : PlannerAction) :
    follow p n s a =
      if n.state.meets a.pre = true ∧ (n.extend a).state ≠ n.state ∧
          (n.extend a).cost < s.bestCost (n.extend a).state then
        s.openNode p.goal (n.extend a)
      else s :=
  if_congr (by simp only [Bool.and_eq_true, bne_iff_ne, decide_eq_true_eq, and_assoc]) rfl rfl

/-- What every opening keeps, the expansion of a node keeps. -/
theorem expand_induction {R : Search → Prop} (hs : R s)
    (hopen : ∀ s a, R s → a ∈ p.actions → n.state.meets a.pre = true →
      (n.extend a).state ≠ n.state → (n.extend a).cost < s.bestCost (n.extend a).state →
      R (s.openNode p.goal (n.extend a))) : R (s.expand p n) := by
  apply List.foldlRecOn p.actions (follow p n) hs
  intro s hs a ha
  rw [follow_eq]
  split
  · next h => exact hopen s a hs ha h.1 h.2.1 h.2.2
  · exact hs

/-- Recorded costs only fall. -/
theorem bestCost_follow_le (s : Search) (a : PlannerAction) (x : WorldState) :
    (follow p n s a).bestCost x ≤ s.bestCost x := by
  rw [follow_eq]
  split
  · next h =>
    rw [bestCost_openNode]
    split
    · next hx => exact hx ▸ Nat.le_of_lt h.2.2
    · exact Nat.le_refl _
  · exact Nat.le_refl _

theorem bestCost_foldl_follow_le (as : List PlannerAction) (s : Search) (x : WorldState) :
    (as.foldl (follow p n) s).bestCost x ≤ s.bestCost x := by
  induction as generalizing s with
  | nil => exact Nat.le_refl _
  | cons a as ih => exact Nat.le_trans (ih _) (bestCost_follow_le s a x)

/-- After the expansion no action that applies lowers a recorded cost. -/
theorem bestCost_expand_extend_le {a : PlannerAction} (ha : a ∈ p.actions)
    (hpre : n.state.meets a.pre = true) (hstate : (n.extend a).state ≠ n.state) :
    (s.expand p n).bestCost (n.extend a).state ≤ (n.extend a).cost := by
  have hfollow (s : Search) : (follow p n s a).bestCost (n.extend a).state ≤ (n.extend a).cost := by
    rw [follow_eq]
    split
    · rw [bestCost_openNode, if_pos rfl]
    · next h => exact Nat.le_of_not_lt fun hlt => h ⟨hpre, hstate, hlt⟩
  obtain ⟨before, behind, hsplit⟩ := List.append_of_mem ha
  rw [expand, hsplit, List.foldl_append, List.foldl_cons]
  exact Nat.le_trans (bestCost_foldl_follow_le behind _ _) (hfollow _)

/-! ## a whole run -/

/-- What follows when a node has been taken that does not meet the goal. -/
def proceed (p : SearchProblem) (n : SearchNode) (s : Search) : Search :=
  if p.cap ≤ n.depth then s else s.expand p n

/-- A run with budget left takes an entry and ends at the goal, or proceeds. -/
theorem run_succ (p : SearchProblem) (b : Nat) {s t : Search} {n : SearchNode}
    (h : s.next? = some (n, t)) :
    run p (b + 1) s = if n.state.meets p.goal then .found n else run p b (proceed p n t) := by
  rw [run]
  simp only [h, proceed]
  split
  · rfl
  · split <;> rfl

/-- **Induction over a run**: what every step keeps, while the budget goes down by one for each
node taken, holds where the search ends. -/
theorem run_cases {I : Nat → Search → Prop} (hordered : ∀ b s, I b s → s.frontier.Ordered)
    (hstep : ∀ b s e t, I (b + 1) s → s.Takes e t → e.item.state.meets p.goal = false →
      I b (proceed p e.item t)) (b : Nat) (s : Search) (hs : I b s) :
    match run p b s with
    | .found n => ∃ b s e t, I b s ∧ s.Takes e t ∧ e.item = n ∧ n.state.meets p.goal = true
    | .exhausted => ∃ b s, I b s ∧ s.next? = none
    | .overBudget => ∃ s e t, I 0 s ∧ s.Takes e t := by
  induction b generalizing s with
  | zero =>
      unfold run
      cases hnext : s.next? with
      | none => exact ⟨0, s, hs, hnext⟩
      | some r =>
          obtain ⟨e, -, htakes⟩ := takes_of_next? (hordered 0 s hs) hnext
          exact ⟨s, e, r.2, hs, htakes⟩
  | succ b ih =>
      cases hnext : s.next? with
      | none =>
          rw [run, hnext]
          exact ⟨b + 1, s, hs, hnext⟩
      | some r =>
          obtain ⟨n, t⟩ := r
          obtain ⟨e, rfl, htakes⟩ := takes_of_next? (hordered (b + 1) s hs) hnext
          rw [run_succ p b hnext]
          cases hgoal : e.item.state.meets p.goal with
          | true => exact ⟨b + 1, s, e, t, hs, htakes, rfl, hgoal⟩
          | false => exact ih _ (hstep b s e t hs htakes hgoal)

end Search

end PlanningAgents
