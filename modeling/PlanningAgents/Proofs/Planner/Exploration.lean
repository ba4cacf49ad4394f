import PlanningAgents.Proofs.Planner.Search

/-!
# PlanningAgents.Proofs.Planner.Exploration

What a search knows while it goes on.  Two invariants carry every result about it:

* `Search.Sound` — each open entry holds an opened node with the right estimate, each recorded cost
  is that of an opened node, and no entry stands twice in the frontier;
* `Search.Accounted` — a state with a recorded cost is still open at this cost, or has been
  followed up (none of its actions lowers a recorded cost), or lies as deep as the cap.

While a node is being expanded the second one fails of its own state only (`Search.Expanding`).

Main statements:

* `Search.Explored.init`, `Search.Explored.proceed` — both invariants hold at the start, and are
  kept;
* `Search.Explored.way_cases` — along an executable sequence the recorded costs are low enough,
  unless a state on the way is still open or was cut off;
* `Planner.planWithCap_cases` — how a planning query can be answered.
-/

namespace PlanningAgents

namespace Search

variable {q : SearchProblem} {start : WorldState} {s t : Search} {e : Entry SearchNode}
  {n : SearchNode} {a : PlannerAction} {x : WorldState}

/-! ## sound searches -/

/-- An open entry holds an opened node with the right estimate, and no state on its way is recorded
at more than it costs there. -/
structure EntrySound (q : SearchProblem) (start : WorldState) (s : Search) (e : Entry SearchNode) :
    Prop where
  opened : e.item.Opened q start
  line : ∀ m ∈ e.item.line, s.bestCost m.state ≤ m.cost
  total : e.total = addCost e.item.cost (e.item.state.distanceTo q.goal)

/-- What the entries and the recorded costs of a search stand for. -/
structure Sound (q : SearchProblem) (start : WorldState) (s : Search) : Prop where
  ordered : s.frontier.Ordered
  entry : ∀ e ∈ s.frontier.toList, EntrySound q start s e
  distinct : (s.frontier.toList.map fun e => (e.item.state, e.item.cost)).Nodup
  free : s.bestCost start = 0
  recorded : ∀ x, s.bestCost x = costLimit ∨
    ∃ n : SearchNode, n.Opened q start ∧ n.state = x ∧ n.cost = s.bestCost x

/-- A node that is cheaper than what is recorded lowers the record. -/
theorem bestCost_openNode_le (goal : WorldState) (hlt : n.cost < s.bestCost n.state)
    (x : WorldState) : (s.openNode goal n).bestCost x ≤ s.bestCost x := by
  rw [bestCost_openNode]
  split
  · next hx => exact hx ▸ Nat.le_of_lt hlt
  · exact Nat.le_refl _

namespace Sound

theorem bestCost_le (hs : Sound q start s) (x : WorldState) : s.bestCost x ≤ costLimit := by
  obtain h | ⟨n, hn, -, hcost⟩ := hs.recorded x
  · exact Nat.le_of_eq h
  · exact hcost ▸ Nat.le_of_lt hn.cost_lt

/-- No entry is recorded at more than its node costs. -/
theorem bestCost_le_cost (hs : Sound q start s) (he : e ∈ s.frontier.toList) :
    s.bestCost e.item.state ≤ e.item.cost :=
  (hs.entry e he).line e.item e.item.self_mem_line

/-- A cheaper way than any known one leads to a state that its own way has not met, since costs
only grow along a way. -/
theorem opened_extend (hs : Sound q start s) (hn : n.Opened q start)
    (hline : ∀ m ∈ n.line, s.bestCost m.state ≤ m.cost) (ha : a ∈ q.actions)
    (hpre : n.state.meets a.pre = true) (hgoal : n.state.meets q.goal = false)
    (hdepth : n.depth < q.cap) (hlt : (n.extend a).cost < s.bestCost (n.extend a).state) :
    (n.extend a).Opened q start := by
  refine .extend hn ha hpre hgoal hdepth ?_ (Nat.lt_of_lt_of_le hlt (hs.bestCost_le _))
  intro m hm hstate
  have hgrow : n.cost ≤ (n.extend a).cost := le_addCost (Nat.le_of_lt hn.cost_lt)
  have hcost := hn.cost_le_of_mem_line m hm
  have hknown := hline m hm
  rw [hstate] at hknown
  omega

/-- Opening a cheaper node keeps a search sound. -/
theorem openNode (hs : Sound q start s) (hn : n.Opened q start)
    (hline : ∀ m ∈ n.line, m ≠ n → s.bestCost m.state ≤ m.cost)
    (hlt : n.cost < s.bestCost n.state) : Sound q start (s.openNode q.goal n) where
  ordered := Frontier.ordered_insert hs.ordered _
  entry e he := by
    obtain rfl | he := mem_openNode.mp he
    · refine ⟨hn, fun m hm => ?_, rfl⟩
      by_cases hmn : m = n
      · rw [hmn, bestCost_openNode, if_pos rfl]
      · exact Nat.le_trans (bestCost_openNode_le _ hlt _) (hline m hm hmn)
    · obtain ⟨hopened, hways, htotal⟩ := hs.entry e he
      exact ⟨hopened, fun m hm => Nat.le_trans (bestCost_openNode_le _ hlt _) (hways m hm), htotal⟩
  distinct := by
    rw [((perm_openNode q.goal s n).map _).nodup_iff, List.map_cons, List.nodup_cons]
    refine ⟨fun hmem => ?_, hs.distinct⟩
    obtain ⟨e, he, hpair⟩ := List.mem_map.mp hmem
    obtain ⟨hstate, hcost⟩ : e.item.state = n.state ∧ e.item.cost = n.cost := by
      simpa [entryOf] using hpair
    have hknown := hs.bestCost_le_cost he
    rw [hstate, hcost] at hknown
    omega
  free := by
    rw [bestCost_openNode, if_neg, hs.free]
    intro hstart
    rw [← hstart, hs.free] at hlt
    exact Nat.not_lt_zero _ hlt
  recorded x := by
    rw [bestCost_openNode]
    split
    · next hx => exact .inr ⟨n, hn, hx.symm, rfl⟩
    · exact hs.recorded x

/-- Taking an entry keeps a search sound. -/
theorem takes (hs : Sound q start s) (ht : s.Takes e t) : Sound q start t where
  ordered := ht.ordered
  entry e' he' := by
    obtain ⟨hopened, hline, htotal⟩ := hs.entry e' (ht.mem_of_mem he')
    exact ⟨hopened, fun m hm => ht.bestCost_eq _ ▸ hline m hm, htotal⟩
  distinct := by
    obtain ⟨stale, hperm, -⟩ := ht.perm
    have hnodup := (hperm.map fun e => (e.item.state, e.item.cost)).nodup_iff.mp hs.distinct
    rw [List.map_append, List.map_cons] at hnodup
    exact (List.nodup_cons.mp hnodup.of_append_right).2
  free := by rw [ht.bestCost_eq, hs.free]
  recorded x := by
    rw [ht.bestCost_eq]
    exact hs.recorded x

/-- Once an entry is taken, its state is not open at this cost any more. -/
theorem ne_of_mem_takes (hs : Sound q start s) (ht : s.Takes e t) {e' : Entry SearchNode}
    (he' : e' ∈ t.frontier.toList) (hstate : e'.item.state = e.item.state) :
    e'.item.cost ≠ e.item.cost := by
  obtain ⟨stale, hperm, -⟩ := ht.perm
  have hnodup := (hperm.map fun e => (e.item.state, e.item.cost)).nodup_iff.mp hs.distinct
  rw [List.map_append, List.map_cons] at hnodup
  intro hcost
  apply (List.nodup_cons.mp hnodup.of_append_right).1
  exact List.mem_map.mpr ⟨e', he', by rw [hstate, hcost]⟩

end Sound

/-! ## what has become of the states that were met -/

/-- A state is open at its recorded cost. -/
def IsOpen (s : Search) (x : WorldState) : Prop :=
  ∃ e ∈ s.frontier.toList, e.item.state = x ∧ e.item.cost = s.bestCost x

/-- A state short of the goal has been followed up: none of its actions lowers a recorded cost. -/
def FollowedUp (q : SearchProblem) (s : Search) (x : WorldState) : Prop :=
  x.meets q.goal = false ∧ ∀ a ∈ q.actions, x.meets a.pre = true →
    s.bestCost (x.apply a.post) ≤ addCost (s.bestCost x) a.cost.toNat

/-- A state short of the goal was met as deep as the cap allows, and cheaper than anywhere else. -/
def CutOff (q : SearchProblem) (start : WorldState) (s : Search) (x : WorldState) : Prop :=
  x.meets q.goal = false ∧
    ∃ n : SearchNode, n.Opened q start ∧ n.state = x ∧ n.cost = s.bestCost x ∧ n.depth = q.cap

/-- A state with a recorded cost is open, followed up or cut off. -/
def Accounted (q : SearchProblem) (start : WorldState) (s : Search) (x : WorldState) : Prop :=
  s.bestCost x < costLimit → IsOpen s x ∨ FollowedUp q s x ∨ CutOff q start s x

/-- Opening a cheaper node leaves every other state accounted for, and its own state open. -/
theorem Accounted.openNode (h : Accounted q start s x) (hlt : n.cost < s.bestCost n.state) :
    Accounted q start (s.openNode q.goal n) x := by
  intro hx
  by_cases hstate : x = n.state
  · left
    refine ⟨s.entryOf q.goal n, mem_openNode.mpr (.inl rfl), hstate.symm, ?_⟩
    rw [bestCost_openNode, if_pos hstate]
    rfl
  · have hbest : (s.openNode q.goal n).bestCost x = s.bestCost x := by
      rw [bestCost_openNode, if_neg hstate]
    rw [hbest] at hx
    obtain ⟨e, he, hex, hcost⟩ | ⟨hgoal, hactions⟩ | ⟨hgoal, m, hm, hmx, hcost, hdepth⟩ := h hx
    · exact .inl ⟨e, mem_openNode.mpr (.inr he), hex, hbest ▸ hcost⟩
    · refine .inr (.inl ⟨hgoal, fun a ha hpre => ?_⟩)
      rw [hbest]
      exact Nat.le_trans (bestCost_openNode_le _ hlt _) (hactions a ha hpre)
    · exact .inr (.inr ⟨hgoal, m, hm, hmx, hbest ▸ hcost, hdepth⟩)

/-- Taking an entry leaves every other state accounted for. -/
theorem Accounted.takes (h : Accounted q start s x) (ht : s.Takes e t) (hx : x ≠ e.item.state) :
    Accounted q start t x := by
  intro hlt
  rw [ht.bestCost_eq] at hlt
  obtain ⟨e', he', hstate, hcost⟩ | ⟨hgoal, hactions⟩ | ⟨hgoal, m, hm, hmx, hcost, hdepth⟩ := h hlt
  · left
    obtain rfl | hmem := ht.eq_or_mem he' (by rw [hstate, hcost])
    · exact absurd hstate.symm hx
    · exact ⟨e', hmem, hstate, by rw [ht.bestCost_eq, hcost]⟩
  · exact .inr (.inl ⟨hgoal, fun a ha hpre => by
      rw [ht.bestCost_eq, ht.bestCost_eq]; exact hactions a ha hpre⟩)
  · exact .inr (.inr ⟨hgoal, m, hm, hmx, by rw [ht.bestCost_eq, hcost], hdepth⟩)

/-- **The invariant of a search**: it is sound, and every state that was met is accounted for. -/
structure Explored (q : SearchProblem) (start : WorldState) (s : Search) : Prop
    extends Sound q start s where
  accounted : ∀ x, Accounted q start s x

/-- The invariant while a node is expanded: its own state need not be accounted for. -/
structure Expanding (q : SearchProblem) (start : WorldState) (n : SearchNode) (s : Search) : Prop
    extends Sound q start s where
  line : ∀ m ∈ n.line, s.bestCost m.state ≤ m.cost
  current : s.bestCost n.state = n.cost
  accounted : ∀ x ≠ n.state, Accounted q start s x

namespace Expanding

/-- Once an entry is taken, its node can be expanded. -/
theorem of_takes (hs : Explored q start s) (ht : s.Takes e t) : Expanding q start e.item t where
  toSound := hs.toSound.takes ht
  line m hm := ht.bestCost_eq _ ▸ (hs.entry e ht.mem).line m hm
  current := by rw [ht.bestCost_eq, ht.current]
  accounted x hx := (hs.accounted x).takes ht hx

/-- Opening a cheaper node that an action leads to keeps the invariant. -/
theorem openNode (hs : Expanding q start n s) (hn : n.Opened q start) (ha : a ∈ q.actions)
    (hpre : n.state.meets a.pre = true) (hgoal : n.state.meets q.goal = false)
    (hdepth : n.depth < q.cap) (hstate : (n.extend a).state ≠ n.state)
    (hlt : (n.extend a).cost < s.bestCost (n.extend a).state) :
    Expanding q start n (s.openNode q.goal (n.extend a)) where
  toSound := by
    refine hs.toSound.openNode ?_ (fun m hm hne => ?_) hlt
    · exact hs.toSound.opened_extend hn hs.line ha hpre hgoal hdepth hlt
    · exact hs.line m ((List.mem_cons.mp hm).resolve_left hne)
  line m hm := Nat.le_trans (bestCost_openNode_le _ hlt _) (hs.line m hm)
  current := by rw [bestCost_openNode, if_neg hstate.symm, hs.current]
  accounted x hx := (hs.accounted x hx).openNode hlt

/-- With every action followed, a node's state is followed up. -/
theorem expand (hs : Expanding q start n s) (hn : n.Opened q start)
    (hgoal : n.state.meets q.goal = false) (hdepth : n.depth < q.cap) :
    Explored q start (s.expand q n) := by
  have hafter : Expanding q start n (s.expand q n) :=
    expand_induction hs fun s a hs ha hpre hstate hlt =>
      hs.openNode hn ha hpre hgoal hdepth hstate hlt
  refine ⟨hafter.toSound, fun x => ?_⟩
  by_cases hx : x = n.state
  · subst hx
    refine fun _ => .inr (.inl ⟨hgoal, fun a ha hpre => ?_⟩)
    rw [hafter.current]
    -- an action that changes nothing is not followed, but then nothing has to be lowered
    by_cases hstate : (n.extend a).state = n.state
    · rw [← SearchNode.state_extend, hstate, hafter.current]
      exact le_addCost (Nat.le_of_lt hn.cost_lt)
    · exact bestCost_expand_extend_le ha hpre hstate
  · exact hafter.accounted x hx

end Expanding

namespace Explored

/-- The invariant holds of a search that has only its start open. -/
theorem init (q : SearchProblem) (start : WorldState) : Explored q start (Search.init q start) := by
  have hbest (x : WorldState) :
      (Search.init q start).bestCost x = if x = start then 0 else costLimit := by
    rw [Search.init, bestCost_openNode]
    rfl
  have hmem (e : Entry SearchNode) (he : e ∈ (Search.init q start).frontier.toList) :
      e.item = .start start ∧ e.total = addCost 0 (start.distanceTo q.goal) := by
    obtain rfl | he := mem_openNode.mp he
    · exact ⟨rfl, rfl⟩
    · exact absurd he List.not_mem_nil
  refine ⟨⟨?_, ?_, ?_, ?_, ?_⟩, ?_⟩
  · exact Frontier.ordered_insert (f := .empty) trivial _
  · intro e he
    obtain ⟨hitem, htotal⟩ := hmem e he
    refine ⟨hitem ▸ .start, fun m hm => ?_, by rw [htotal, hitem]; rfl⟩
    rw [hitem, SearchNode.line, List.mem_singleton] at hm
    rw [hm, hbest, SearchNode.state, if_pos rfl]
    exact Nat.zero_le _
  · rw [Search.init, ((perm_openNode q.goal _ _).map _).nodup_iff]
    exact List.nodup_singleton _
  · rw [hbest, if_pos rfl]
  · intro x
    rw [hbest]
    split
    · next hx => exact .inr ⟨.start start, .start, hx.symm, rfl⟩
    · exact .inl rfl
  · intro x hx
    rw [hbest] at hx
    split at hx
    · next hstart =>
      refine .inl ⟨_, mem_openNode.mpr (.inl rfl), hstart.symm, ?_⟩
      rw [hbest, if_pos hstart]
      rfl
    · exact absurd hx (Nat.lt_irrefl _)

/-- What follows when a node has been taken keeps the invariant. -/
theorem proceed (hs : Explored q start s) (ht : s.Takes e t)
    (hgoal : e.item.state.meets q.goal = false) :
    Explored q start (Search.proceed q e.item t) := by
  have hopened := (hs.entry e ht.mem).opened
  have hexpanding := Expanding.of_takes hs ht
  unfold Search.proceed
  split
  · next hdeep =>
    refine ⟨hexpanding.toSound, fun x => ?_⟩
    by_cases hx : x = e.item.state
    · subst hx
      refine fun _ => .inr (.inr ⟨hgoal, e.item, hopened, rfl, hexpanding.current.symm, ?_⟩)
      exact Nat.le_antisymm hopened.depth_le hdeep
    · exact hexpanding.accounted x hx
  · next hshallow => exact hexpanding.expand hopened hgoal (Nat.lt_of_not_le hshallow)

/-- **Along an executable sequence** the recorded costs are low enough, up to a state on the way
that is still open or was cut off: a state that was followed up passes its cost on to the next. -/
theorem way_cases {p : Planner} {goal : WorldState} {cap : Nat}
    (hs : Explored (p.problem goal cap) start s) {names : List String}
    (hx : p.after? start names = some x) (hcost : p.costOf names < costLimit) :
    s.bestCost x ≤ p.costOf names ∨
      ∃ first rest y, names = first ++ rest ∧ rest ≠ [] ∧ p.after? start first = some y ∧
        s.bestCost y ≤ p.costOf first ∧ (IsOpen s y ∨ CutOff (p.problem goal cap) start s y) := by
  induction names using List.reverseRecOn generalizing x with
  | nil =>
      rw [Planner.after?_nil, Option.some.injEq] at hx
      exact .inl (hx ▸ Nat.le_of_eq hs.free)
  | append_singleton names name ih =>
      rw [Planner.after?_concat, Option.bind_eq_some_iff] at hx
      obtain ⟨y, hy, hlast⟩ := hx
      rw [Planner.costOf_concat] at hcost ⊢
      obtain hbest | ⟨first, rest, z, hsplit, hrest, hz⟩ := ih hy (by omega)
      · obtain ⟨a, ha, hpre, rfl⟩ := Planner.step?_eq_some_iff.mp hlast
        have hprice : p.costAt name = a.cost.toNat := by rw [Planner.costAt, ha]; rfl
        obtain hopen | ⟨-, hfollowed⟩ | hcut := hs.accounted y (by omega)
        · exact .inr ⟨names, [name], y, rfl, by simp, hy, hbest, .inl hopen⟩
        · left
          have hstep := hfollowed a (Planner.action?_eq_some ha).1 hpre
          have hsum := addCost_le_add (s.bestCost y) a.cost.toNat
          omega
        · exact .inr ⟨names, [name], y, rfl, by simp, hy, hbest, .inr hcut⟩
      · exact .inr ⟨first, rest ++ [name], z, by rw [hsplit, List.append_assoc], by simp, hz⟩

end Explored

/-- The invariant holds where a whole search ends. -/
theorem solve_cases (q : SearchProblem) (start : WorldState) (budget : Nat) :
    match q.solve start budget with
    | .found n => n.Opened q start ∧ n.state.meets q.goal = true
    | .exhausted => ∃ s, Explored q start s ∧ ∀ x, ¬ IsOpen s x
    | .overBudget => True := by
  have h := run_cases (p := q) (I := fun _ s => Explored q start s) (fun _ _ hs => hs.ordered)
    (fun _ _ _ _ hs ht hgoal => hs.proceed ht hgoal) budget (Search.init q start)
    (Explored.init q start)
  rw [SearchProblem.solve]
  cases hend : run q budget (Search.init q start) with
  | found n =>
      rw [hend] at h
      obtain ⟨-, s, e, t, hs, ht, rfl, hgoal⟩ := h
      exact ⟨(hs.entry e ht.mem).opened, hgoal⟩
  | exhausted =>
      rw [hend] at h
      obtain ⟨-, s, hs, hnone⟩ := h
      refine ⟨s, hs, fun x ⟨e, he, hx, hcost⟩ => ?_⟩
      exact not_current_of_next? hnone e he (hx ▸ hcost)
  | overBudget => trivial

end Search

/-! ## planning queries -/

namespace Planner

/-- A query that has nothing to do is answered at once. -/
theorem planWithCap_of_meets (p : Planner) {start goal : WorldState} (cap : Nat)
    (hgoal : start.meets goal = true) : p.planWithCap start goal cap = .atGoal cap :=
  if_pos hgoal

/-- So is a query that has no room for an action. -/
theorem planWithCap_zero (p : Planner) {start goal : WorldState}
    (hgoal : start.meets goal = false) : p.planWithCap start goal 0 = .notFound 0 := by
  rw [planWithCap, if_neg (Bool.eq_false_iff.mp hgoal), if_pos rfl]

/-- A query that has something to do is answered by a search. -/
theorem planWithCap_eq (p : Planner) {start goal : WorldState} {cap : Nat}
    (hgoal : start.meets goal = false) (hcap : cap ≠ 0) :
    p.planWithCap start goal cap =
      match (p.problem goal cap).solve start p.config.maxExpansions.toNat with
      | .found n => n.toPlan cap
      | .exhausted | .overBudget => .notFound cap := by
  rw [planWithCap, if_neg (by simp [hgoal]), if_neg hcap]
  rfl

/-- How a query can be answered: there is nothing to do, a node that meets the goal was found, or
there is no answer. -/
theorem planWithCap_cases (p : Planner) (start goal : WorldState) (cap : Nat) :
    (start.meets goal = true ∧ p.planWithCap start goal cap = .atGoal cap) ∨
      (start.meets goal = false ∧
        ((∃ n : SearchNode, n.Opened (p.problem goal cap) start ∧ n.state.meets goal = true ∧
          p.planWithCap start goal cap = n.toPlan cap) ∨
        p.planWithCap start goal cap = .notFound cap)) := by
  cases hgoal : start.meets goal with
  | true => exact .inl ⟨rfl, if_pos hgoal⟩
  | false =>
      refine .inr ⟨rfl, ?_⟩
      by_cases hcap : cap = 0
      · right
        rw [planWithCap, if_neg (by simp [hgoal]), if_pos hcap]
      · have hsolve := Search.solve_cases (p.problem goal cap) start p.config.maxExpansions.toNat
        rw [p.planWithCap_eq hgoal hcap]
        cases hend : (p.problem goal cap).solve start p.config.maxExpansions.toNat with
        | found n =>
            rw [hend] at hsolve
            exact .inl ⟨n, hsolve.1, hsolve.2, rfl⟩
        | exhausted => exact .inr rfl
        | overBudget => exact .inr rfl

end Planner

end PlanningAgents
