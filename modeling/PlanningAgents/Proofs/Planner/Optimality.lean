import PlanningAgents.Proofs.Planner.Soundness

/-!
# PlanningAgents.Proofs.Planner.Optimality

Where every action costs at least the goal atoms that it can gain, the distance to the goal never
promises too much (`Planner.distanceTo_le_costOf`), and the search takes up every state at its least
cost.  So each state is taken up once, a budget and a cap of as many as there are reachable states
are never felt, and the plan that is found is a cheapest one.

The argument rests on one fact about the frontier: on every way to the goal some open entry promises
no more than the whole way costs (`Search.Explored.exists_current`).

Main statements:

* `Search.Explored.cost_le_of_takes` — a state is taken up at its least cost;
* `Search.Progress.proceed` — each entry taken is one more state that is done with;
* `Planner.planWithCap_cheapest` — the plan is a cheapest one, if there is any.
-/

namespace PlanningAgents

namespace Planner

/-- Every action costs at least the goal atoms that it can gain. -/
def Consistent (p : Planner) (goal : WorldState) : Prop :=
  ∀ a ∈ p.actions, a.post.shared goal ≤ a.cost.toNat

/-- Where no action gains more than it costs, a way costs at least what it gains. -/
theorem distanceTo_le_of_gains {p : Planner} {goal : WorldState}
    (hpaid : ∀ a ∈ p.actions, ∀ s : WorldState, s.meets a.pre = true →
      s.distanceTo goal ≤ (s.apply a.post).distanceTo goal + a.cost.toNat)
    {s t : WorldState} {names : List String} (h : p.after? s names = some t) :
    s.distanceTo goal ≤ p.costOf names + t.distanceTo goal := by
  induction names using List.reverseRecOn generalizing t with
  | nil =>
      rw [after?_nil, Option.some.injEq] at h
      rw [h]
      omega
  | append_singleton names name ih =>
      rw [after?_concat, Option.bind_eq_some_iff] at h
      obtain ⟨y, hy, hlast⟩ := h
      obtain ⟨a, ha, hpre, rfl⟩ := step?_eq_some_iff.mp hlast
      have hfirst := ih hy
      have hgain := hpaid a (action?_eq_some ha).1 y hpre
      have hprice : p.costAt name = a.cost.toNat := by rw [costAt, ha]; rfl
      rw [costOf_concat, hprice]
      omega

/-- **The distance never promises too much**: what actions gain, they cost. -/
theorem distanceTo_le_costOf {p : Planner} {goal : WorldState} (hp : p.Consistent goal)
    {s t : WorldState} {names : List String} (h : p.after? s names = some t) :
    s.distanceTo goal ≤ p.costOf names + t.distanceTo goal := by
  refine distanceTo_le_of_gains (fun a ha y _ => ?_) h
  have hgain := y.distanceTo_le_apply a.post goal
  have hpaid := hp a ha
  omega

end Planner

/-- A way that meets no state twice is shorter than the reachable states are many. -/
theorem SearchNode.Opened.depth_lt {p : Planner} (hp : p.Built) {start goal : WorldState}
    {cap : Nat} {n : SearchNode} (hn : n.Opened (p.problem goal cap) start) :
    n.depth < (p.reachable start).ncard := by
  rw [← hn.length_names]
  exact (hn.executes hp).length_lt_ncard hn.nodup

namespace Search

variable {p : Planner} {start goal : WorldState} {cap : Nat} {s t : Search} {e : Entry SearchNode}
  {x : WorldState} {names : List String}

/-! ## what the frontier promises -/

namespace Explored

/-- On the way to a state that is not known as cheaply there is an open entry that promises no more
than the way costs, and the distance that is left. -/
theorem exists_current (hs : Explored (p.problem goal cap) start s) (hp : p.Built)
    (hpaid : p.Consistent goal) (hcap : (p.reachable start).ncard ≤ cap)
    (hx : p.after? start names = some x) (hcost : p.costOf names < costLimit) :
    s.bestCost x ≤ p.costOf names ∨ ∃ e ∈ s.frontier.toList,
      e.item.cost = s.bestCost e.item.state ∧ e.total ≤ p.costOf names + x.distanceTo goal := by
  obtain hknown | ⟨first, rest, y, rfl, -, hy, hbest, ⟨e, he, rfl, hcurrent⟩ | hcut⟩ :=
    hs.way_cases hx hcost
  · exact .inl hknown
  · right
    have hrest : p.after? e.item.state rest = some x := by
      rw [Planner.after?_append, hy] at hx
      exact hx
    have hpromise := Planner.distanceTo_le_costOf hpaid hrest
    have htotal := (hs.entry e he).total
    have hsum := addCost_le_add e.item.cost (e.item.state.distanceTo goal)
    refine ⟨e, he, hcurrent, ?_⟩
    rw [Planner.costOf_append, htotal]
    exact Nat.le_trans hsum (by omega)
  · obtain ⟨-, n, hn, -, -, hdepth⟩ := hcut
    have hlt := hn.depth_lt hp
    have hdeep : n.depth = cap := hdepth
    omega

/-- While a goal can be reached, some open entry promises no more than the way there costs. -/
theorem exists_current_of_reaches (hs : Explored (p.problem goal cap) start s) (hp : p.Built)
    (hpaid : p.Consistent goal) (hcap : (p.reachable start).ncard ≤ cap)
    (hx : p.Reaches start goal names) (hcost : p.costOf names < costLimit) :
    ∃ e ∈ s.frontier.toList,
      e.item.cost = s.bestCost e.item.state ∧ e.total ≤ p.costOf names := by
  obtain ⟨x, hafter, hgoal⟩ := hx
  have hzero := (x.distanceTo_eq_zero_iff goal).mpr hgoal
  obtain hknown | ⟨e, he, hcurrent, htotal⟩ := hs.exists_current hp hpaid hcap hafter hcost
  · -- a state that meets the goal is neither followed up nor cut off
    obtain ⟨e, he, rfl, hopen⟩ | ⟨hnot, -⟩ | ⟨hnot, -⟩ := hs.accounted x (by omega)
    · refine ⟨e, he, hopen, ?_⟩
      have hsum := addCost_le_add e.item.cost (e.item.state.distanceTo goal)
      have htotal := (hs.entry e he).total
      rw [htotal]
      exact Nat.le_trans hsum (by omega)
    · exact absurd (hgoal.symm.trans hnot) (by decide)
    · exact absurd (hgoal.symm.trans hnot) (by decide)
  · exact ⟨e, he, hcurrent, by omega⟩

/-- **A state is taken up at its least cost.** -/
theorem cost_le_of_takes (hs : Explored (p.problem goal cap) start s) (hp : p.Built)
    (hpaid : p.Consistent goal) (hcap : (p.reachable start).ncard ≤ cap) (ht : s.Takes e t)
    (htotal : e.total < costLimit) (hx : p.after? start names = some e.item.state) :
    e.item.cost ≤ p.costOf names := by
  by_cases hcost : p.costOf names < costLimit
  · obtain hknown | ⟨e', he', hcurrent, htotal'⟩ := hs.exists_current hp hpaid hcap hx hcost
    · exact ht.current ▸ hknown
    · have hfirst := ht.total_le he' hcurrent
      have hestimate := (hs.entry e ht.mem).total
      have hsum := addCost_eq_of_lt (hestimate ▸ htotal)
      have hexact : e.total = e.item.cost + e.item.state.distanceTo goal := hestimate.trans hsum
      omega
  · have hlt := (hs.entry e ht.mem).opened.cost_lt
    omega

end Explored

/-! ## states that are done with -/

/-- A state is done with: it is not open any more, and no way to it is cheaper than the one that is
known. -/
def Done (p : Planner) (start : WorldState) (s : Search) (x : WorldState) : Prop :=
  s.bestCost x < costLimit ∧ ¬ IsOpen s x ∧
    ∀ names, p.after? start names = some x → s.bestCost x ≤ p.costOf names

/-- What is done with can be reached. -/
theorem Done.mem_reachable (hx : Done p start s x) (hp : p.Built)
    (hs : Sound (p.problem goal cap) start s) : x ∈ p.reachable start := by
  obtain hlimit | ⟨n, hn, rfl, -⟩ := hs.recorded x
  · exact absurd hlimit (Nat.ne_of_lt hx.1)
  · exact ⟨n.names, hn.after?_names hp⟩

/-- What is done with is not opened again, since that would take a cheaper way. -/
theorem Done.openNode (hx : Done p start s x) {n : SearchNode} {way : List String}
    (hn : p.after? start way = some n.state) (hcost : n.cost = p.costOf way)
    (hlt : n.cost < s.bestCost n.state) : Done p start (s.openNode goal n) x := by
  obtain ⟨hlimit, hclosed, hleast⟩ := hx
  have hne : x ≠ n.state := by
    rintro rfl
    have hcheapest := hleast way hn
    omega
  have hbest : (s.openNode goal n).bestCost x = s.bestCost x := by
    rw [bestCost_openNode, if_neg hne]
  refine ⟨hbest ▸ hlimit, fun ⟨e, he, hstate, hcurrent⟩ => ?_, hbest ▸ hleast⟩
  obtain rfl | he := mem_openNode.mp he
  · exact hne hstate.symm
  · exact hclosed ⟨e, he, hstate, hbest ▸ hcurrent⟩

/-- What is done with stays done with when an entry is taken. -/
theorem Done.takes (hx : Done p start s x) (ht : s.Takes e t) : Done p start t x := by
  obtain ⟨hlimit, hclosed, hleast⟩ := hx
  have hbest := ht.bestCost_eq x
  refine ⟨hbest ▸ hlimit, fun ⟨e', he', hstate, hcurrent⟩ => ?_, hbest ▸ hleast⟩
  exact hclosed ⟨e', ht.mem_of_mem he', hstate, hbest ▸ hcurrent⟩

/-- The invariant of a search whose budget is large enough: what is left of the budget, together
with the states that are done with, covers every reachable state. -/
structure Progress (p : Planner) (start goal : WorldState) (cap budget : Nat) (s : Search) : Prop
    extends Explored (p.problem goal cap) start s where
  done : ∃ S : Finset WorldState, (∀ x ∈ S, Done p start s x) ∧
    (p.reachable start).ncard ≤ budget + S.card

namespace Progress

variable {budget : Nat}

/-- The state that is taken up was not done with before, and is now. -/
theorem done_of_takes (hs : Explored (p.problem goal cap) start s) (hp : p.Built)
    (hpaid : p.Consistent goal) (hcap : (p.reachable start).ncard ≤ cap) (ht : s.Takes e t)
    (htotal : e.total < costLimit) :
    ¬ Done p start s e.item.state ∧ Done p start t e.item.state := by
  refine ⟨fun h => h.2.1 ⟨e, ht.mem, rfl, ht.current⟩, ?_, ?_, ?_⟩
  · rw [ht.bestCost_eq, ← ht.current]
    exact (hs.entry e ht.mem).opened.cost_lt
  · rintro ⟨e', he', hstate, hcurrent⟩
    apply hs.toSound.ne_of_mem_takes ht he' hstate
    rw [hcurrent, ht.bestCost_eq, ht.current]
  · intro names hnames
    rw [ht.bestCost_eq, ← ht.current]
    exact hs.cost_le_of_takes hp hpaid hcap ht htotal hnames

/-- Expanding a node leaves every state done with that was so before. -/
theorem done_expand (ht : Expanding (p.problem goal cap) start e.item t) (hp : p.Built)
    (hn : e.item.Opened (p.problem goal cap) start) (hgoal : e.item.state.meets goal = false)
    (hdepth : e.item.depth < cap) (hx : Done p start t x) :
    Done p start (t.expand (p.problem goal cap) e.item) x := by
  refine (expand_induction (R := fun s => Expanding (p.problem goal cap) start e.item s ∧
    Done p start s x) ⟨ht, hx⟩ ?_).2
  rintro s a ⟨hs, hx⟩ ha hpre hstate hlt
  have hnext := hs.toSound.opened_extend hn hs.line ha hpre hgoal hdepth hlt
  exact ⟨hs.openNode hn ha hpre hgoal hdepth hstate hlt,
    hx.openNode (hnext.after?_names hp) (hnext.cost_eq hp) hlt⟩

/-- **Each entry taken is one more state that is done with.** -/
theorem proceed (hs : Progress p start goal cap (budget + 1) s) (hp : p.Built)
    (hpaid : p.Consistent goal) (hcap : (p.reachable start).ncard ≤ cap) (ht : s.Takes e t)
    (htotal : e.total < costLimit) (hgoal : e.item.state.meets goal = false) :
    Progress p start goal cap budget (Search.proceed (p.problem goal cap) e.item t) := by
  refine ⟨hs.toExplored.proceed ht hgoal, ?_⟩
  obtain ⟨S, hdone, hcard⟩ := hs.done
  obtain ⟨hnew, htaken⟩ := done_of_takes hs.toExplored hp hpaid hcap ht htotal
  have hopened := (hs.entry e ht.mem).opened
  have hdepth : e.item.depth < cap := Nat.lt_of_lt_of_le (hopened.depth_lt hp) hcap
  refine ⟨insert e.item.state S, fun x hx => ?_, ?_⟩
  · have hshallow : ¬ (p.problem goal cap).cap ≤ e.item.depth := Nat.not_le_of_lt hdepth
    rw [Search.proceed, if_neg hshallow]
    apply done_expand (.of_takes hs.toExplored ht) hp hopened hgoal hdepth
    obtain rfl | hx := Finset.mem_insert.mp hx
    · exact htaken
    · exact (hdone x hx).takes ht
  · rw [Finset.card_insert_of_notMem fun hmem => hnew (hdone _ hmem)]
    omega

/-- With no budget left nothing can be taken: every reachable state is done with. -/
theorem not_takes (hs : Progress p start goal cap 0 s) (hp : p.Built) : ¬ s.Takes e t := by
  intro ht
  obtain ⟨S, hdone, hcard⟩ := hs.done
  have hopen : IsOpen s e.item.state := ⟨e, ht.mem, rfl, ht.current⟩
  have hnew : e.item.state ∉ S := fun hmem => (hdone _ hmem).2.1 hopen
  have hsub : ((insert e.item.state S : Finset WorldState) : Set WorldState) ⊆
      p.reachable start := by
    intro x hx
    obtain rfl | hx := Finset.mem_insert.mp hx
    · exact ⟨e.item.names, (hs.entry e ht.mem).opened.after?_names hp⟩
    · exact (hdone x hx).mem_reachable hp hs.toSound
  have hmany := Set.ncard_le_ncard hsub (Set.toFinite _)
  rw [Set.ncard_coe_finset, Finset.card_insert_of_notMem hnew] at hmany
  omega

end Progress

/-- **The search for a goal that can be reached ends at the goal**, with no more cost than any way
there has. -/
theorem solve_of_reaches (hp : p.Built) (hpaid : p.Consistent goal)
    (hcap : (p.reachable start).ncard ≤ cap) {budget : Nat}
    (hbudget : (p.reachable start).ncard ≤ budget) (hx : p.Reaches start goal names)
    (hcost : p.costOf names < costLimit) :
    ∃ n : SearchNode, (p.problem goal cap).solve start budget = .found n ∧
      n.cost ≤ p.costOf names := by
  have hbound {s t : Search} {e : Entry SearchNode}
      (hs : Explored (p.problem goal cap) start s) (ht : s.Takes e t) :
      e.total ≤ p.costOf names := by
    obtain ⟨e', he', hcurrent, htotal⟩ := hs.exists_current_of_reaches hp hpaid hcap hx hcost
    exact Nat.le_trans (ht.total_le he' hcurrent) htotal
  have hrun := run_cases (p := p.problem goal cap) (I := Progress p start goal cap)
    (fun _ _ hs => hs.ordered)
    (fun _ _ _ _ hs ht hgoal =>
      hs.proceed hp hpaid hcap ht (Nat.lt_of_le_of_lt (hbound hs.toExplored ht) hcost) hgoal)
    budget (Search.init (p.problem goal cap) start)
    ⟨Explored.init _ start, ∅, by simp, by simpa using hbudget⟩
  rw [SearchProblem.solve]
  cases hend : run (p.problem goal cap) budget (Search.init (p.problem goal cap) start) with
  | found n =>
      rw [hend] at hrun
      obtain ⟨b, s, e, t, hs, ht, rfl, -⟩ := hrun
      refine ⟨e.item, rfl, ?_⟩
      have hestimate := (hs.entry e ht.mem).total
      have htotal := hbound hs.toExplored ht
      have hsum := addCost_eq_of_lt (hestimate ▸ Nat.lt_of_le_of_lt htotal hcost)
      omega
  | exhausted =>
      rw [hend] at hrun
      obtain ⟨b, s, hs, hnone⟩ := hrun
      obtain ⟨e, he, hcurrent, -⟩ :=
        hs.toExplored.exists_current_of_reaches hp hpaid hcap hx hcost
      exact absurd hcurrent (not_current_of_next? hnone e he)
  | overBudget =>
      rw [hend] at hrun
      obtain ⟨s, e, t, hs, ht⟩ := hrun
      exact absurd ht (hs.not_takes hp)

end Search

/-! ## cheapest plans -/

/-- A plan leads to the goal, costs what its actions cost together, and no executable sequence that
leads there costs less. -/
structure Plan.Cheapest (plan : Plan) (p : Planner) (start goal : WorldState) : Prop where
  reaches : p.Reaches start goal plan.actions
  cost_eq : plan.cost = p.costOf plan.actions
  least : ∀ names, p.Reaches start goal names → p.costOf plan.actions ≤ p.costOf names

namespace Planner

/-- **Plans are cheapest.** Where every action costs at least the goal atoms that it can gain, and
neither cap nor budget is smaller than the number of reachable states, the plan is a cheapest way to
the goal if the range of costs holds one, and there is no plan if there is no way at all. -/
theorem planWithCap_cheapest {p : Planner} (hp : p.Built) {start goal : WorldState} {cap : Nat}
    (hpaid : ∀ a ∈ p.actions, a.post.shared goal ≤ a.cost.toNat)
    (hcap : (p.reachable start).ncard ≤ cap)
    (hbudget : (p.reachable start).ncard ≤ p.config.maxExpansions.toNat) :
    ((∃ names, p.Reaches start goal names ∧ p.costOf names ≤ maxPlanCost) →
      (p.planWithCap start goal cap).Cheapest p start goal) ∧
    ((∀ names, ¬ p.Reaches start goal names) → (p.planWithCap start goal cap).cost = -1) := by
  refine ⟨fun ⟨names, hreaches, hcost⟩ => ?_, fun hnone => ?_⟩
  · cases hgoal : start.meets goal with
    | true =>
        rw [planWithCap, if_pos hgoal]
        exact ⟨⟨start, rfl, hgoal⟩, rfl, fun _ _ => Nat.zero_le _⟩
    | false =>
        have hcap0 : cap ≠ 0 := by
          have hpos := Set.ncard_pos (Set.toFinite _) |>.mpr ⟨start, p.start_mem_reachable start⟩
          omega
        have hrange : maxPlanCost < costLimit := by decide
        obtain ⟨n, hfound, hn⟩ :=
          Search.solve_of_reaches hp hpaid hcap hbudget hreaches (by omega)
        have hsolve := Search.solve_cases (p.problem goal cap) start p.config.maxExpansions.toNat
        rw [hfound] at hsolve
        have hsolves := hsolve.1.solves hp hsolve.2
        have hprice := hsolve.1.cost_eq hp
        rw [p.planWithCap_eq hgoal hcap0, hfound]
        refine ⟨hsolves.reaches, ?_, fun others hothers => ?_⟩
        · show min (n.cost : Int) maxPlanCost = (p.costOf n.names : Int)
          omega
        · show p.costOf n.names ≤ p.costOf others
          by_cases hlt : p.costOf others < costLimit
          · obtain ⟨m, hsame, hm⟩ := Search.solve_of_reaches hp hpaid hcap hbudget hothers hlt
            obtain rfl : n = m := SearchEnd.found.inj (hfound.symm.trans hsame)
            omega
          · omega
  · obtain hcost | hcost := p.cost_planWithCap start goal cap
    · exact hcost
    · exact absurd (solves_of_cost_nonneg hp hcost).reaches (hnone _)

/-- With room for five actions and no more the raft is the cheapest way home. -/
theorem planWithCap_cheapest_river :
    river.Built ∧ (∀ a ∈ river.actions, a.post.shared atHome ≤ a.cost.toNat) ∧
      (river.reachable nearBank).ncard ≤ 5 ∧
      (river.reachable nearBank).ncard ≤ river.config.maxExpansions.toNat ∧
      river.Reaches nearBank atHome ["swim", "walk_home"] ∧
      (river.planWithCap nearBank atHome 5).Cheapest river nearBank atHome := by
  have hpaid : ∀ a ∈ river.actions, a.post.shared atHome ≤ a.cost.toNat := by decide +kernel
  have hfive : 5 ≤ river.config.maxExpansions.toNat := by decide +kernel
  have hbudget := Nat.le_trans ncard_reachable_river hfive
  have hplan := (planWithCap_cheapest built_river hpaid ncard_reachable_river hbudget).1
    ⟨_, reaches_swim, by decide +kernel⟩
  exact ⟨built_river, hpaid, ncard_reachable_river, hbudget, reaches_swim, hplan⟩

end Planner

end PlanningAgents
