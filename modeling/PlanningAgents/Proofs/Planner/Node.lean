import PlanningAgents.Proofs.Planner.Execution

/-!
# PlanningAgents.Proofs.Planner.Node

The nodes that a search opens.  Each is the start, or follows an action from an opened node where
that action applies, and then under the conditions that the search checks first
(`SearchNode.Opened`).  Everything a plan has to be is read off from these conditions, by induction
on the node: the actions are executable and lead through the recorded states, their costs add up to
the cost of the node, no state is met twice, and none before the last one meets the goal.

Main statements:

* `SearchNode.Opened.executes` — the actions are executable, and lead through the states;
* `SearchNode.Opened.cost_eq` — a node costs what its actions cost together;
* `SearchNode.Opened.nodup`, `SearchNode.Opened.length_names_le` — no state is met twice, and the
  way is no longer than the cap.
-/

namespace PlanningAgents

/-- The search for a way from one state to another. -/
def Planner.problem (p : Planner) (goal : WorldState) (cap : Nat) : SearchProblem :=
  { actions := p.actions, goal, cap }

/-! ## adding costs -/

/-- A sum below the limit is the sum. -/
theorem addCost_eq_of_lt {a b : Nat} (h : addCost a b < costLimit) : addCost a b = a + b := by
  grind [addCost]

theorem addCost_le_add (a b : Nat) : addCost a b ≤ a + b := Nat.min_le_right _ _

/-- Costs only grow, as far as the limit. -/
theorem le_addCost {a b : Nat} (h : a ≤ costLimit) : a ≤ addCost a b := by
  grind [addCost]

namespace SearchNode

/-! ## the way to a node -/

/-- A node with the nodes that its way leads through, the last one first. -/
def line : SearchNode → List SearchNode
  | .start s => [.start s]
  | .step parent a s c d => .step parent a s c d :: parent.line

/-- The names of the actions on the way. -/
def names (n : SearchNode) : List String := (n.trail.map (·.1.name)).reverse

/-- The states behind the start, in the order of the way. -/
def states (n : SearchNode) : List WorldState := (n.trail.map (·.2)).reverse

@[simp] theorem state_extend (n : SearchNode) (a : PlannerAction) :
    (n.extend a).state = n.state.apply a.post := rfl

@[simp] theorem cost_extend (n : SearchNode) (a : PlannerAction) :
    (n.extend a).cost = addCost n.cost a.cost.toNat := rfl

@[simp] theorem depth_extend (n : SearchNode) (a : PlannerAction) :
    (n.extend a).depth = n.depth + 1 := rfl

@[simp] theorem line_extend (n : SearchNode) (a : PlannerAction) :
    (n.extend a).line = n.extend a :: n.line := rfl

@[simp] theorem names_extend (n : SearchNode) (a : PlannerAction) :
    (n.extend a).names = n.names ++ [a.name] := by
  simp [names, extend, trail]

@[simp] theorem states_extend (n : SearchNode) (a : PlannerAction) :
    (n.extend a).states = n.states ++ [n.state.apply a.post] := by
  simp [states, extend, trail]

theorem self_mem_line (n : SearchNode) : n ∈ n.line := by
  cases n <;> simp [line]

/-! ## opened nodes -/

/-- The nodes that a search can open.  A node is extended when it does not meet the goal and the
cap leaves room, and only to states that its way has not met. -/
inductive Opened (p : SearchProblem) (start : WorldState) : SearchNode → Prop
  | start : Opened p start (.start start)
  | extend {n : SearchNode} {a : PlannerAction} (hn : Opened p start n) (ha : a ∈ p.actions)
      (hpre : n.state.meets a.pre = true) (hgoal : n.state.meets p.goal = false)
      (hdepth : n.depth < p.cap) (hnew : ∀ m ∈ n.line, m.state ≠ (n.extend a).state)
      (hcost : (n.extend a).cost < costLimit) : Opened p start (n.extend a)

namespace Opened

variable {q : SearchProblem} {p : Planner} {start goal : WorldState} {cap : Nat} {n : SearchNode}

theorem cost_lt (h : Opened q start n) : n.cost < costLimit := by
  cases h with
  | start => exact (by decide : 0 < costLimit)
  | extend _ _ _ _ _ _ hcost => exact hcost

theorem depth_le (h : Opened q start n) : n.depth ≤ q.cap := by
  cases h with
  | start => exact Nat.zero_le _
  | extend _ _ _ _ hdepth _ _ => exact hdepth

theorem length_names (h : Opened q start n) : n.names.length = n.depth := by
  induction h with
  | start => rfl
  | extend _ _ _ _ _ _ _ ih => simp [ih]

theorem length_states (h : Opened q start n) : n.states.length = n.depth := by
  induction h with
  | start => rfl
  | extend _ _ _ _ _ _ _ ih => simp [ih]

/-- The way is no longer than the cap. -/
theorem length_names_le (h : Opened q start n) : n.names.length ≤ q.cap :=
  h.length_names ▸ h.depth_le

/-- The nodes of a way stand for its states. -/
theorem map_state_line (h : Opened q start n) :
    n.line.map state = (start :: n.states).reverse := by
  induction h with
  | start => rfl
  | extend _ _ _ _ _ _ _ ih => simp [ih]

/-- No state is met twice. -/
theorem nodup (h : Opened q start n) : (start :: n.states).Nodup := by
  induction h with
  | start => exact List.nodup_singleton _
  | @extend n a hn _ _ _ _ hnew _ ih =>
      rw [states_extend, ← List.cons_append]
      refine List.Nodup.append ih (List.nodup_singleton _) ?_
      rw [List.disjoint_singleton]
      intro hmem
      have hline : n.state.apply a.post ∈ n.line.map state := by
        rw [hn.map_state_line]
        exact List.mem_reverse.mpr hmem
      obtain ⟨m, hm, hstate⟩ := List.mem_map.mp hline
      exact hnew m hm hstate

/-- A way ends at the state of its node. -/
theorem getLastD_states (h : Opened q start n) : n.states.getLastD start = n.state := by
  cases h with
  | start => rfl
  | extend => rw [states_extend, List.getLastD_concat, state_extend]

/-- The states of a way are those before its end, and its end. -/
theorem mem_states (h : Opened q start n) {s : WorldState} (hs : s ∈ start :: n.states) :
    s ∈ (start :: n.states).dropLast ∨ s = n.state := by
  have hsplit : start :: n.states = (start :: n.states).dropLast ++ [n.state] := by
    apply (List.dropLast_append_getLast? n.state _).symm
    rw [List.getLast?_cons, ← List.getLastD_eq_getLast?, h.getLastD_states]
    rfl
  rw [hsplit, List.mem_append, List.mem_singleton] at hs
  exact hs

/-- No state before the last one meets the goal. -/
theorem not_meets_of_mem_dropLast (h : Opened q start n) :
    ∀ s ∈ (start :: n.states).dropLast, s.meets q.goal = false := by
  induction h with
  | start => simp [states, trail]
  | @extend n a hn _ _ hgoal _ _ _ ih =>
      intro s hs
      rw [states_extend, ← List.cons_append, List.dropLast_concat] at hs
      obtain hs | rfl := hn.mem_states hs
      · exact ih s hs
      · exact hgoal

/-- On a way that ends short of the goal no state meets it. -/
theorem not_meets (h : Opened q start n) (hgoal : n.state.meets q.goal = false) :
    ∀ s ∈ start :: n.states, s.meets q.goal = false := by
  intro s hs
  obtain hs | rfl := h.mem_states hs
  · exact h.not_meets_of_mem_dropLast s hs
  · exact hgoal

/-- The nodes on a way cost no more than its end. -/
theorem cost_le_of_mem_line (h : Opened q start n) : ∀ m ∈ n.line, m.cost ≤ n.cost := by
  induction h with
  | start => simp [line]
  | @extend n a hn _ _ _ _ _ _ ih =>
      intro m hm
      obtain rfl | hm := List.mem_cons.mp hm
      · exact Nat.le_refl _
      · exact Nat.le_trans (ih m hm) (le_addCost (Nat.le_of_lt hn.cost_lt))

/-- A node costs what its actions cost together. -/
theorem cost_eq (hp : p.Built) (h : Opened (p.problem goal cap) start n) :
    n.cost = p.costOf n.names := by
  induction h with
  | start => rfl
  | extend _ ha _ _ _ _ hcost ih =>
      rw [names_extend, Planner.costOf_concat, hp.costAt_name ha, ← ih]
      exact addCost_eq_of_lt hcost

/-- The actions are executable, and lead through the states. -/
theorem executes (hp : p.Built) (h : Opened (p.problem goal cap) start n) :
    p.Executes start n.names n.states := by
  induction h with
  | start => exact .nil
  | extend hn ha hpre _ _ _ _ ih =>
      rw [names_extend, states_extend]
      apply ih.concat
      rw [hn.getLastD_states]
      exact hp.step?_name ha hpre

/-- The actions lead to the state of the node. -/
theorem after?_names (hp : p.Built) (h : Opened (p.problem goal cap) start n) :
    p.after? start n.names = some n.state := by
  rw [(h.executes hp).after?_eq, h.getLastD_states]

end Opened

end SearchNode

end PlanningAgents
