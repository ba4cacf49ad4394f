import PlanningAgents.Proofs.Agent.Order
import PlanningAgents.Proofs.Simulation.Run

/-!
# PlanningAgents.Proofs.Simulation.States

The states that a simulation holds.  Whatever is done to a stage, each of its agents has come about
by its own operations, all of its states are canonical and in the terms of its table, and the table
takes as many names as the settings say (`Agent.Held`).  A goal is encoded before a call brings it,
and so it is in these terms as well.

It follows that nothing is lost: every atom that a state specifies has a name by which it is read,
and what the states say by name they also say after the actions have been replaced.

Main statements:

* `Agent.Held` — what is true of every agent of a simulation;
* `Stage.Move.orderly`, `Stage.Reachable.orderly` — moves keep it true, and so it always is;
* `Stage.Reachable.states_named` — the states of all agents are canonical and named.
-/

namespace PlanningAgents

variable {W M : Type}

namespace Agent

/-- All states that an agent holds. -/
def states (a : Agent W M) : List WorldState :=
  [a.current, a.cached, a.planStart, a.goal] ++ a.plan.states ++ a.queue.map (·.post) ++
    a.planner.actions.flatMap fun x => [x.pre, x.post]

/-- **What is true of every agent** that a simulation with these settings holds. -/
structure Held (config : AgentConfig) (a : Agent W M) : Prop where
  reachable : a.Reachable
  orderly : a.Orderly
  cap : a.atoms.cap = config.atomCap

variable {a b : Agent W M} {config : AgentConfig}

/-- The table of an agent in order covers all of its states. -/
theorem Orderly.covers_states (h : a.Orderly) : ∀ s ∈ a.states, a.atoms.Covers s := by
  intro s hs
  simp only [states, List.mem_append, List.mem_cons, List.not_mem_nil, or_false, List.mem_map,
    List.mem_flatMap] at hs
  obtain (((rfl | rfl | rfl | rfl) | hplan) | ⟨r, hr, rfl⟩) | ⟨x, hx, rfl | rfl⟩ := hs
  · exact h.current
  · exact h.cached
  · exact h.planStart
  · exact h.goal
  · exact h.plan s hplan
  · exact h.queue r hr
  · exact (h.loaded.covers x hx).1
  · exact (h.loaded.covers x hx).2

/-! ## how many names there may be -/

/-- Actions that are loaded leave alone how many names there may be. -/
theorem cap_loadActions (h : a.atoms.Valid) (specs : List ActionSpec) :
    (a.loadActions specs).2.atoms.cap = a.atoms.cap := by
  rw [Agent.loadActions]
  split
  · rfl
  · next planner states hbuild =>
      obtain ⟨⟨p, -, -, hplanner, hp⟩, -⟩ := covers_of_buildPlanner hbuild
      calc planner.atoms.cap = p.atoms.cap := hplanner.cap
        _ = a.blankPlanner.atoms.cap := hp.cap
        _ = a.atoms.cap := Nat.min_eq_left h.cap_le

theorem cap_loadDefinition (h : a.atoms.Valid) : a.loadDefinition.2.atoms.cap = a.atoms.cap := by
  have hactions := a.cap_loadActions h a.definition.data.actions
  rw [Agent.loadDefinition]
  split
  · rfl
  · next spec _ =>
      split
      · next e b hload =>
          rw [hload] at hactions
          exact hactions
      · next b hload =>
          rw [hload] at hactions
          exact (b.extends_loadWorldState spec).1.cap.trans hactions

/-! ## what is done to agents -/

/-- An agent that is made is in order, whether or not its definition can be loaded. -/
theorem held_loadDefinition (config : AgentConfig) (entityType : String) (d : Definition W M) :
    (ofDefinition entityType d config).loadDefinition.2.Held config where
  reachable := (Reachable.ofDefinition entityType d config).loadDefinition
  orderly := (orderly_ofDefinition entityType d config).loadDefinition
  cap := by
    have hcap : (ofDefinition entityType d config).atoms.cap = config.atomCap :=
      Nat.min_eq_left (Nat.min_le_right _ _)
    rw [cap_loadDefinition (orderly_ofDefinition entityType d config).valid, hcap]

theorem Held.loadActions (h : a.Held config) (specs : List ActionSpec) :
    (a.loadActions specs).2.Held config where
  reachable := h.reachable.loadActions specs
  orderly := h.orderly.loadActions specs
  cap := (a.cap_loadActions h.orderly.valid specs).trans h.cap

theorem Held.write (h : a.Held config) (w : Write) : (a.write w).Held config where
  reachable := h.reachable.write w
  orderly := h.orderly.write w
  cap := (a.continues_write w).atoms.cap.trans h.cap

/-- A call leaves its agent in order, if a goal that it brings has been encoded. -/
theorem Held.after {t : Turn W M} (h : t.agent.Held config) (hbegin : t.seeded = false)
    {call : Call} (hgoal : ∀ goal merge, call = .replanTo goal merge →
      ∃ (u : AtomTable) (pairs : List (String × Bool)),
        u.encode pairs = (.ok goal, t.agent.atoms)) : (t.after call).agent.Held config where
  reachable := h.reachable.after hbegin call
  orderly := h.orderly.after h.reachable.atRest fun goal merge hcall => by
    obtain ⟨u, pairs, hencode⟩ := hgoal goal merge hcall
    have hvalid := (AtomTable.extends_of_encode hencode).valid_of_valid h.orderly.valid
    exact AtomTable.covers_of_encode hvalid hencode
  cap := (t.continues_after call).atoms.cap.trans h.cap

/-- **Actions that are replaced, or fail to be, change nothing** that the states say by name. -/
theorem toMap_loadActions (h : a.atoms.Valid) (specs : List ActionSpec) :
    (a.loadActions specs).2.atoms.toMap (a.loadActions specs).2.current =
        a.atoms.toMap a.current ∧
      (a.loadActions specs).2.atoms.toMap (a.loadActions specs).2.cached =
        a.atoms.toMap a.cached ∧
      (a.loadActions specs).2.atoms.toMap (a.loadActions specs).2.planStart =
        a.atoms.toMap a.planStart ∧
      (a.loadActions specs).2.atoms.toMap (a.loadActions specs).2.goal =
        a.atoms.toMap a.goal := by
  obtain ⟨-, -, hloads⟩ | ⟨-, -, hdirty⟩ := loadActions_cases h specs
  · exact ⟨hloads.current, hloads.cached, hloads.planStart, hloads.goal⟩
  · rw [hdirty]
    exact ⟨rfl, rfl, rfl, rfl⟩

end Agent

namespace Stage

variable {s s' : Stage W M} {e : EntityId} {a b : Agent W M}

/-! ## all agents of a stage -/

/-- All agents of a stage are in order. -/
def Orderly (s : Stage W M) : Prop :=
  ∀ (e : EntityId) (a : Agent W M), s.sim.agents[e]? = some a → a.Held s.sim.config.agent

/-- An agent in order may be put in any place. -/
theorem Orderly.settle (h : s.Orderly) (e : EntityId) {t : Turn W M}
    (ht : t.agent.Held s.sim.config.agent) : (s.settle e t).Orderly := by
  intro e' a ha
  have hinserted : (s.sim.agents.insert e t.agent)[e']? = some a := ha
  rw [SortedMap.getElem?_insert] at hinserted
  split at hinserted
  · exact Option.some.inj hinserted ▸ ht
  · exact h e' a hinserted

theorem Orderly.setAgent (h : s.Orderly) (e : EntityId) (ha : a.Held s.sim.config.agent) :
    (s.mapSim (·.setAgent e a)).Orderly := by
  have hsettled := h.settle e (t := s.turn e a {}) ha
  exact hsettled

/-- **Every move keeps all agents in order.** -/
theorem Move.orderly (hmove : Move s s') (h : s.Orderly) : s'.Orderly := by
  cases hmove with
  | keep hagents hconfig => exact fun e a ha => hconfig ▸ h e a (hagents e a ha)
  | make e entityType d => exact h.setAgent e (Agent.held_loadDefinition _ entityType d)
  | write ha w => exact h.setAgent _ ((h _ _ ha).write w)
  | load ha specs => exact h.setAgent _ ((h _ _ ha).loadActions specs)
  | @call e a ha tick call hgoal =>
      have hcalled := Agent.Held.after (t := s.turn e a tick) (h e a ha) rfl hgoal
      exact h.settle e hcalled

theorem Moves.orderly (hmoves : Moves s s') (h : s.Orderly) : s'.Orderly := by
  induction hmoves with
  | refl => exact h
  | tail _ hmove ih => exact hmove.orderly ih

/-- **On every stage all agents are in order**, whatever has been done to it. -/
theorem Reachable.orderly [World W] (h : s.Reachable) : s.Orderly := by
  induction h with
  | setUp config world => exact fun e a ha => nomatch ha
  | perform _ op ih => exact (moves_perform _ op).orderly ih

/-- Replacing actions loads them into the agent of the entity, and at most leaves a trace of it. -/
theorem exists_reloadActions {sim : Simulation W M} (ha : sim.agents[e]? = some a)
    (specs : List ActionSpec) :
    ∃ trace, (sim.reloadActions e specs).2.agents[e]? =
      some { (a.loadActions specs).2 with trace } := by
  simp only [Simulation.reloadActions, Simulation.onAgent, ha, Simulation.agents_setAgent]
  split
  · next b hload =>
      rw [hload]
      exact ⟨b.trace, rfl⟩
  · next err b hload =>
      rw [hload]
      exact ⟨_, rfl⟩

/-- **All states of all agents are canonical and named.**  Whatever has been done to a stage, the
table of each of its agents covers every state that the agent holds; so every atom that such a state
specifies has a name, by which it is read.  The names are distinct, and no more than the settings
allow; the actions are distinct as well, and no more than a planner may hold.  Replacing the
actions, whether or not it succeeds, changes nothing that the states of the agent say by name. -/
theorem Reachable.states_named [World W] (h : s.Reachable) (ha : s.sim.agents[e]? = some a) :
    (∀ u ∈ a.states, u.Canonical ∧ ∀ i < 64, ∀ value, u.value? i = some value →
      ∃ name, a.atoms.name? i = some name ∧ (name, value) ∈ a.atoms.read u ∧
        (a.atoms.toMap u)[name]? = some value) ∧
    a.atoms.names.Nodup ∧
    a.atoms.names.length ≤ min s.sim.config.agent.safeAtomCap.toNat 63 ∧
    a.planner.actions.length ≤ 64 ∧ (a.planner.actions.map (·.name)).Nodup ∧
    ∀ specs : List ActionSpec, ∃ b : Agent W M,
      (s.sim.reloadActions e specs).2.agents[e]? = some b ∧
      b.atoms.toMap b.current = a.atoms.toMap a.current ∧
      b.atoms.toMap b.cached = a.atoms.toMap a.cached ∧
      b.atoms.toMap b.planStart = a.atoms.toMap a.planStart ∧
      b.atoms.toMap b.goal = a.atoms.toMap a.goal := by
  have hheld := h.orderly e a ha
  have hvalid := hheld.orderly.valid
  refine ⟨fun u hu => ?_, hvalid.nodup, ?_, hheld.orderly.loaded.length_le,
    hheld.orderly.built.nodup_names, fun specs => ?_⟩
  · have hcovers := hheld.orderly.covers_states u hu
    exact ⟨hcovers.canonical, fun i hi value hvalue => hcovers.exists_name hvalid hi hvalue⟩
  · exact hvalid.length_le.trans_eq hheld.cap
  · obtain ⟨trace, hreloaded⟩ := exists_reloadActions ha specs
    exact ⟨_, hreloaded, Agent.toMap_loadActions hvalid specs⟩

end Stage

/-! ## a stage at the river -/

/-- Nothing happens in the world of the river. -/
instance : World Unit where

namespace Stage

/-- A traveller at the river, who has been made, has ticked once, and is then told to stay. -/
def riverbank : Stage Unit Bool :=
  [.registerDefinition Agent.riverDefinition, .spawn 1 "traveller" none, .tickEntity 1 0,
    .write 1 (.setGoal [("home", false)])].foldl perform { sim := .ofConfig {}, world := () }

theorem reachable_riverbank : riverbank.Reachable := by
  rw [riverbank]
  exact (Reachable.setUp {} ()).foldl _

/-- The traveller at work holds states, all of which are canonical and named. -/
theorem states_named_riverbank :
    riverbank.Reachable ∧ ∃ a, riverbank.sim.agents[(1 : EntityId)]? = some a ∧
      a.queue ≠ [] ∧ a.atoms.names.length ≤ 63 ∧ ∀ u ∈ a.states, u.Canonical := by
  have hqueued : (riverbank.sim.agents[(1 : EntityId)]?.map (·.queue.isEmpty)) = some false := by
    decide +kernel
  obtain ⟨a, ha, hbusy⟩ := Option.map_eq_some_iff.mp hqueued
  obtain ⟨hstates, -, hnames, -⟩ := reachable_riverbank.states_named ha
  exact ⟨reachable_riverbank, a, ha, List.isEmpty_eq_false_iff.mp hbusy,
    hnames.trans (Nat.min_le_right _ _), fun u hu => (hstates u hu).1⟩

end Stage

end PlanningAgents
