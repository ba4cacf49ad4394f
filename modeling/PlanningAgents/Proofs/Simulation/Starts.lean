import PlanningAgents.Proofs.Agent.Timing
import PlanningAgents.Proofs.Simulation.Isolation

/-!
# PlanningAgents.Proofs.Simulation.Starts

What the agents of a stage start.  Whatever an agent starts it starts in a call, so that the history
of a stage tells which actions an entity has started, and in which order (`startedBy`).

On a stage of agents that keep to themselves, no call brings about another one.  So the agent of an
entity starts there just what its own calls let it start: one when it is made, and one in every tick
that is dispatched.

Main statements:

* `startedBy` — the actions that the agent of an entity starts;
* `Stage.Private.spawn_of_ok`, `Stage.Private.startedBy_spawning` — an agent that is made;
* `Stage.Private.agent_update` — a tick that is dispatched.
-/

namespace PlanningAgents

variable {W M : Type}

/-- The call into the agent of an entity. -/
def Happening.callOf? (e : EntityId) : Happening W M → Option (Cause × Turn W M)
  | .began cause t => if t.entity = e then some (cause, t) else none
  | _ => none

/-- **The actions that the agent of an entity starts**, in order. -/
def startedBy (e : EntityId) (h : List (Happening W M)) : List String :=
  (h.filterMap (Happening.callOf? e)).flatMap fun c => started (c.2.journal c.1.call)

theorem startedBy_append (e : EntityId) (h h' : List (Happening W M)) :
    startedBy e (h ++ h') = startedBy e h ++ startedBy e h' := by
  rw [startedBy, List.filterMap_append, List.flatMap_append, ← startedBy, ← startedBy]

/-- In a call only the agent that is called starts something. -/
theorem startedBy_happenings (e : EntityId) (t : Turn W M) (cause : Cause) :
    startedBy e (t.happenings cause) =
      if t.entity = e then started (t.journal cause.call) else [] := by
  rw [startedBy, Turn.filterMap_happenings (fun _ => rfl) rfl, Happening.callOf?]
  split
  · exact List.append_nil _
  · rfl

namespace Stage

variable {s u : Stage W M} {e e' : EntityId} {a : Agent W M} {r : SpawnRecord}
  {d : Definition W M}

/-- The agent of an entity that has been called is in its place again. -/
theorem agents_afterCall (s : Stage W M) (e : EntityId) (a : Agent W M) (tick : Tick)
    (call : Call) :
    (s.afterCall e a tick call).sim.agents[e]? = some ((s.turn e a tick).after call).agent :=
  s.sim.agents_setAgent e _

/-- A reset that has not been asked for need not be dropped. -/
theorem withoutReset_of_not_requested (h : s.sim.commands.resetRequested = false) :
    s.withoutReset = s := by
  have htaken : s.sim.commands.takeReset.2 = s.sim.commands := by
    rw [Commands.takeReset, ← h]
  rw [withoutReset, htaken]
  rfl

theorem applyReset_of_not_requested (h : s.sim.commands.resetRequested = false) :
    s.applyReset = s := by
  rw [applyReset_eq, h, withoutReset_of_not_requested h]
  rfl

namespace Private

/-- Where no interrupts are pending, nothing is started by carrying them out. -/
theorem startedBy_gathering (h : s.Private) (e : EntityId) (tick : Tick) :
    startedBy e (s.gathering tick) = [] := by
  rw [gathering, h.quiet]
  rfl

/-- **In a call** only the agent that is called starts something, and nothing follows. -/
theorem startedBy_called (h : s.Private) (ha : s.sim.agents[e]? = some a) (tick : Tick)
    (cause : Cause) (e' : EntityId) :
    startedBy e' ((s.turn e a tick).happenings cause ++
        (s.afterCall e a tick cause.call).gathering tick) =
      if e = e' then started ((s.turn e a tick).journal cause.call) else [] := by
  rw [startedBy_append, startedBy_happenings,
    (h.afterCall ha tick cause.call).isPrivate.startedBy_gathering, List.append_nil]
  rfl

/-! ## agents that are made -/

/-- An agent that can be made is launched. -/
theorem spawn_of_ok (h : s.Private) (hfound : s.definition? r = some d)
    (hload : s.load r d = (.ok (), a)) (e : EntityId) :
    (∃ outcome, (s.spawn e r.entityType r.overrides).1 = .ok outcome) ∧
      (s.spawn e r.entityType r.overrides).2.sim.agents[e]? =
        some ((s.turn e a s.sim.scheduler.last).after .launch).agent ∧
      startedBy e (s.spawning e r) =
        started ((s.turn e a s.sim.scheduler.last).journal .launch) := by
  have hplace : (s.install e r d).sim.agents[e]? = some a := by
    rw [Stage.install, agents_setAgent, fresh, hload]
  have hmade := (h.install hfound e).isPrivate
  have hcalled := (hmade.afterCall hplace s.sim.scheduler.last .launch).isPrivate
  refine ⟨?_, ?_, ?_⟩
  · obtain ⟨prototype, hprototype, rfl⟩ := Option.map_eq_some_iff.mp hfound
    rw [Stage.spawn, hprototype]
    simp only
    split
    · next err b hfail => cases hfail.symm.trans hload
    · exact ⟨_, rfl⟩
  · rw [spawn_eq, hfound]
    simp only [hload]
    have hlaunch (t : Turn W M) : t.after .launch = t.launch.2 := rfl
    rw [callAgent_of_some hplace _ hlaunch, hcalled.applyInterrupts]
    exact agents_afterCall _ _ _ _ _
  · rw [spawning, hfound]
    simp only [hload, calling, hplace]
    exact (hmade.startedBy_called hplace _ .spawned e).trans (if_pos rfl)

/-- An agent that is made starts nothing for the others. -/
theorem startedBy_spawning_of_ne (h : s.Private) (hne : e ≠ e') (r : SpawnRecord) :
    startedBy e' (s.spawning e r) = [] := by
  rw [spawning]
  cases hfound : s.definition? r with
  | none => rfl
  | some d =>
      have hmade := (h.install hfound e).isPrivate
      simp only
      cases (s.load r d).1 with
      | error err => rfl
      | ok done =>
          simp only [calling]
          cases ha : (s.install e r d).sim.agents[e]? with
          | none => rfl
          | some a => exact (hmade.startedBy_called ha _ .spawned e').trans (if_neg hne)

/-! ## ticks -/

section Ticks

variable [World W]

/-- In the turn of an entity the others start nothing. -/
theorem startedBy_visiting_of_ne (h : s.Private) (hne : e ≠ e') (tick : Tick) :
    startedBy e' (s.visiting tick e) = [] := by
  rw [visiting]
  split
  · rfl
  · cases ha : s.sim.agents[e]? with
    | none => exact h.startedBy_gathering e' tick
    | some a => exact (h.startedBy_called ha tick .due e').trans (if_neg hne)

/-- In its turn an agent is ticked, if the world holds its entity. -/
theorem visit_of_held (h : s.Private) (ha : s.sim.agents[e]? = some a)
    (hheld : World.isValid s.world e = true) (tick : Tick) :
    (s.visit tick e).sim.agents[e]? = some ((s.turn e a tick).after .step).agent ∧
      startedBy e (s.visiting tick e) = started ((s.turn e a tick).journal .step) := by
  have hticked := (h.afterCall ha tick .step).isPrivate
  rw [Stage.visit, visiting, hheld, ha]
  simp only [Bool.not_true, Bool.false_eq_true, if_false]
  constructor
  · rw [hticked.applyInterrupts]
    exact agents_afterCall s e a tick .step
  · exact (h.startedBy_called ha tick .due e).trans (if_pos rfl)

theorem startedBy_ticking_of_not_mem (h : s.Private) {entities : List EntityId}
    (hnot : e ∉ entities) (tick : Tick) : startedBy e (s.ticking tick entities) = [] := by
  induction entities generalizing s with
  | nil => rfl
  | cons e' rest ih =>
      rw [List.mem_cons, not_or] at hnot
      obtain ⟨hne, hrest⟩ := hnot
      rw [ticking, startedBy_append, h.startedBy_visiting_of_ne (Ne.symm hne),
        ih (h.visit tick e').isPrivate hrest]
      rfl

/-- When all entities have their turns, an agent starts what it starts in its own. -/
theorem startedBy_ticking (h : s.Private) (ha : s.sim.agents[e]? = some a)
    (hheld : World.isValid s.world e = true) {entities : List EntityId}
    (hnodup : entities.Nodup) (hmem : e ∈ entities) (tick : Tick) :
    startedBy e (s.ticking tick entities) = started ((s.turn e a tick).journal .step) := by
  induction entities generalizing s with
  | nil => exact absurd hmem List.not_mem_nil
  | cons e' rest ih =>
      obtain ⟨hfresh, hnodup⟩ := List.nodup_cons.mp hnodup
      have hvisited := h.visit tick e'
      rw [ticking, startedBy_append]
      by_cases he : e' = e
      · subst he
        rw [(h.visit_of_held ha hheld tick).2,
          hvisited.isPrivate.startedBy_ticking_of_not_mem hfresh tick, List.append_nil]
      · have hsame := hvisited.alike (Ne.symm he)
        have hrest : e ∈ rest := (List.mem_cons.mp hmem).resolve_left (Ne.symm he)
        rw [h.startedBy_visiting_of_ne he, List.nil_append,
          ih hvisited.isPrivate (hsame.agent.trans ha) (hsame.world ▸ hheld) hnodup hrest,
          hsame.turn]

/-- **A tick that is dispatched** ticks each agent once, if the world holds its entity. -/
theorem agent_update (h : s.Private) (ha : s.sim.agents[e]? = some a)
    (hheld : World.isValid s.world e = true) (hcalm : s.sim.commands.resetRequested = false)
    {dt : Float32} {tick : Tick} {u : Stage W M} (hdue : s.advance dt = (some tick, u)) :
    (s.update dt).2.sim.agents[e]? = some ((s.turn e a tick).after .step).agent ∧
      startedBy e (s.happenings (.update dt)) = started ((s.turn e a tick).journal .step) := by
  have hadvanced := h.advance dt
  rw [hdue] at hadvanced
  have hu : s.mapSim ({ · with scheduler := (s.sim.scheduler.advance dt).2 }) = u := by
    rw [Stage.advance] at hdue
    split at hdue
    · cases hdue
    · exact congrArg Prod.snd hdue
  have hplace : u.sim.agents[e]? = some a := hu ▸ ha
  have hworld : World.isValid u.world e = true := hu ▸ hheld
  have hturn : u.turn e a tick = s.turn e a tick := hu ▸ rfl
  have hrequested : u.sim.commands.resetRequested = false := hu ▸ hcalm
  have hreset := applyReset_of_not_requested hrequested
  have hresetting : u.resetting = [] := by
    rw [resetting, hrequested]
    rfl
  have hmem : e ∈ u.sim.agents := SortedMap.mem_of_getElem? hplace
  obtain ⟨hvisited, hstarted⟩ := hadvanced.visit_of_held hplace hworld tick
  constructor
  · have halike := (hadvanced.tickAll (e := e) tick).2
    rw [if_pos hmem] at halike
    rw [update_eq, hdue]
    simp only [hreset]
    rw [halike.agent, hvisited, hturn]
  · have hticking := hadvanced.startedBy_ticking hplace hworld Std.ExtTreeMap.nodup_keys
      (Std.ExtTreeMap.mem_keys.mpr hmem) tick
    rw [happenings, hdue]
    simp only [hreset, hresetting, List.nil_append]
    rw [← List.singleton_append, startedBy_append, hticking, hturn]
    rfl

/-- A tick leaves all that agents share as it is, but for the time. -/
theorem surroundings_update (h : s.Private) (hcalm : s.sim.commands.resetRequested = false)
    (dt : Float32) : (s.update dt).2.surroundings = (s.advance dt).2.surroundings := by
  have hadvanced := h.advance dt
  have hrequested := hcalm
  rw [← s.commands_advance dt] at hrequested
  rw [update_eq]
  cases hdue : s.advance dt with
  | mk due u =>
      rw [hdue] at hadvanced hrequested
      cases due with
      | none => rfl
      | some tick =>
          have hticked := (hadvanced.tickAll (e := 0) tick).2.surroundings
          simp only [applyReset_of_not_requested hrequested]
          rw [hticked]
          split
          · exact (hadvanced.visit tick 0).surroundings
          · rfl

end Ticks

end Private

end Stage

end PlanningAgents
