import PlanningAgents.Proofs.Agent.Seclusion
import PlanningAgents.Proofs.Simulation.States
import PlanningAgents.Proofs.Simulation.Updates

/-!
# PlanningAgents.Proofs.Simulation.Isolation

Agents that keep to themselves know nothing of one another.  When all handlers are private, what is
done to one agent leaves the others as they are, and it depends on nothing but this agent, the time,
the prototypes and the world (`Stage.Alike`).  So the other entities of a stage might as well not be
there: whatever is done to them, however their plans fail, and whether or not they can be made at
all, an entity becomes what it would have become alone.

Main statements:

* `Stage.Private` — a stage of agents that keep to themselves;
* `Stage.ActsOn` — what is done to one entity and to no other;
* `Stage.Alike` — two stages that are the same for one entity;
* `Stage.Private.actsOn_perform`, `Stage.Alike.perform` — operations for one entity, and for all;
* `Stage.agents_isolated` — an entity among others is as it would be alone.
-/

namespace PlanningAgents

variable {W M α : Type}

/-- The entity that an operation is for, unless it is for all. -/
def Operation.entity? : Operation W M → Option EntityId
  | .spawn e _ _ | .destroy e | .tickEntity e _ | .write e _ | .forceInterrupt e
  | .replanTo e _ _ | .reloadActions e _ | .reportGoal e _ _ => some e
  | .setTickRate _ | .registerPrototype _ _ | .registerDefinition _ | .shutdown | .update _
  | .setPaused _ | .requestReset | .changeWorld _ => none

/-- The handlers that an operation brings along are private. -/
def Operation.Private : Operation W M → Prop
  | .registerPrototype _ d | .registerDefinition d => d.Private
  | _ => True

/-- A definition stays private whatever its data are, and whatever serves as its seeding. -/
theorem Definition.Private.made {d : Definition W M} (h : d.Private) (s : Simulation W M)
    (entityType : String) (overrides : Option DefinitionOverrides) :
    (s.withDefaultBlackboardInit entityType
      (match overrides with
      | some o => d.withOverrides o
      | none => d)).Private := by
  have hoverridden : (match overrides with
      | some o => d.withOverrides o
      | none => d).Private := by
    cases overrides with
    | none => exact h
    | some o => exact { h with }
  generalize (match overrides with
    | some o => d.withOverrides o
    | none => d) = d at hoverridden ⊢
  simp only [Simulation.withDefaultBlackboardInit]
  split
  · exact hoverridden
  · split
    · exact hoverridden
    · next seeding hseeding =>
        refine { hoverridden with blackboardInit := fun {key x} hbound => ?_ }
        rw [Definition.withBlackboardInit, SortedMap.getElem?_insert] at hbound
        split at hbound
        · cases hbound
          exact hoverridden.blackboardInit hseeding
        · exact hoverridden.blackboardInit hbound

namespace Stage

variable {s s' s'' u u' : Stage W M} {e e' : EntityId} {a : Agent W M}

/-! ## private stages -/

/-- **A stage of agents that keep to themselves**, now and whenever one is made. -/
structure Private (s : Stage W M) : Prop where
  agents {e : EntityId} {a : Agent W M} (ha : s.sim.agents[e]? = some a) : a.Private
  prototypes {entityType : String} {d : Definition W M}
    (hd : s.sim.prototypes[entityType]? = some d) : d.Private
  quiet : s.sim.commands.interrupts = []

/-- The stage without its agents and how they were made. -/
def surroundings (s : Stage W M) : Stage W M :=
  { s with sim := { s.sim with agents := .empty, spawns := .empty } }

/-- **Something is done to one entity** and to no other. -/
structure ActsOn (e : EntityId) (s s' : Stage W M) : Prop where
  isPrivate : s'.Private
  surroundings : s'.surroundings = s.surroundings
  agents (e' : EntityId) (hne : e' ≠ e) : s'.sim.agents[e']? = s.sim.agents[e']?
  spawns (e' : EntityId) (hne : e' ≠ e) : s'.sim.spawns[e']? = s.sim.spawns[e']?

namespace ActsOn

theorem refl (h : s.Private) : ActsOn e s s := ⟨h, rfl, fun _ _ => rfl, fun _ _ => rfl⟩

theorem trans (h : ActsOn e s s') (h' : ActsOn e s' s'') : ActsOn e s s'' where
  isPrivate := h'.isPrivate
  surroundings := h'.surroundings.trans h.surroundings
  agents e' hne := (h'.agents e' hne).trans (h.agents e' hne)
  spawns e' hne := (h'.spawns e' hne).trans (h.spawns e' hne)

end ActsOn

namespace Private

/-- No interrupts are carried out where none are pending. -/
theorem applyInterrupts (h : s.Private) (tick : Tick) : s.applyInterrupts tick = s := by
  have htaken : s.sim.commands.takeInterrupts.2 = s.sim.commands := by
    rw [Commands.takeInterrupts, ← h.quiet]
  rw [applyInterrupts_eq, h.quiet, interruptAll, gathered, htaken]
  rfl

/-- The agent of an entity may be replaced by a private one. -/
theorem setAgent (h : s.Private) (ha : a.Private) : ActsOn e s (s.mapSim (·.setAgent e a)) where
  isPrivate := by
    refine { h with agents := fun {e' b} hb => ?_ }
    have hinserted : (s.sim.agents.insert e a)[e']? = some b := hb
    rw [SortedMap.getElem?_insert] at hinserted
    split at hinserted
    · cases hinserted
      exact ha
    · exact h.agents hinserted
  surroundings := rfl
  agents e' hne := (SortedMap.getElem?_insert _ _ _ _).trans (if_neg hne)
  spawns _ _ := rfl

/-- A call into a private agent acts on its entity alone. -/
theorem afterCall (h : s.Private) (ha : s.sim.agents[e]? = some a) (tick : Tick) (call : Call) :
    ActsOn e s (s.afterCall e a tick call) := by
  have hcalled := Turn.inward_after (t := s.turn e a tick) (h.agents ha) call
  have hsettled : s.afterCall e a tick call =
      s.mapSim (·.setAgent e ((s.turn e a tick).after call).agent) := by
    rw [Stage.afterCall, settle, hcalled.world, hcalled.commands]
    rfl
  rw [hsettled]
  exact h.setAgent hcalled.agent

theorem callAgent (h : s.Private) (e : EntityId) (tick : Tick) (call : Call)
    {f : Turn W M → α × Turn W M} (hf : ∀ t, t.after call = (f t).2) :
    ActsOn e s (s.callAgent e tick f).2 := by
  cases ha : s.sim.agents[e]? with
  | none =>
      rw [callAgent_of_none ha]
      exact .refl h
  | some a =>
      have hcalled := h.afterCall ha tick call
      rw [callAgent_of_some ha tick hf, hcalled.isPrivate.applyInterrupts]
      exact hcalled

/-- An agent is made of a private definition, whether or not that can be loaded. -/
theorem install (h : s.Private) {r : SpawnRecord} {d : Definition W M}
    (hfound : s.definition? r = some d) (e : EntityId) : ActsOn e s (s.install e r d) := by
  have hd : d.Private := by
    obtain ⟨prototype, hprototype, rfl⟩ := Option.map_eq_some_iff.mp hfound
    exact (h.prototypes hprototype).made s.sim r.entityType r.overrides
  have hloaded := (Agent.private_ofDefinition r.entityType hd s.sim.config.agent).loadDefinition
  have hfresh : (s.fresh e r d).Private := by
    rw [fresh, load]
    split
    · next b hload =>
        rw [hload] at hloaded
        exact hloaded
    · next err b hload =>
        rw [hload] at hloaded
        exact { hloaded with }
  have hset := h.setAgent (e := e) hfresh
  exact ⟨{ hset.isPrivate with }, hset.surroundings, hset.agents,
    fun e' hne => (SortedMap.getElem?_insert _ _ _ _).trans (if_neg hne)⟩

theorem spawn (h : s.Private) (e : EntityId) (entityType : String)
    (overrides : Option DefinitionOverrides) :
    ActsOn e s (s.spawn e entityType overrides).2 := by
  rw [spawn_eq]
  cases hfound : s.definition? { entityType, overrides } with
  | none => exact .refl h
  | some d =>
      have hmade := h.install hfound e
      simp only
      cases (s.load { entityType, overrides } d).1 with
      | error err => exact hmade
      | ok done =>
          exact hmade.trans (hmade.isPrivate.callAgent e _ .launch fun _ => rfl)

theorem destroy (h : s.Private) (e : EntityId) :
    ActsOn e s (s.mapSim fun sim => (sim.destroy e).2) where
  isPrivate := by
    refine { h with agents := fun {e' b} hb => ?_ }
    have herased : (s.sim.agents.erase e)[e']? = some b := hb
    rw [SortedMap.getElem?_erase] at herased
    split at herased
    · cases herased
    · exact h.agents herased
  surroundings := rfl
  agents e' hne := (SortedMap.getElem?_erase _ _ _).trans (if_neg hne)
  spawns e' hne := (SortedMap.getElem?_erase _ _ _).trans (if_neg hne)

theorem onAgent (h : s.Private) (e : EntityId)
    {f : Agent W M → Except AgentError α × Agent W M}
    (hf : ∀ a : Agent W M, a.Private → (f a).2.Private) :
    ActsOn e s { s with sim := (s.sim.onAgent e f).2 } := by
  rw [Simulation.onAgent]
  split
  · exact .refl h
  · next a ha => exact h.setAgent (hf a (h.agents ha))

theorem visit [World W] (h : s.Private) (tick : Tick) (e : EntityId) :
    ActsOn e s (s.visit tick e) := by
  rw [Stage.visit]
  split
  · exact h.destroy e
  · split
    · rw [h.applyInterrupts]
      exact .refl h
    · next a ha =>
        have hticked := h.afterCall ha tick .step
        rw [hticked.isPrivate.applyInterrupts]
        exact hticked

end Private

/-! ## stages that are alike for an entity -/

/-- **Two stages that are the same for one entity**: its agent, how that was made, and all that the
agents of a stage share. -/
structure Alike (e : EntityId) (s u : Stage W M) : Prop where
  surroundings : u.surroundings = s.surroundings
  agent : u.sim.agents[e]? = s.sim.agents[e]?
  spawned : u.sim.spawns[e]? = s.sim.spawns[e]?

/-- What is done to another entity leaves a stage the same for this one. -/
theorem ActsOn.alike (h : ActsOn e' s s') (hne : e ≠ e') : Alike e s s' :=
  ⟨h.surroundings, h.agents e hne, h.spawns e hne⟩

namespace Alike

theorem refl (e : EntityId) (s : Stage W M) : Alike e s s := ⟨rfl, rfl, rfl⟩

theorem trans (h : Alike e s s') (h' : Alike e s' s'') : Alike e s s'' :=
  ⟨h'.surroundings.trans h.surroundings, h'.agent.trans h.agent, h'.spawned.trans h.spawned⟩

theorem symm (h : Alike e s u) : Alike e u s :=
  ⟨h.surroundings.symm, h.agent.symm, h.spawned.symm⟩

theorem world (h : Alike e s u) : u.world = s.world := (congrArg Stage.world h.surroundings :)

theorem prototypes (h : Alike e s u) : u.sim.prototypes = s.sim.prototypes :=
  (congrArg (·.sim.prototypes) h.surroundings :)

theorem config (h : Alike e s u) : u.sim.config = s.sim.config :=
  (congrArg (·.sim.config) h.surroundings :)

theorem scheduler (h : Alike e s u) : u.sim.scheduler = s.sim.scheduler :=
  (congrArg (·.sim.scheduler) h.surroundings :)

theorem commands (h : Alike e s u) : u.sim.commands = s.sim.commands :=
  (congrArg (·.sim.commands) h.surroundings :)

theorem paused (h : Alike e s u) : u.sim.paused = s.sim.paused :=
  (congrArg (·.sim.paused) h.surroundings :)

/-- What is done to the surroundings alone. -/
theorem map (h : Alike e s u) (f : Stage W M → Stage W M)
    (hsurroundings : ∀ s, (f s).surroundings = (f s.surroundings).surroundings)
    (hagents : ∀ s, (f s).sim.agents = s.sim.agents)
    (hspawns : ∀ s, (f s).sim.spawns = s.sim.spawns) : Alike e (f s) (f u) where
  surroundings := by rw [hsurroundings, h.surroundings, ← hsurroundings]
  agent := by rw [hagents, hagents, h.agent]
  spawned := by rw [hspawns, hspawns, h.spawned]

/-- The agent of the entity is called alike. -/
theorem turn (h : Alike e s u) (a : Agent W M) (tick : Tick) :
    u.turn e a tick = s.turn e a tick := by
  rw [Stage.turn, Stage.turn, h.world, h.commands]

theorem settle (h : Alike e s u) (t : Turn W M) : Alike e (s.settle e t) (u.settle e t) where
  surroundings := congrArg
    (fun v : Stage W M => { v with
      sim := { v.sim with commands := t.commands }, world := t.world }) h.surroundings
  agent := by
    refine (SortedMap.getElem?_insert _ _ _ _).trans (.trans ?_
      (SortedMap.getElem?_insert _ _ _ _).symm)
    rw [if_pos rfl, if_pos rfl]
  spawned := h.spawned

theorem setAgent (h : Alike e s u) (a : Agent W M) :
    Alike e (s.mapSim (·.setAgent e a)) (u.mapSim (·.setAgent e a)) where
  surroundings := h.surroundings
  agent := (u.agents_setAgent e a).trans (s.agents_setAgent e a).symm
  spawned := h.spawned

theorem callAgent (h : Alike e s u) (hs : s.Private) (hu : u.Private) (tick : Tick) (call : Call)
    {f : Turn W M → α × Turn W M} (hf : ∀ t, t.after call = (f t).2) :
    Alike e (s.callAgent e tick f).2 (u.callAgent e tick f).2 := by
  have hsame := h.agent
  cases ha : s.sim.agents[e]? with
  | none =>
      rw [ha] at hsame
      rw [callAgent_of_none ha, callAgent_of_none hsame]
      exact h
  | some a =>
      rw [ha] at hsame
      rw [callAgent_of_some ha tick hf, callAgent_of_some hsame tick hf,
        (hs.afterCall ha tick call).isPrivate.applyInterrupts,
        (hu.afterCall hsame tick call).isPrivate.applyInterrupts, afterCall, afterCall, h.turn]
      exact h.settle _

theorem definition? (h : Alike e s u) (r : SpawnRecord) : u.definition? r = s.definition? r :=
  definition?_of_eq h.prototypes h.config r

theorem load (h : Alike e s u) (r : SpawnRecord) (d : Definition W M) :
    u.load r d = s.load r d := load_of_eq h.config r d

theorem install (h : Alike e s u) (r : SpawnRecord) (d : Definition W M) :
    Alike e (s.install e r d) (u.install e r d) := by
  have hfresh : u.fresh e r d = s.fresh e r d := by
    rw [fresh, fresh, h.load, h.scheduler]
  have hset := h.setAgent (s.fresh e r d)
  rw [Stage.install, Stage.install, hfresh]
  refine ⟨hset.surroundings, hset.agent, ?_⟩
  refine (SortedMap.getElem?_insert _ _ _ _).trans (.trans ?_
    (SortedMap.getElem?_insert _ _ _ _).symm)
  rw [if_pos rfl, if_pos rfl]

theorem spawn (h : Alike e s u) (hs : s.Private) (hu : u.Private) (entityType : String)
    (overrides : Option DefinitionOverrides) :
    Alike e (s.spawn e entityType overrides).2 (u.spawn e entityType overrides).2 := by
  rw [spawn_eq, spawn_eq, h.definition?]
  cases hfound : s.definition? { entityType, overrides } with
  | none => exact h
  | some d =>
      have hmade := h.install { entityType, overrides } d
      simp only [h.load, h.scheduler]
      cases (s.load { entityType, overrides } d).1 with
      | error err => exact hmade
      | ok done =>
          exact hmade.callAgent (hs.install hfound e).isPrivate
            (hu.install ((h.definition? _).trans hfound) e).isPrivate _ .launch fun _ => rfl

theorem destroy (h : Alike e s u) :
    Alike e (s.mapSim fun sim => (sim.destroy e).2) (u.mapSim fun sim => (sim.destroy e).2) := by
  have herased {β : Type} (m m' : SortedMap EntityId β) : (m.erase e)[e]? = (m'.erase e)[e]? := by
    rw [SortedMap.getElem?_erase, SortedMap.getElem?_erase, if_pos rfl, if_pos rfl]
  exact ⟨h.surroundings, herased _ _, herased _ _⟩

/-- What is done to the agent of the entity has the same outcome. -/
theorem onAgent (h : Alike e s u) (f : Agent W M → Except AgentError α × Agent W M) :
    (u.sim.onAgent e f).1 = (s.sim.onAgent e f).1 ∧
      Alike e { s with sim := (s.sim.onAgent e f).2 } { u with sim := (u.sim.onAgent e f).2 } := by
  rw [Simulation.onAgent, Simulation.onAgent, h.agent]
  cases s.sim.agents[e]? with
  | none => exact ⟨rfl, h⟩
  | some a => exact ⟨rfl, h.setAgent (f a).2⟩

theorem visit [World W] (h : Alike e s u) (hs : s.Private) (hu : u.Private) (tick : Tick) :
    Alike e (s.visit tick e) (u.visit tick e) := by
  have hsame := h.agent
  rw [Stage.visit, Stage.visit, h.world]
  split
  · exact h.destroy
  · cases ha : s.sim.agents[e]? with
    | none =>
        rw [ha] at hsame
        simp only [hsame]
        rw [hs.applyInterrupts, hu.applyInterrupts]
        exact h
    | some a =>
        rw [ha] at hsame
        simp only [hsame]
        rw [(hs.afterCall ha tick .step).isPrivate.applyInterrupts,
          (hu.afterCall hsame tick .step).isPrivate.applyInterrupts, afterCall, afterCall, h.turn]
        exact h.settle _

end Alike

/-! ## ticks and resets -/

/-- **A tick of all agents** is the turn of each by itself. -/
theorem Private.alike_tickAll [World W] (h : s.Private) (tick : Tick) {entities : List EntityId}
    (hnodup : entities.Nodup) (e : EntityId) :
    (s.tickAll tick entities).Private ∧
      Alike e (if e ∈ entities then s.visit tick e else s) (s.tickAll tick entities) := by
  induction entities generalizing s with
  | nil => exact ⟨h, .refl e s⟩
  | cons e' rest ih =>
      obtain ⟨hfresh, hnodup⟩ := List.nodup_cons.mp hnodup
      have hvisited := h.visit tick e'
      obtain ⟨hprivate, halike⟩ := ih hvisited.isPrivate hnodup
      rw [tickAll_cons]
      refine ⟨hprivate, .trans ?_ halike⟩
      by_cases he : e = e'
      · subst he
        rw [if_pos List.mem_cons_self, if_neg hfresh]
        exact .refl e _
      · have hother := hvisited.alike he
        simp only [List.mem_cons, he, false_or]
        split
        · exact hother.visit h hvisited.isPrivate tick
        · exact hother

/-- **Making recorded entities again** makes each by itself. -/
theorem Private.alike_respawnAll (h : s.Private) {records : List (EntityId × SpawnRecord)}
    (hnodup : (records.map Prod.fst).Nodup) (e : EntityId) {record : Option SpawnRecord}
    (hrecord : ∀ r, (e, r) ∈ records ↔ record = some r) :
    (s.respawnAll records).Private ∧
      Alike e (match record with
        | some r => (s.spawn e r.entityType r.overrides).2
        | none => s) (s.respawnAll records) := by
  induction records generalizing s record with
  | nil =>
      have hnone : record = none := Option.eq_none_iff_forall_ne_some.mpr fun r hr =>
        absurd ((hrecord r).mpr hr) List.not_mem_nil
      subst hnone
      exact ⟨h, .refl e s⟩
  | cons first rest ih =>
      obtain ⟨e', r'⟩ := first
      rw [List.map_cons, List.nodup_cons] at hnodup
      obtain ⟨hfresh, hnodup⟩ := hnodup
      have hspawned := h.spawn e' r'.entityType r'.overrides
      by_cases he : e = e'
      · subst he
        obtain rfl := (hrecord r').mp List.mem_cons_self
        have hnone : ∀ r, (e, r) ∈ rest ↔ (none : Option SpawnRecord) = some r := fun r =>
          iff_of_false (fun hr => hfresh (List.mem_map.mpr ⟨_, hr, rfl⟩)) nofun
        exact ih hspawned.isPrivate hnodup hnone
      · have hrest : ∀ r, (e, r) ∈ rest ↔ record = some r := fun r => by
          rw [← hrecord, List.mem_cons, Prod.mk.injEq]
          simp [he]
        obtain ⟨hprivate, halike⟩ := ih hspawned.isPrivate hnodup hrest
        have hother := hspawned.alike he
        refine ⟨hprivate, .trans ?_ halike⟩
        cases record with
        | none => exact hother
        | some r => exact hother.spawn h hspawned.isPrivate r.entityType r.overrides

/-- A stage on which no interrupt is pending has none pending without its reset. -/
theorem Private.withoutReset (h : s.Private) : s.withoutReset.Private := { h with }

theorem Private.applyReset (h : s.Private) (e : EntityId) :
    s.applyReset.Private ∧
      Alike e (if s.sim.commands.resetRequested then
        match s.sim.spawns[e]? with
        | some r => (s.withoutReset.spawn e r.entityType r.overrides).2
        | none => s.withoutReset
      else s.withoutReset) s.applyReset := by
  rw [applyReset_eq]
  split
  · have hnodup : (s.sim.spawns.toList.map Prod.fst).Nodup := by
      rw [Std.ExtTreeMap.map_fst_toList_eq_keys]
      exact Std.ExtTreeMap.nodup_keys
    exact h.withoutReset.alike_respawnAll hnodup e fun r =>
      Std.ExtTreeMap.mem_toList_iff_getElem?_eq_some
  · exact ⟨h.withoutReset, .refl e _⟩

theorem Alike.applyReset (h : Alike e s u) (hs : s.Private) (hu : u.Private) :
    Alike e s.applyReset u.applyReset := by
  have hwithout : Alike e s.withoutReset u.withoutReset :=
    h.map withoutReset (fun _ => rfl) (fun _ => rfl) fun _ => rfl
  refine .trans (hs.applyReset e).2.symm (.trans ?_ (hu.applyReset e).2)
  rw [h.commands, h.spawned]
  split
  · cases s.sim.spawns[e]? with
    | none => exact hwithout
    | some r => exact hwithout.spawn hs.withoutReset hu.withoutReset r.entityType r.overrides
  · exact hwithout

/-- Frame time is counted alike. -/
theorem Alike.advance (h : Alike e s u) (dt : Float32) :
    (u.advance dt).1 = (s.advance dt).1 ∧ Alike e (s.advance dt).2 (u.advance dt).2 := by
  rw [Stage.advance, Stage.advance, h.paused, h.scheduler]
  split
  · exact ⟨rfl, h⟩
  · refine ⟨rfl, ?_⟩
    exact h.map (·.mapSim ({ · with scheduler := (s.sim.scheduler.advance dt).2 })) (fun _ => rfl)
      (fun _ => rfl) fun _ => rfl

theorem Private.advance (h : s.Private) (dt : Float32) : (s.advance dt).2.Private := by
  rw [Stage.advance]
  split
  · exact h
  · exact { h with }

/-- A prototype serves its type, and the other types are served as before. -/
theorem Private.registerPrototype (h : s.Private) (entityType : String) {d : Definition W M}
    (hd : d.Private) : (s.mapSim (·.registerPrototype entityType d)).Private := by
  refine { h with prototypes := fun {entityType' d'} hd' => ?_ }
  have hinserted : (s.sim.prototypes.insert entityType d)[entityType']? = some d' := hd'
  rw [SortedMap.getElem?_insert] at hinserted
  split at hinserted
  · cases hinserted
    exact hd
  · exact h.prototypes hinserted

theorem Private.registerDefinition (h : s.Private) {d : Definition W M} (hd : d.Private) :
    (s.mapSim (·.registerDefinition d)).Private := by
  rw [mapSim, Simulation.registerDefinition]
  generalize d.data.entityTypes.keys = types
  induction types generalizing s with
  | nil => exact h
  | cons entityType rest ih => exact ih (h.registerPrototype entityType hd)

theorem Alike.registerDefinition (h : Alike e s u) (d : Definition W M) :
    Alike e (s.mapSim (·.registerDefinition d)) (u.mapSim (·.registerDefinition d)) := by
  rw [mapSim, mapSim, Simulation.registerDefinition, Simulation.registerDefinition]
  generalize d.data.entityTypes.keys = types
  induction types generalizing s u with
  | nil => exact h
  | cons entityType rest ih =>
      exact ih (h.map (·.mapSim (·.registerPrototype entityType d)) (fun _ => rfl) (fun _ => rfl)
        fun _ => rfl)

section Ticks

variable [World W]

theorem Private.tickAll (h : s.Private) (tick : Tick) :
    (s.tickAll tick s.sim.agents.keys).Private ∧
      Alike e (if e ∈ s.sim.agents then s.visit tick e else s)
        (s.tickAll tick s.sim.agents.keys) := by
  have hnodup : s.sim.agents.keys.Nodup := Std.ExtTreeMap.nodup_keys
  have halike := h.alike_tickAll tick hnodup e
  simp only [Std.ExtTreeMap.mem_keys] at halike
  exact halike

theorem Alike.tickAll (h : Alike e s u) (hs : s.Private) (hu : u.Private) (tick : Tick) :
    Alike e (s.tickAll tick s.sim.agents.keys) (u.tickAll tick u.sim.agents.keys) := by
  refine .trans (hs.tickAll tick).2.symm (.trans ?_ (hu.tickAll tick).2)
  have hmem : e ∈ u.sim.agents ↔ e ∈ s.sim.agents := by
    rw [Std.ExtTreeMap.mem_iff_isSome_getElem?, h.agent, ← Std.ExtTreeMap.mem_iff_isSome_getElem?]
  simp only [hmem]
  split
  · exact h.visit hs hu tick
  · exact h

theorem Private.update (h : s.Private) (dt : Float32) : (s.update dt).2.Private := by
  have hadvanced := h.advance dt
  rw [update_eq]
  cases hdue : s.advance dt with
  | mk due v =>
      rw [hdue] at hadvanced
      cases due with
      | none => exact hadvanced
      | some tick => exact ((hadvanced.applyReset 0).1.tickAll (e := 0) tick).1

/-- **An update** depends for each entity on what it is by itself. -/
theorem Alike.update (h : Alike e s u) (hs : s.Private) (hu : u.Private) (dt : Float32) :
    Alike e (s.update dt).2 (u.update dt).2 := by
  obtain ⟨hdue, hadvanced⟩ := h.advance dt
  have hsadvanced := hs.advance dt
  have huadvanced := hu.advance dt
  rw [update_eq, update_eq]
  cases hsdue : s.advance dt with
  | mk due v =>
      cases hudue : u.advance dt with
      | mk due' v' =>
          rw [hsdue, hudue] at hdue hadvanced
          rw [hsdue] at hsadvanced
          rw [hudue] at huadvanced
          obtain rfl : due' = due := hdue
          cases due' with
          | none => exact hadvanced
          | some tick =>
              exact (hadvanced.applyReset hsadvanced huadvanced).tickAll
                (hsadvanced.applyReset e).1 (huadvanced.applyReset e).1 tick

/-! ## operations -/

/-- **What is done for one entity** is done to no other. -/
theorem Private.actsOn_perform (h : s.Private) {op : Operation W M} (hop : op.entity? = some e) :
    ActsOn e s (s.perform op) := by
  cases op with
  | spawn e entityType overrides =>
      cases hop
      exact h.spawn e entityType overrides
  | destroy e =>
      cases hop
      exact h.destroy e
  | tickEntity e dt =>
      cases hop
      exact h.callAgent e _ .step fun _ => rfl
  | write e w =>
      cases hop
      exact h.onAgent e fun a ha => ha.write w
  | forceInterrupt e =>
      cases hop
      exact h.callAgent e _ .interrupt fun _ => rfl
  | replanTo e pairs merge =>
      cases hop
      have hencoded : ActsOn e s (s.encodeGoal e pairs).2 :=
        h.onAgent e fun a ha => ha.write (.encode pairs)
      rw [perform, replanTo_eq]
      cases hgoal : s.encodeGoal e pairs with
      | mk result v =>
          rw [hgoal] at hencoded
          cases result with
          | error err => exact hencoded
          | ok goal =>
              exact hencoded.trans
                (hencoded.isPrivate.callAgent e _ (.replanTo goal merge) fun _ => rfl)
  | reloadActions e specs =>
      cases hop
      refine h.onAgent e fun a ha => ?_
      have hloaded := ha.loadActions specs
      split
      · next b hload =>
          rw [hload] at hloaded
          exact hloaded
      · next err b hload =>
          rw [hload] at hloaded
          exact { hloaded with }
  | reportGoal e goal reason =>
      cases hop
      exact h.onAgent e fun a ha => { ha with }
  | _ => cases hop

/-- **Agents keep to themselves** in every operation that brings private handlers. -/
theorem Private.perform (h : s.Private) {op : Operation W M} (hop : op.Private) :
    (s.perform op).Private := by
  cases hentity : op.entity? with
  | some e => exact (h.actsOn_perform hentity).isPrivate
  | none =>
      cases op with
      | setTickRate seconds => exact { h with }
      | registerPrototype entityType d => exact h.registerPrototype entityType hop
      | registerDefinition d => exact h.registerDefinition hop
      | shutdown => exact ⟨fun ha => (nomatch ha), fun hd => (nomatch hd), rfl⟩
      | update dt => exact h.update dt
      | setPaused paused => exact { h with }
      | requestReset => exact { h with }
      | changeWorld f => exact { h with }
      | _ => cases hentity

/-- **Operations for one entity, and for all**, depend for each entity on what it is by itself. -/
theorem Alike.perform (h : Alike e s u) (hs : s.Private) (hu : u.Private) (op : Operation W M)
    (hop : ∀ e' ∈ op.entity?, e' = e) : Alike e (s.perform op) (u.perform op) := by
  cases op with
  | setTickRate seconds =>
      exact h.map (·.perform (.setTickRate seconds)) (fun _ => rfl) (fun _ => rfl) fun _ => rfl
  | registerPrototype entityType d =>
      exact h.map (·.perform (.registerPrototype entityType d)) (fun _ => rfl) (fun _ => rfl)
        fun _ => rfl
  | registerDefinition d => exact h.registerDefinition d
  | spawn e' entityType overrides =>
      obtain rfl := hop e' rfl
      exact h.spawn hs hu entityType overrides
  | destroy e' =>
      obtain rfl := hop e' rfl
      exact h.destroy
  | shutdown => exact ⟨congrArg (·.mapSim (·.shutdown)) h.surroundings, rfl, rfl⟩
  | update dt => exact h.update hs hu dt
  | tickEntity e' dt =>
      obtain rfl := hop e' rfl
      rw [Stage.perform, Stage.perform, tickEntity, tickEntity, h.scheduler]
      exact h.callAgent hs hu _ .step fun _ => rfl
  | write e' w =>
      obtain rfl := hop e' rfl
      exact (h.onAgent _).2
  | forceInterrupt e' =>
      obtain rfl := hop e' rfl
      rw [Stage.perform, Stage.perform, forceInterrupt, forceInterrupt, h.scheduler]
      exact h.callAgent hs hu _ .interrupt fun _ => rfl
  | replanTo e' pairs merge =>
      obtain rfl := hop e' rfl
      have hencoded := h.onAgent (·.encode pairs)
      have hsencoded : ActsOn e' s (s.encodeGoal e' pairs).2 :=
        hs.onAgent e' fun a ha => ha.write (.encode pairs)
      have huencoded : ActsOn e' u (u.encodeGoal e' pairs).2 :=
        hu.onAgent e' fun a ha => ha.write (.encode pairs)
      rw [Stage.perform, Stage.perform, replanTo_eq, replanTo_eq]
      change (u.encodeGoal e' pairs).1 = (s.encodeGoal e' pairs).1 ∧
        Alike e' (s.encodeGoal e' pairs).2 (u.encodeGoal e' pairs).2 at hencoded
      generalize s.encodeGoal e' pairs = v at hencoded hsencoded ⊢
      generalize u.encodeGoal e' pairs = w at hencoded huencoded ⊢
      obtain ⟨result, v⟩ := v
      obtain ⟨result', w⟩ := w
      obtain ⟨rfl, halike⟩ := hencoded
      cases result' with
      | error err => exact halike
      | ok goal =>
          have hlast : w.sim.scheduler = v.sim.scheduler := halike.scheduler
          simp only [hlast]
          exact halike.callAgent hsencoded.isPrivate huencoded.isPrivate _ (.replanTo goal merge)
            fun _ => rfl
  | reloadActions e' specs =>
      obtain rfl := hop e' rfl
      rw [Stage.perform, Stage.perform, Simulation.reloadActions, Simulation.reloadActions,
        h.scheduler]
      exact (h.onAgent _).2
  | reportGoal e' goal reason =>
      obtain rfl := hop e' rfl
      rw [Stage.perform, Stage.perform, Simulation.reportGoal, Simulation.reportGoal, h.scheduler]
      exact (h.onAgent _).2
  | setPaused paused =>
      exact h.map (·.perform (.setPaused paused)) (fun _ => rfl) (fun _ => rfl) fun _ => rfl
  | requestReset =>
      exact h.map (·.perform (.requestReset)) (fun _ => rfl) (fun _ => rfl) fun _ => rfl
  | changeWorld f =>
      exact h.map (·.perform (.changeWorld f)) (fun _ => rfl) (fun _ => rfl) fun _ => rfl

/-- **An entity among others is as it would be alone.**  When no handler writes to the world or
asks for anything, every entity is in every run what it would be if only those operations had been
carried out that are for it, or for all: its agent is the same, with its states, plan, queue, notes
and trace.  What the operations for other entities do to these, and whether they fail, is nothing
to it. -/
theorem agents_isolated (config : SimulationConfig) (world : W) (ops : List (Operation W M))
    (hprivate : ∀ op ∈ ops, op.Private) (e : EntityId) :
    let start : Stage W M := { sim := .ofConfig config, world }
    (ops.foldl Stage.perform start).sim.agents[e]? =
      ((ops.filter fun op => op.entity?.all (· = e)).foldl Stage.perform start).sim.agents[e]? := by
  intro start
  have hstart : start.Private := ⟨fun ha => (nomatch ha), fun hd => (nomatch hd), rfl⟩
  suffices h : ∀ s u : Stage W M, s.Private → u.Private → Alike e s u →
      Alike e (ops.foldl Stage.perform s)
        ((ops.filter fun op => op.entity?.all (· = e)).foldl Stage.perform u) from
    (h start start hstart hstart (.refl e start)).agent.symm
  induction ops with
  | nil => exact fun s u hs hu h => h
  | cons op rest ih =>
      intro s u hs hu h
      obtain ⟨hop, hrest⟩ := List.forall_mem_cons.mp hprivate
      rw [List.foldl_cons, List.filter_cons]
      split
      · next hown =>
          rw [List.foldl_cons]
          refine ih hrest _ _ (hs.perform hop) (hu.perform hop) (h.perform hs hu op ?_)
          simpa [Option.all_eq_true] using hown
      · next hother =>
          obtain ⟨e', hentity, hne⟩ : ∃ e', op.entity? = some e' ∧ e' ≠ e := by
            simpa [Option.all_eq_true] using hother
          have hacts := hs.actsOn_perform hentity
          exact ih hrest _ _ hacts.isPrivate hu ((hacts.alike hne.symm).symm.trans h)

/-! ## worlds that hold everyone -/

/-- Where the world holds all entities, an update drops none. -/
theorem keeps_tickAll (hheld : ∀ (w : W) (e : EntityId), World.isValid w e = true) (s : Stage W M)
    (tick : Tick) (entities : List EntityId) : s.Keeps (s.tickAll tick entities) := by
  induction entities generalizing s with
  | nil => exact .refl s
  | cons e rest ih =>
      rw [tickAll_cons]
      exact (keeps_visit (hheld s.world e) tick).trans (ih _)

theorem Tabled.keeps_update (h : s.Tabled)
    (hheld : ∀ (w : W) (e : EntityId), World.isValid w e = true) (dt : Float32) :
    s.Keeps (s.update dt).2 := by
  have hadvanced := s.keeps_advance dt
  rw [update_eq]
  cases hdue : s.advance dt with
  | mk due v =>
      rw [hdue] at hadvanced
      cases due with
      | none => exact hadvanced
      | some tick =>
          exact hadvanced.trans
            ((h.of_keeps hadvanced).keeps_applyReset.trans (keeps_tickAll hheld _ tick _))

end Ticks

end Stage

/-! ## travellers among others -/

/-- What a map holds was there, or has been written since. -/
theorem SortedMap.of_getElem?_insertMany {κ : Type} [Ord κ] [Std.TransOrd κ] [Std.LawfulEqOrd κ]
    [DecidableEq κ] {m : SortedMap κ α} {l : List (κ × α)} {k : κ} {v : α}
    (h : (m.insertMany l)[k]? = some v) : m[k]? = some v ∨ (k, v) ∈ l := by
  induction l generalizing m with
  | nil => exact .inl (by simpa using h)
  | cons first rest ih =>
      rw [Std.ExtTreeMap.insertMany_cons] at h
      obtain hbefore | hrest := ih h
      · rw [getElem?_insert] at hbefore
        split at hbefore
        · next hk =>
            cases hbefore
            exact .inr (hk ▸ List.mem_cons_self)
        · exact .inl hbefore
      · exact .inr (List.mem_cons_of_mem _ hrest)

/-- What a map of a list holds is in the list. -/
theorem SortedMap.mem_of_getElem?_ofList {κ : Type} [Ord κ] [Std.TransOrd κ] [Std.LawfulEqOrd κ]
    [DecidableEq κ] {l : List (κ × α)} {k : κ} {v : α}
    (h : (Std.ExtTreeMap.ofList l compare)[k]? = some v) : (k, v) ∈ l := by
  rw [Std.ExtTreeMap.ofList_eq_insertMany_empty] at h
  obtain hempty | hl := of_getElem?_insertMany h
  · rw [Std.ExtTreeMap.getElem?_empty] at hempty
    cases hempty
  · exact hl

/-- Whoever crosses the river keeps to himself. -/
theorem Agent.private_riverDefinition : riverDefinition.Private where
  actions {name x} hbound := by
    obtain ⟨_, -, htwoTicks⟩ := List.mem_map.mp (SortedMap.mem_of_getElem?_ofList hbound)
    cases htwoTicks
    exact ⟨Handler.private_done _, fun _ => Handler.private_done _, Handler.private_done _,
      fun _ => Handler.private_done _⟩
  goalSelectors hbound := nomatch hbound
  updaters _ hu := nomatch hu
  blackboardInit hbound := nomatch hbound
  noPlan hbound := nomatch hbound

namespace Stage

/-- Two travellers, a pirate of whom nothing is known, and a traveller who cannot be made. -/
def crowd : List (Operation Unit Bool) :=
  [.registerDefinition Agent.riverDefinition, .spawn 2 "traveller" none, .spawn 1 "traveller" none,
    .spawn 3 "pirate" none, .spawn 4 "traveller" (some { entityTypes := some .empty }), .update 1,
    .destroy 2, .update 1]

/-- A lone traveller is made. -/
def loneTraveller : List (Operation Unit Bool) :=
  [.registerDefinition Agent.riverDefinition, .spawn 1 "traveller" none]

/-- The stage with the lone traveller. -/
def lonesome : Stage Unit Bool := loneTraveller.foldl perform { sim := .ofConfig {}, world := () }

/-- Of the crowd, the lone traveller is what concerns the first traveller. -/
theorem filter_crowd :
    (crowd.filter fun op => op.entity?.all (· = 1)) = loneTraveller ++ [.update 1, .update 1] := by
  simp [crowd, loneTraveller, Operation.entity?]

/-- The lone traveller stays. -/
theorem exists_lonesome :
    ∃ a, ([.update 1, .update 1].foldl perform lonesome).sim.agents[(1 : EntityId)]? = some a := by
  have hmade : (1 : EntityId) ∈ lonesome.sim.agents := by decide +kernel
  have hreachable : lonesome.Reachable := (Reachable.setUp {} ()).foldl loneTraveller
  generalize lonesome = s at hmade hreachable ⊢
  have hfirst := hreachable.tabled.keeps_update (fun _ _ => rfl) 1
  have hsecond := (hreachable.tabled.of_keeps hfirst).keeps_update (fun _ _ => rfl) 1
  have hthere := ((hfirst.trans hsecond).agents 1).mpr hmade
  rwa [Std.ExtTreeMap.mem_iff_isSome_getElem?, Option.isSome_iff_exists] at hthere

/-- A traveller in a crowd goes the way that he would go alone. -/
theorem agents_isolated_crowd :
    (∀ op ∈ crowd, op.Private) ∧
      ∃ a, ([.update 1, .update 1].foldl perform lonesome).sim.agents[(1 : EntityId)]? = some a ∧
        (crowd.foldl perform
          { sim := .ofConfig {}, world := () }).sim.agents[(1 : EntityId)]? = some a := by
  have hprivate : ∀ op ∈ crowd, op.Private := by
    simp [crowd, Operation.Private, Agent.private_riverDefinition]
  have hisolated := agents_isolated {} () crowd hprivate 1
  simp only [filter_crowd, List.foldl_append] at hisolated
  rw [← lonesome] at hisolated
  obtain ⟨a, ha⟩ := exists_lonesome
  rw [ha] at hisolated
  exact ⟨hprivate, a, ha, hisolated⟩

end Stage

end PlanningAgents
