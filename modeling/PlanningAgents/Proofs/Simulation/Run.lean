import Mathlib.Logic.Relation
import PlanningAgents.Proofs.Agent.Steady
import PlanningAgents.Simulation.Basic

/-!
# PlanningAgents.Proofs.Simulation.Run

What can become of a stage.  A run starts without agents, and goes on by operations in any order
(`Stage.Reachable`), on any world and with any handlers, whether or not the operations succeed.

Behind every operation there are the same few moves: an agent is made, written to, given actions or
called, or agents are dropped (`Stage.Move`).  A reset makes agents anew, a tick calls one after
the other, and interrupts that are asked for are calls that follow.  So the operations are gone
through once, here, and a property of agents that each of these moves keeps holds throughout every
run.

Main statements:

* `Operation`, `Stage.perform` — what is done to a stage from outside;
* `Stage.Reachable` — what can become of a stage;
* `Stage.moves_perform` — every operation is made of moves.
-/

namespace PlanningAgents

variable {W M α : Type}

/-- What is done to a stage from outside. -/
inductive Operation (W M : Type) where
  | setTickRate (seconds : Float32)
  | registerPrototype (entityType : String) (d : Definition W M)
  | registerDefinition (d : Definition W M)
  | spawn (e : EntityId) (entityType : String) (overrides : Option DefinitionOverrides)
  | destroy (e : EntityId)
  | shutdown
  | update (dt : Float32)
  | tickEntity (e : EntityId) (dt : Float32)
  | write (e : EntityId) (w : Write)
  | forceInterrupt (e : EntityId)
  | replanTo (e : EntityId) (pairs : List (String × Bool)) (merge : Bool)
  | reloadActions (e : EntityId) (specs : List ActionSpec)
  | reportGoal (e : EntityId) (goal reason : String)
  | setPaused (paused : Bool)
  | requestReset
  | changeWorld (f : W → W)

/-- The value that is written last under a key is the one that stays. -/
theorem SortedMap.insert_insert {κ : Type} [Ord κ] [Std.TransOrd κ] [Std.LawfulEqOrd κ]
    [DecidableEq κ] (m : SortedMap κ α) (k : κ) (v v' : α) :
    (m.insert k v).insert k v' = m.insert k v' := by
  apply Std.ExtTreeMap.ext_getElem?
  intro j
  simp only [getElem?_insert]
  split
  · rfl
  · rfl

/-- An agent that is put in its place is found there. -/
@[simp] theorem Simulation.agents_setAgent (sim : Simulation W M) (e : EntityId) (a : Agent W M) :
    (sim.setAgent e a).agents[e]? = some a := by
  rw [setAgent, SortedMap.getElem?_insert, if_pos rfl]

namespace Stage

/-- Carries out an operation. -/
def perform [World W] (s : Stage W M) : Operation W M → Stage W M
  | .setTickRate seconds => s.mapSim (·.setTickRate seconds)
  | .registerPrototype entityType d => s.mapSim (·.registerPrototype entityType d)
  | .registerDefinition d => s.mapSim (·.registerDefinition d)
  | .spawn e entityType overrides => (s.spawn e entityType overrides).2
  | .destroy e => { s with sim := (s.sim.destroy e).2 }
  | .shutdown => s.mapSim (·.shutdown)
  | .update dt => (s.update dt).2
  | .tickEntity e dt => (s.tickEntity e dt).2
  | .write e w => { s with sim := (s.sim.onAgent e fun a => (.ok (), a.write w)).2 }
  | .forceInterrupt e => (s.forceInterrupt e).2
  | .replanTo e pairs merge => (s.replanTo e pairs merge).2
  | .reloadActions e specs => { s with sim := (s.sim.reloadActions e specs).2 }
  | .reportGoal e goal reason => { s with sim := (s.sim.reportGoal e goal reason).2 }
  | .setPaused paused => s.mapSim ({ · with paused })
  | .requestReset => s.mapSim (·.requestReset)
  | .changeWorld f => { s with world := f s.world }

/-- **What can become of a stage** that has been set up without agents. -/
inductive Reachable [World W] : Stage W M → Prop
  | setUp (config : SimulationConfig) (world : W) :
      Reachable { sim := .ofConfig config, world }
  | perform {s : Stage W M} (h : Reachable s) (op : Operation W M) : Reachable (s.perform op)

/-- Any number of operations, one after the other, lead from one such stage to another. -/
theorem Reachable.foldl [World W] {s : Stage W M} (h : s.Reachable) (ops : List (Operation W M)) :
    (ops.foldl Stage.perform s).Reachable := by
  induction ops generalizing s with
  | nil => exact h
  | cons op rest ih => exact ih (h.perform op)

/-! ## moves -/

/-- The beginning of a call into an agent. -/
def turn (s : Stage W M) (e : EntityId) (a : Agent W M) (tick : Tick) : Turn W M :=
  { agent := a, entity := e, tick, world := s.world, commands := s.sim.commands }

/-- The stage behind a call into the agent of an entity. -/
def settle (s : Stage W M) (e : EntityId) (t : Turn W M) : Stage W M :=
  { sim := { s.sim.setAgent e t.agent with commands := t.commands }, world := t.world }

/-- A call that is run leaves its stage behind. -/
theorem runTurn_snd (s : Stage W M) (e : EntityId) (a : Agent W M) (tick : Tick)
    (f : Turn W M → α × Turn W M) :
    (s.runTurn e a tick f).2 = s.settle e (f (s.turn e a tick)).2 := rfl

/-- **A move.** -/
inductive Move : Stage W M → Stage W M → Prop
  /-- Agents may be dropped; those that are left stay as they are. -/
  | keep {s s' : Stage W M}
      (hagents : ∀ (e : EntityId) (a : Agent W M), s'.sim.agents[e]? = some a →
        s.sim.agents[e]? = some a)
      (hconfig : s'.sim.config.agent = s.sim.config.agent) : Move s s'
  /-- An agent is made, in place of an earlier one. -/
  | make (s : Stage W M) (e : EntityId) (entityType : String) (d : Definition W M) :
      Move s (s.mapSim
        (·.setAgent e (Agent.ofDefinition entityType d s.sim.config.agent).loadDefinition.2))
  | write {s : Stage W M} {e : EntityId} {a : Agent W M} (ha : s.sim.agents[e]? = some a)
      (w : Write) : Move s (s.mapSim (·.setAgent e (a.write w)))
  | load {s : Stage W M} {e : EntityId} {a : Agent W M} (ha : s.sim.agents[e]? = some a)
      (specs : List ActionSpec) : Move s (s.mapSim (·.setAgent e (a.loadActions specs).2))
  /-- A goal that a call brings has just been encoded. -/
  | call {s : Stage W M} {e : EntityId} {a : Agent W M} (ha : s.sim.agents[e]? = some a)
      (tick : Tick) (call : Call)
      (hgoal : ∀ goal merge, call = .replanTo goal merge →
        ∃ (t : AtomTable) (pairs : List (String × Bool)), t.encode pairs = (.ok goal, a.atoms)) :
      Move s (s.settle e ((s.turn e a tick).after call))

/-- Any number of moves. -/
def Moves : Stage W M → Stage W M → Prop := Relation.ReflTransGen Move

variable {s s' s'' : Stage W M} {e : EntityId} {a : Agent W M}

namespace Moves

theorem refl (s : Stage W M) : Moves s s := Relation.ReflTransGen.refl

theorem trans (h : Moves s s') (h' : Moves s' s'') : Moves s s'' := Relation.ReflTransGen.trans h h'

theorem after (h : Moves s s') (hmove : Move s' s'') : Moves s s'' :=
  Relation.ReflTransGen.tail h hmove

end Moves

theorem Move.moves (h : Move s s') : Moves s s' := (Moves.refl s).after h

/-- What agents and their settings do not depend on may change. -/
theorem Move.aside (hagents : s'.sim.agents = s.sim.agents)
    (hconfig : s'.sim.config.agent = s.sim.config.agent) : Move s s' :=
  .keep (fun e a ha => by rwa [hagents] at ha) hconfig

theorem agents_setAgent (s : Stage W M) (e : EntityId) (a : Agent W M) :
    (s.mapSim (·.setAgent e a)).sim.agents[e]? = some a := s.sim.agents_setAgent e a

/-- An agent that is put in its place twice is there as it was put last. -/
theorem setAgent_setAgent (s : Stage W M) (e : EntityId) (a b : Agent W M) :
    (s.mapSim (·.setAgent e a)).mapSim (·.setAgent e b) = s.mapSim (·.setAgent e b) := by
  simp only [mapSim, Simulation.setAgent, SortedMap.insert_insert]

theorem settle_setAgent (s : Stage W M) (e : EntityId) (a : Agent W M) (t : Turn W M) :
    (s.mapSim (·.setAgent e a)).settle e t = s.settle e t := by
  simp only [settle, mapSim, Simulation.setAgent, SortedMap.insert_insert]

/-- A call that brings no goal. -/
theorem Move.of_call (ha : s.sim.agents[e]? = some a) (tick : Tick) (call : Call)
    (hcall : ∀ goal merge, call ≠ .replanTo goal merge) :
    Move s (s.settle e ((s.turn e a tick).after call)) :=
  .call ha tick call fun goal merge h => absurd h (hcall goal merge)

/-- An event is recorded in the trace of an agent. -/
theorem Move.pushTrace (ha : s.sim.agents[e]? = some a) (event : TraceEvent) :
    Move s (s.mapSim (·.setAgent e (a.pushTrace event))) :=
  .write ha (.changeTrace (·.push event))

/-- An event is recorded in the trace of an agent that has just been put in its place. -/
theorem Moves.pushTrace (h : Moves s (s'.mapSim (·.setAgent e a))) (event : TraceEvent) :
    Moves s (s'.mapSim (·.setAgent e (a.pushTrace event))) := by
  have hnoted := Move.pushTrace (s'.agents_setAgent e a) event
  rw [setAgent_setAgent] at hnoted
  exact h.after hnoted

/-! ## operations -/

theorem moves_interruptAll (s : Stage W M) (tick : Tick) (pending : List EntityId) :
    Moves s (s.interruptAll tick pending) := by
  induction pending generalizing s with
  | nil => exact .refl s
  | cons e rest ih =>
      rw [interruptAll]
      split
      · exact ih s
      · next a ha =>
          rw [runTurn_snd]
          exact (Move.of_call ha tick .interrupt nofun).moves.trans (ih _)

theorem moves_applyInterrupts (s : Stage W M) (tick : Tick) : Moves s (s.applyInterrupts tick) := by
  have htaken : Move s (s.mapSim ({ · with commands := s.sim.commands.takeInterrupts.2 })) :=
    .aside rfl rfl
  exact htaken.moves.trans (moves_interruptAll _ tick _)

/-- A prototype is neither an agent nor a setting of agents. -/
theorem registerDefinition_eq (sim : Simulation W M) (d : Definition W M) :
    (sim.registerDefinition d).agents = sim.agents ∧
      (sim.registerDefinition d).config = sim.config := by
  rw [Simulation.registerDefinition]
  generalize d.data.entityTypes.keys = types
  induction types generalizing sim with
  | nil => exact ⟨rfl, rfl⟩
  | cons entityType rest ih => exact ih (sim.registerPrototype entityType d)

theorem moves_spawn (s : Stage W M) (e : EntityId) (entityType : String)
    (overrides : Option DefinitionOverrides) :
    Moves s (s.spawn e entityType overrides).2 := by
  rw [spawn]
  split
  · exact .refl s
  · next prototype _ =>
      simp only
      generalize s.sim.withDefaultBlackboardInit entityType _ = d
      have hnoted : Move s (s.mapSim fun sim =>
          { sim with spawns := sim.spawns.insert e { entityType, overrides } }) := .aside rfl rfl
      refine hnoted.moves.trans ?_
      generalize s.mapSim (fun sim =>
        { sim with spawns := sim.spawns.insert e { entityType, overrides } }) = s
      have hmade := Move.make s e entityType d
      split
      · next err a hload =>
          rw [hload] at hmade
          exact hmade.moves.pushTrace _
      · next a hload =>
          rw [hload] at hmade
          have hlaunched := Move.of_call (s.agents_setAgent e a) s.sim.scheduler.last
            .launch nofun
          rw [settle_setAgent] at hlaunched
          have hinterrupted := moves_applyInterrupts
            (s.runTurn e a s.sim.scheduler.last Turn.launch).2 s.sim.scheduler.last
          rw [runTurn_snd] at hinterrupted
          exact (hmade.moves.after hlaunched).trans hinterrupted

theorem moves_respawnAll (s : Stage W M) (records : List (EntityId × SpawnRecord)) :
    Moves s (s.respawnAll records) := by
  induction records generalizing s with
  | nil => exact .refl s
  | cons record rest ih => exact (s.moves_spawn _ _ _).trans (ih _)

theorem moves_applyReset (s : Stage W M) : Moves s s.applyReset := by
  have htaken : Move s (s.mapSim ({ · with commands := s.sim.commands.takeReset.2 })) :=
    .aside rfl rfl
  rw [applyReset]
  simp only
  split
  · exact htaken.moves.trans (moves_respawnAll _ _)
  · exact htaken.moves

/-- An agent that is dropped leaves the others as they are. -/
theorem Move.destroy (s : Stage W M) (e : EntityId) :
    Move s (s.mapSim fun sim => (sim.destroy e).2) := by
  refine .keep (fun e' a ha => ?_) rfl
  have herased : (s.sim.agents.erase e)[e']? = some a := ha
  rw [SortedMap.getElem?_erase] at herased
  split at herased
  · cases herased
  · exact herased

theorem moves_tickAll [World W] (s : Stage W M) (tick : Tick) (entities : List EntityId) :
    Moves s (s.tickAll tick entities) := by
  induction entities generalizing s with
  | nil => exact .refl s
  | cons e rest ih =>
      rw [tickAll]
      split
      · exact (Move.destroy s e).moves.trans (ih _)
      · refine .trans ?_ (ih _)
        refine .trans ?_ (moves_applyInterrupts _ _)
        split
        · next a ha =>
            rw [runTurn_snd]
            exact (Move.of_call ha tick .step nofun).moves
        · exact .refl s

theorem moves_update [World W] (s : Stage W M) (dt : Float32) : Moves s (s.update dt).2 := by
  rw [update]
  split
  · exact .refl s
  · have hadvanced : Move s (s.mapSim ({ · with scheduler := (s.sim.scheduler.advance dt).2 })) :=
      .aside rfl rfl
    simp only
    split
    · exact hadvanced.moves
    · exact (hadvanced.moves.trans (moves_applyReset _)).trans (moves_tickAll _ _ _)

/-- A call into an agent outside of the schedule. -/
theorem moves_callAgent (s : Stage W M) (e : EntityId) (tick : Tick)
    {f : Turn W M → α × Turn W M} (call : Call) (hf : ∀ t, t.after call = (f t).2)
    (hgoal : ∀ goal merge a, call = .replanTo goal merge → s.sim.agents[e]? = some a →
      ∃ (t : AtomTable) (pairs : List (String × Bool)), t.encode pairs = (.ok goal, a.atoms)) :
    Moves s (s.callAgent e tick f).2 := by
  rw [callAgent]
  split
  · exact .refl s
  · next a ha =>
      have hcalled := Move.call ha tick call fun goal merge h => hgoal goal merge a h ha
      rw [hf, ← runTurn_snd] at hcalled
      exact hcalled.moves.trans (moves_applyInterrupts _ _)

/-- What is done to the agent of an entity, if there is one. -/
theorem moves_onAgent (s : Stage W M) (e : EntityId)
    {f : Agent W M → Except AgentError α × Agent W M}
    (hf : ∀ a, s.sim.agents[e]? = some a → Moves s (s.mapSim (·.setAgent e (f a).2))) :
    Moves s { s with sim := (s.sim.onAgent e f).2 } := by
  rw [Simulation.onAgent]
  split
  · exact .refl s
  · next a ha => exact hf a ha

theorem moves_reloadActions (s : Stage W M) (e : EntityId) (specs : List ActionSpec) :
    Moves s { s with sim := (s.sim.reloadActions e specs).2 } := by
  rw [Simulation.reloadActions]
  refine s.moves_onAgent e fun a ha => ?_
  have hloaded := Move.load ha specs
  split
  · next b hload =>
      rw [hload] at hloaded
      exact hloaded.moves
  · next err b hload =>
      rw [hload] at hloaded
      exact hloaded.moves.pushTrace _

theorem moves_replanTo (s : Stage W M) (e : EntityId) (pairs : List (String × Bool))
    (merge : Bool) : Moves s (s.replanTo e pairs merge).2 := by
  rw [replanTo]
  cases hheld : s.sim.agents[e]? with
  | none =>
      simp only [Simulation.onAgent, hheld]
      exact .refl s
  | some a =>
      have hencoded := Move.write hheld (.encode pairs)
      rw [Agent.write] at hencoded
      simp only [Simulation.onAgent, hheld]
      cases hencode : a.encode pairs with
      | mk result b =>
          rw [hencode] at hencoded
          cases result with
          | error err => exact hencoded.moves
          | ok goal =>
              refine hencoded.moves.trans (moves_callAgent _ e _ (.replanTo goal merge)
                (fun _ => by rw [Turn.after]) ?_)
              intro goal' merge' b' hcall hb'
              cases hcall
              obtain rfl := Option.some.inj ((s.agents_setAgent e b).symm.trans hb')
              obtain ⟨hgoal, rfl⟩ := Prod.mk.inj hencode
              exact ⟨a.atoms, pairs, Prod.ext hgoal rfl⟩

/-- **Every operation is made of moves.** -/
theorem moves_perform [World W] (s : Stage W M) (op : Operation W M) : Moves s (s.perform op) := by
  cases op with
  | setTickRate seconds => exact Move.moves (.aside rfl rfl)
  | registerPrototype entityType d => exact Move.moves (.aside rfl rfl)
  | registerDefinition d =>
      obtain ⟨hagents, hconfig⟩ := registerDefinition_eq s.sim d
      exact Move.moves (.aside hagents (congrArg SimulationConfig.agent hconfig))
  | spawn e entityType overrides => exact s.moves_spawn e entityType overrides
  | destroy e => exact (Move.destroy s e).moves
  | shutdown => exact Move.moves (.keep (fun e a ha => by cases ha) rfl)
  | update dt => exact s.moves_update dt
  | tickEntity e dt =>
      exact s.moves_callAgent e _ .step (fun _ => by rw [Turn.after])
        fun _ _ _ h => by cases h
  | write e w => exact s.moves_onAgent e fun a ha => (Move.write ha w).moves
  | forceInterrupt e =>
      exact s.moves_callAgent e _ .interrupt (fun _ => by rw [Turn.after])
        fun _ _ _ h => by cases h
  | replanTo e pairs merge => exact s.moves_replanTo e pairs merge
  | reloadActions e specs => exact s.moves_reloadActions e specs
  | reportGoal e goal reason =>
      rw [perform, Simulation.reportGoal]
      exact s.moves_onAgent e fun a ha => (Move.pushTrace ha _).moves
  | setPaused paused => exact Move.moves (.aside rfl rfl)
  | requestReset => exact Move.moves (.aside rfl rfl)
  | changeWorld f => exact Move.moves (.aside rfl rfl)

end Stage

end PlanningAgents
