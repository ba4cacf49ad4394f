import PlanningAgents.Proofs.Agent.Requests
import PlanningAgents.Proofs.Simulation.Run

/-!
# PlanningAgents.Proofs.Simulation.History

What happens while operations are carried out on a stage: which agents are made and dropped, which
calls begin and end and what is asked for in them, and when interrupts that have been asked for are
gathered and carried out.  The happenings follow the operations part by part.  That an operation
comes to its end through them, and through nothing else, is shown in the docket
(`Docket.steps_history`), which goes by them step by step.

Main statements:

* `Happening` — what happens on a stage;
* `Stage.happenings` — the happenings of one operation, after it has been set about;
* `Stage.history` — the happenings of operations in a row.
-/

namespace PlanningAgents

variable {W M α : Type}

/-! ## happenings -/

/-- Why an agent is called. -/
inductive Cause where
  /-- It has just been made. -/
  | spawned
  /-- It is its turn in a tick of all agents. -/
  | due
  /-- It is ticked outside of the schedule. -/
  | ticked
  /-- An interrupt has been forced from outside. -/
  | forced
  /-- An interrupt has been asked for by a handler. -/
  | asked
  /-- A goal has been given from outside. -/
  | directed (goal : WorldState) (merge : Bool)
  deriving DecidableEq, Repr

/-- The call that is made. -/
def Cause.call : Cause → Call
  | .spawned => .launch
  | .due | .ticked => .step
  | .forced | .asked => .interrupt
  | .directed goal merge => .replanTo goal merge

/-- What an operation calls an agent for.  Interrupts that handlers ask for are no part of this. -/
inductive Operation.Calls : Operation W M → EntityId → Cause → Prop
  | spawn (e : EntityId) (entityType : String) (overrides : Option DefinitionOverrides) :
      Calls (.spawn e entityType overrides) e .spawned
  | reset (dt : Float32) (e : EntityId) : Calls (.update dt) e .spawned
  | update (dt : Float32) (e : EntityId) : Calls (.update dt) e .due
  | tickEntity (e : EntityId) (dt : Float32) : Calls (.tickEntity e dt) e .ticked
  | forceInterrupt (e : EntityId) : Calls (.forceInterrupt e) e .forced
  | replanTo (e : EntityId) (pairs : List (String × Bool)) (goal : WorldState) (merge : Bool) :
      Calls (.replanTo e pairs merge) e (.directed goal merge)

/-- What happens on a stage. -/
inductive Happening (W M : Type) where
  /-- An operation is set about. -/
  | performed (op : Operation W M)
  /-- A tick of all agents begins. -/
  | dispatched (tick : Tick)
  /-- The pending reset is carried out. -/
  | reset
  /-- An agent is made of a definition, in place of an earlier one. -/
  | made (e : EntityId) (r : SpawnRecord) (d : Definition W M)
  /-- The agent of an entity that the world does not hold is dropped. -/
  | dropped (e : EntityId) (world : W)
  /-- A call begins. -/
  | began (cause : Cause) (t : Turn W M)
  /-- A handler of the call that is running asks for something. -/
  | requested (r : Request)
  /-- The call that is running ends. -/
  | ended (e : EntityId)
  /-- The interrupts that are pending are taken, to be carried out. -/
  | gathered
  /-- An interrupt that has been taken finds no agent. -/
  | missed (e : EntityId)

/-- Something has happened, and nothing of another kind has happened since. -/
def Outstanding (p : List α → α → Prop) (q : α → Prop) (h : List α) : Prop :=
  ∃ before x after, h = before ++ x :: after ∧ p before x ∧ ∀ y ∈ after, ¬ q y

/-- What is outstanding has happened just now, or was outstanding before. -/
theorem outstanding_concat {p : List α → α → Prop} {q : α → Prop} (h : List α) (x : α) :
    Outstanding p q (h ++ [x]) ↔ p h x ∨ (Outstanding p q h ∧ ¬ q x) := by
  constructor
  · rintro ⟨before, y, after, hsplit, hy, hafter⟩
    rcases List.eq_nil_or_concat after with rfl | ⟨init, z, rfl⟩
    · obtain ⟨rfl, hlast⟩ := List.append_inj' hsplit rfl
      cases hlast
      exact .inl hy
    · rw [List.concat_eq_append, ← List.cons_append, ← List.append_assoc] at hsplit
      obtain ⟨rfl, hlast⟩ := List.append_inj' hsplit rfl
      cases hlast
      simp only [List.concat_eq_append, List.mem_append, List.mem_singleton] at hafter
      exact .inr ⟨⟨before, y, init, rfl, hy, fun w hw => hafter w (.inl hw)⟩, hafter x (.inr rfl)⟩
  · rintro (hx | ⟨⟨before, y, after, rfl, hy, hafter⟩, hx⟩)
    · exact ⟨h, x, [], rfl, hx, nofun⟩
    · refine ⟨before, y, after ++ [x], by rw [List.append_assoc, List.cons_append], hy, ?_⟩
      intro z hz
      rcases List.mem_append.mp hz with hz | hz
      · exact hafter z hz
      · exact List.mem_singleton.mp hz ▸ hx

/-- Nothing is outstanding in the beginning. -/
theorem not_outstanding_nil {p : List α → α → Prop} {q : α → Prop} : ¬ Outstanding p q [] := by
  rintro ⟨before, x, after, hsplit, -⟩
  exact List.append_ne_nil_of_right_ne_nil before (List.cons_ne_nil x after) hsplit.symm

/-- What happens in a call. -/
def Turn.happenings (t : Turn W M) (cause : Cause) : List (Happening W M) :=
  .began cause t :: ((t.requests cause.call).map .requested ++ [.ended t.entity])

namespace Simulation

/-- What is done to the agent of an entity is done to nothing else. -/
theorem onAgent_cases (s : Simulation W M) (e : EntityId)
    (f : Agent W M → Except AgentError α × Agent W M) :
    (s.onAgent e f).2 = s ∨ ∃ a b : Agent W M, s.agents[e]? = some a ∧
      (s.onAgent e f).2 = s.setAgent e b := by
  rw [onAgent]
  cases ha : s.agents[e]? with
  | none => exact .inl rfl
  | some a => exact .inr ⟨a, (f a).2, rfl, rfl⟩

theorem commands_onAgent (s : Simulation W M) (e : EntityId)
    (f : Agent W M → Except AgentError α × Agent W M) :
    (s.onAgent e f).2.commands = s.commands := by
  obtain hsame | ⟨a, b, -, hset⟩ := s.onAgent_cases e f
  · rw [hsame]
  · rw [hset]
    rfl

/-- A definition that is registered becomes a prototype, and nothing else. -/
theorem registerDefinition_aside (s : Simulation W M) (d : Definition W M) :
    s.registerDefinition d =
      { s with prototypes := (s.registerDefinition d).prototypes } := by
  rw [registerDefinition]
  generalize d.data.entityTypes.keys = types
  induction types generalizing s with
  | nil => rfl
  | cons entityType rest ih =>
      have hrest := ih (s.registerPrototype entityType d)
      rw [List.foldl_cons, hrest]
      rfl

end Simulation

namespace Stage

/-! ## interrupts -/

/-- The stage behind a call into the agent of an entity. -/
def afterCall (s : Stage W M) (e : EntityId) (a : Agent W M) (tick : Tick) (call : Call) :
    Stage W M :=
  s.settle e ((s.turn e a tick).after call)

/-- The stage with no interrupts pending. -/
def gathered (s : Stage W M) : Stage W M :=
  s.mapSim ({ · with commands := s.sim.commands.takeInterrupts.2 })

/-- What happens when entities are interrupted in order. -/
def interrupting (s : Stage W M) (tick : Tick) : List EntityId → List (Happening W M)
  | [] => []
  | e :: rest =>
    match s.sim.agents[e]? with
    | none => .missed e :: s.interrupting tick rest
    | some a =>
      (s.turn e a tick).happenings .asked ++
        (s.afterCall e a tick .interrupt).interrupting tick rest

/-- What happens when the interrupts that are pending are carried out. -/
def gathering (s : Stage W M) (tick : Tick) : List (Happening W M) :=
  .gathered :: s.gathered.interrupting tick s.sim.commands.interrupts

/-- What happens when the agent of an entity is called and interrupts are carried out then. -/
def calling (s : Stage W M) (e : EntityId) (tick : Tick) (cause : Cause) : List (Happening W M) :=
  match s.sim.agents[e]? with
  | none => []
  | some a => (s.turn e a tick).happenings cause ++ (s.afterCall e a tick cause.call).gathering tick

theorem interruptAll_cons_none {s : Stage W M} {e : EntityId} (ha : s.sim.agents[e]? = none)
    (tick : Tick) (rest : List EntityId) :
    s.interruptAll tick (e :: rest) = s.interruptAll tick rest := by
  rw [interruptAll, ha]

theorem interruptAll_cons_some {s : Stage W M} {e : EntityId} {a : Agent W M}
    (ha : s.sim.agents[e]? = some a) (tick : Tick) (rest : List EntityId) :
    s.interruptAll tick (e :: rest) =
      (s.afterCall e a tick .interrupt).interruptAll tick rest := by
  rw [interruptAll, ha]
  rfl

theorem applyInterrupts_eq (s : Stage W M) (tick : Tick) :
    s.applyInterrupts tick = s.gathered.interruptAll tick s.sim.commands.interrupts := rfl

theorem callAgent_of_none {s : Stage W M} {e : EntityId} (ha : s.sim.agents[e]? = none)
    (tick : Tick) (f : Turn W M → α × Turn W M) : (s.callAgent e tick f).2 = s := by
  rw [callAgent, ha]

theorem callAgent_of_some {s : Stage W M} {e : EntityId} {a : Agent W M}
    (ha : s.sim.agents[e]? = some a) (tick : Tick) {f : Turn W M → α × Turn W M} {call : Call}
    (hf : ∀ t, t.after call = (f t).2) :
    (s.callAgent e tick f).2 = (s.afterCall e a tick call).applyInterrupts tick := by
  rw [callAgent, ha, afterCall, hf]
  rfl

/-! ## agents that are made -/

/-- The definition of which a recorded agent is made now. -/
def definition? (s : Stage W M) (r : SpawnRecord) : Option (Definition W M) :=
  s.sim.prototypes[r.entityType]?.map fun prototype =>
    s.sim.withDefaultBlackboardInit r.entityType
      (match r.overrides with
      | some o => prototype.withOverrides o
      | none => prototype)

/-- What agents are made of depends on the prototypes and the settings. -/
theorem definition?_of_eq {s s' : Stage W M} (hprototypes : s'.sim.prototypes = s.sim.prototypes)
    (hconfig : s'.sim.config = s.sim.config) (r : SpawnRecord) :
    s'.definition? r = s.definition? r := by
  have hinit (d : Definition W M) : s'.sim.withDefaultBlackboardInit r.entityType d =
      s.sim.withDefaultBlackboardInit r.entityType d := by
    rw [Simulation.withDefaultBlackboardInit, Simulation.withDefaultBlackboardInit, hconfig]
  rw [definition?, definition?, hprototypes]
  simp only [hinit]

/-- Loads a definition into a new agent. -/
def load (s : Stage W M) (r : SpawnRecord) (d : Definition W M) :
    Except AgentError Unit × Agent W M :=
  (Agent.ofDefinition r.entityType d s.sim.config.agent).loadDefinition

theorem load_of_eq {s s' : Stage W M} (hconfig : s'.sim.config = s.sim.config) (r : SpawnRecord)
    (d : Definition W M) : s'.load r d = s.load r d := by
  rw [load, load, hconfig]

/-- An agent as it is left behind by a definition, whether or not that can be loaded. -/
def fresh (s : Stage W M) (e : EntityId) (r : SpawnRecord) (d : Definition W M) : Agent W M :=
  match s.load r d with
  | (.ok (), a) => a
  | (.error err, a) =>
    let event : TraceEvent := { kind := .planFailed, entity := e, message := "init failed" }
    let last := s.sim.scheduler.last
    a.pushTrace ((event.dated last.index last.time).withExtra "error" err.message)

/-- The stage with an agent made, and how it was made. -/
def install (s : Stage W M) (e : EntityId) (r : SpawnRecord) (d : Definition W M) : Stage W M :=
  (s.mapSim fun sim => { sim with spawns := sim.spawns.insert e r }).mapSim
    (·.setAgent e (s.fresh e r d))

/-- What happens when an agent is made. -/
def spawning (s : Stage W M) (e : EntityId) (r : SpawnRecord) : List (Happening W M) :=
  match s.definition? r with
  | none => []
  | some d =>
    .made e r d ::
      match (s.load r d).1 with
      | .error _ => []
      | .ok () => (s.install e r d).calling e s.sim.scheduler.last .spawned

/-- An agent is made, and then called unless its definition cannot be loaded. -/
theorem spawn_eq (s : Stage W M) (e : EntityId) (entityType : String)
    (overrides : Option DefinitionOverrides) :
    (s.spawn e entityType overrides).2 =
      match s.definition? { entityType, overrides } with
      | none => s
      | some d =>
        match (s.load { entityType, overrides } d).1 with
        | .error _ => s.install e { entityType, overrides } d
        | .ok () => ((s.install e { entityType, overrides } d).callAgent e s.sim.scheduler.last
            Turn.launch).2 := by
  rw [spawn, definition?]
  cases s.sim.prototypes[entityType]? with
  | none => rfl
  | some prototype =>
      simp only [Option.map_some]
      generalize s.sim.withDefaultBlackboardInit entityType _ = d
      have hload : s.load { entityType, overrides } d =
        (Agent.ofDefinition entityType d s.sim.config.agent).loadDefinition := rfl
      cases hmade : (Agent.ofDefinition entityType d s.sim.config.agent).loadDefinition with
      | mk result a =>
          rw [hmade] at hload
          cases result with
          | error err => simp only [install, fresh, hload, mapSim, hmade]
          | ok done =>
              have hplace : (s.install e { entityType, overrides } d).sim.agents[e]? = some a := by
                rw [install, agents_setAgent, fresh, hload]
              rw [hload]
              simp only [callAgent, hplace, mapSim, hmade]
              rw [install, fresh, hload, runTurn_snd, runTurn_snd, settle_setAgent]
              rfl

/-- What happens when recorded agents are made again, in order. -/
def restoring (s : Stage W M) : List (EntityId × SpawnRecord) → List (Happening W M)
  | [] => []
  | (e, r) :: rest =>
    s.spawning e r ++ (s.spawn e r.entityType r.overrides).2.restoring rest

/-- The stage with no reset pending. -/
def withoutReset (s : Stage W M) : Stage W M :=
  s.mapSim ({ · with commands := s.sim.commands.takeReset.2 })

/-- What happens when a pending reset is carried out. -/
def resetting (s : Stage W M) : List (Happening W M) :=
  if s.sim.commands.resetRequested then .reset :: s.withoutReset.restoring s.sim.spawns.toList
  else []

theorem applyReset_eq (s : Stage W M) : s.applyReset =
    if s.sim.commands.resetRequested then s.withoutReset.respawnAll s.sim.spawns.toList
    else s.withoutReset := rfl

/-! ## ticks -/

section Ticks

variable [World W]

/-- The stage behind one entity's turn in a tick of all agents. -/
def visit (s : Stage W M) (tick : Tick) (e : EntityId) : Stage W M :=
  if !World.isValid s.world e then s.mapSim fun sim => (sim.destroy e).2
  else match s.sim.agents[e]? with
    | none => s.applyInterrupts tick
    | some a => (s.afterCall e a tick .step).applyInterrupts tick

/-- What happens in one entity's turn. -/
def visiting (s : Stage W M) (tick : Tick) (e : EntityId) : List (Happening W M) :=
  if !World.isValid s.world e then [.dropped e s.world]
  else match s.sim.agents[e]? with
    | none => s.gathering tick
    | some a => (s.turn e a tick).happenings .due ++ (s.afterCall e a tick .step).gathering tick

/-- What happens when every entity has its turn. -/
def ticking (s : Stage W M) (tick : Tick) : List EntityId → List (Happening W M)
  | [] => []
  | e :: rest => s.visiting tick e ++ (s.visit tick e).ticking tick rest

/-- A tick of all agents gives every entity its turn. -/
theorem tickAll_cons (s : Stage W M) (tick : Tick) (e : EntityId) (rest : List EntityId) :
    s.tickAll tick (e :: rest) = (s.visit tick e).tickAll tick rest := by
  rw [tickAll, visit]
  split
  · rfl
  · cases s.sim.agents[e]? with
    | none => rfl
    | some a => rfl

end Ticks

/-- Feeds frame time without ticking; tells the tick that is due. -/
def advance (s : Stage W M) (dt : Float32) : Option Tick × Stage W M :=
  if s.sim.paused then (none, s)
  else
    let (due, scheduler) := s.sim.scheduler.advance dt
    (due, s.mapSim ({ · with scheduler }))

/-- A tick that is due goes to all agents, behind a pending reset. -/
theorem update_eq [World W] (s : Stage W M) (dt : Float32) :
    s.update dt = ((s.advance dt).1,
      match s.advance dt with
      | (none, u) => u
      | (some tick, u) => u.applyReset.tickAll tick u.applyReset.sim.agents.keys) := by
  rw [update, advance]
  split
  · rfl
  · simp only
    cases s.sim.scheduler.advance dt with
    | mk due scheduler =>
        cases due with
        | none => rfl
        | some tick => rfl

/-! ## operations -/

/-- Encodes a goal for the agent of an entity. -/
def encodeGoal (s : Stage W M) (e : EntityId) (pairs : List (String × Bool)) :
    Except AgentError WorldState × Stage W M :=
  let (result, sim) := s.sim.onAgent e (·.encode pairs)
  (result, { s with sim })

theorem replanTo_eq (s : Stage W M) (e : EntityId) (pairs : List (String × Bool)) (merge : Bool) :
    (s.replanTo e pairs merge).2 =
      match s.encodeGoal e pairs with
      | (.error _, u) => u
      | (.ok goal, u) => (u.callAgent e u.sim.scheduler.last (·.replanTo goal merge)).2 := by
  rw [replanTo, encodeGoal]
  cases s.sim.onAgent e (·.encode pairs) with
  | mk result sim =>
      cases result with
      | error err => rfl
      | ok goal => rfl

section Operations

variable [World W]

/-- The stage with an operation set about, as far as it goes before anything happens. -/
def outset (s : Stage W M) (op : Operation W M) : Stage W M :=
  match op with
  | .spawn _ _ _ | .tickEntity _ _ | .forceInterrupt _ => s
  | .update dt => (s.advance dt).2
  | .replanTo e pairs _ => (s.encodeGoal e pairs).2
  | _ => s.perform op

/-- No operation touches the commands when it is set about, unless that is what it is for. -/
theorem commands_outset (s : Stage W M) (op : Operation W M) :
    (s.outset op).sim.commands =
      match op with
      | .shutdown => {}
      | .requestReset => s.sim.commands.requestReset
      | _ => s.sim.commands := by
  cases op with
  | update dt =>
      simp only [outset, advance]
      split
      · rfl
      · rfl
  | registerDefinition d =>
      simp only [outset, perform, mapSim]
      rw [Simulation.registerDefinition_aside]
  | write e w => exact s.sim.commands_onAgent _ _
  | replanTo e pairs merge => exact s.sim.commands_onAgent e (·.encode pairs)
  | reloadActions e specs => exact s.sim.commands_onAgent _ _
  | reportGoal e goal reason => exact s.sim.commands_onAgent _ _
  | _ => rfl

/-- **What happens when an operation is carried out**, after it has been set about. -/
def happenings (s : Stage W M) (op : Operation W M) : List (Happening W M) :=
  match op with
  | .spawn e entityType overrides => s.spawning e { entityType, overrides }
  | .update dt =>
    match s.advance dt with
    | (none, _) => []
    | (some tick, u) =>
      .dispatched tick ::
        (u.resetting ++ u.applyReset.ticking tick u.applyReset.sim.agents.keys)
  | .tickEntity e dt => s.calling e { s.sim.scheduler.last with dt } .ticked
  | .forceInterrupt e => s.calling e s.sim.scheduler.last .forced
  | .replanTo e pairs merge =>
    match s.encodeGoal e pairs with
    | (.error _, _) => []
    | (.ok goal, u) => u.calling e u.sim.scheduler.last (.directed goal merge)
  | _ => []

/-- **What happens when operations are carried out** in a row. -/
def history (s : Stage W M) : List (Operation W M) → List (Happening W M)
  | [] => []
  | op :: rest => .performed op :: (s.happenings op ++ (s.perform op).history rest)

/-- Operations in a row have the histories of their parts. -/
theorem history_append (s : Stage W M) (ops ops' : List (Operation W M)) :
    s.history (ops ++ ops') = s.history ops ++ (ops.foldl Stage.perform s).history ops' := by
  induction ops generalizing s with
  | nil => rfl
  | cons op rest ih => simp only [List.cons_append, history, ih, List.foldl_cons, List.append_assoc]

end Operations

end Stage

end PlanningAgents
