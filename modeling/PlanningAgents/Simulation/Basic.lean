import PlanningAgents.Agent.Turn
import PlanningAgents.Simulation.Scheduler

/-!
# PlanningAgents.Simulation

All agents of a world, ticked in the order of their entities.  A reset that is asked for waits for
the beginning of the next tick that is due; an interrupt that a handler asks for is carried out
once the call that it was asked in is over.
-/

namespace PlanningAgents

/-- How an entity was made, so that a reset can make it again. -/
structure SpawnRecord where
  entityType : String
  overrides : Option DefinitionOverrides
  deriving Inhabited

/-- The agents of a world. -/
structure Simulation (W M : Type) where
  agents : SortedMap EntityId (Agent W M) := .empty
  spawns : SortedMap EntityId SpawnRecord := .empty
  /-- By entity type. -/
  prototypes : SortedMap String (Definition W M) := .empty
  config : SimulationConfig
  scheduler : Scheduler
  commands : Commands := {}
  paused : Bool := false

/-- A simulation together with the world that it runs in. -/
structure Stage (W M : Type) where
  sim : Simulation W M
  world : W

namespace Simulation

variable {W M : Type}

/-- A simulation without agents. -/
def ofConfig (config : SimulationConfig) : Simulation W M :=
  { config, scheduler := .ofInterval config.tickRate }

/-- Changes the time between ticks. -/
def setTickRate (s : Simulation W M) (seconds : Float32) : Simulation W M :=
  { s with
    config := { s.config with tickRate := seconds }
    scheduler := s.scheduler.setInterval seconds }

/-- Makes a definition the prototype of one entity type. -/
def registerPrototype (s : Simulation W M) (entityType : String) (d : Definition W M) :
    Simulation W M :=
  { s with prototypes := s.prototypes.insert entityType d }

/-- Makes a definition the prototype of every entity type that it declares. -/
def registerDefinition (s : Simulation W M) (d : Definition W M) : Simulation W M :=
  d.data.entityTypes.keys.foldl (fun s t => s.registerPrototype t d) s

/-- Serves an entity type without a seeding of its own by the configured one. -/
def withDefaultBlackboardInit (s : Simulation W M) (entityType : String) (d : Definition W M) :
    Definition W M :=
  let key := s.config.defaultBlackboardInit
  let inits := d.bindings.blackboardInit
  if key = defaultBinding || inits.contains entityType then d
  else match inits[key]? with
    | none => d
    | some h => d.withBlackboardInit entityType h

/-- The agent of an entity. -/
def agent (s : Simulation W M) (e : EntityId) : Except AgentError (Agent W M) :=
  match s.agents[e]? with
  | some a => .ok a
  | none => .error (.unknownEntity e)

/-- Changes the agent of an entity. -/
def setAgent (s : Simulation W M) (e : EntityId) (a : Agent W M) : Simulation W M :=
  { s with agents := s.agents.insert e a }

/-- Runs an operation on the agent of an entity. -/
def onAgent (s : Simulation W M) (e : EntityId)
    (f : Agent W M → Except AgentError α × Agent W M) : Except AgentError α × Simulation W M :=
  match s.agents[e]? with
  | none => (.error (.unknownEntity e), s)
  | some a =>
    let (r, a) := f a
    (r, s.setAgent e a)

/-- Drops the agent of an entity; tells whether there was one. -/
def destroy (s : Simulation W M) (e : EntityId) : Bool × Simulation W M :=
  (s.agents.contains e, { s with agents := s.agents.erase e, spawns := s.spawns.erase e })

/-- Drops every agent, every prototype and every request. -/
def shutdown (s : Simulation W M) : Simulation W M :=
  { s with agents := .empty, spawns := .empty, prototypes := .empty, commands := {} }

/-- Replaces the actions of a live agent, which plans anew on its next tick. -/
def reloadActions (s : Simulation W M) (e : EntityId) (specs : List ActionSpec) :
    Except AgentError Unit × Simulation W M :=
  let tick := s.scheduler.last
  s.onAgent e fun a =>
    match a.loadActions specs with
    | (.ok (), a) => (.ok (), a)
    | (.error err, a) =>
      let event : TraceEvent := { kind := .planFailed, entity := e, message := "reload failed" }
      (.error err,
        a.pushTrace ((event.dated tick.index tick.time).withExtra "error" err.message))

/-- Records a choice of goal that was made outside of the agent. -/
def reportGoal (s : Simulation W M) (e : EntityId) (goal reason : String) :
    Except AgentError Unit × Simulation W M :=
  let tick := s.scheduler.last
  s.onAgent e fun a =>
    let event : TraceEvent := { kind := .goalSelected, entity := e, message := goal }
    (.ok (), a.pushTrace ((event.dated tick.index tick.time).withExtra "reason" reason))

/-- Asks for a reset of every agent at the beginning of the next tick that is due. -/
def requestReset (s : Simulation W M) : Simulation W M :=
  { s with commands := s.commands.requestReset }

/-- The current state and the goal of an agent, a line each. -/
def describeAgent (s : Simulation W M) (e : EntityId) : Except AgentError String := do
  let a ← s.agent e
  return "state: " ++ a.describeState ++ "\ngoal: " ++ a.describeGoal

end Simulation

namespace Stage

variable {W M α : Type}

/-- Changes the simulation. -/
def mapSim (s : Stage W M) (f : Simulation W M → Simulation W M) : Stage W M :=
  { s with sim := f s.sim }

/-- Runs a call into an agent, which is in its place again afterwards. -/
def runTurn (s : Stage W M) (e : EntityId) (a : Agent W M) (tick : Tick)
    (f : Turn W M → α × Turn W M) : α × Stage W M :=
  let (r, t) := f
    { agent := a, entity := e, tick, world := s.world, commands := s.sim.commands }
  (r, { sim := { s.sim.setAgent e t.agent with commands := t.commands }, world := t.world })

/-- Interrupts entities in order; those without an agent are passed over. -/
def interruptAll (s : Stage W M) (tick : Tick) : List EntityId → Stage W M
  | [] => s
  | e :: rest =>
    match s.sim.agents[e]? with
    | none => s.interruptAll tick rest
    | some a => (s.runTurn e a tick Turn.interrupt).2.interruptAll tick rest

/-- Carries out the interrupts that are pending now.  Those that are asked for meanwhile wait. -/
def applyInterrupts (s : Stage W M) (tick : Tick) : Stage W M :=
  let (pending, commands) := s.sim.commands.takeInterrupts
  (s.mapSim ({ · with commands })).interruptAll tick pending

/-- Makes the agent of an entity, in place of an earlier one.  A definition that cannot be loaded
still leaves an agent, so that one can see what went wrong. -/
def spawn (s : Stage W M) (e : EntityId) (entityType : String)
    (overrides : Option DefinitionOverrides) :
    Except AgentError (Option PlanOutcome) × Stage W M :=
  match s.sim.prototypes[entityType]? with
  | none => (.error (.unknownType entityType), s)
  | some prototype =>
    let d := match overrides with
      | some o => prototype.withOverrides o
      | none => prototype
    let d := s.sim.withDefaultBlackboardInit entityType d
    let s := s.mapSim fun sim =>
      { sim with spawns := sim.spawns.insert e { entityType, overrides } }
    let tick := s.sim.scheduler.last
    match (Agent.ofDefinition entityType d s.sim.config.agent).loadDefinition with
    | (.error err, a) =>
      let event : TraceEvent := { kind := .planFailed, entity := e, message := "init failed" }
      let event := (event.dated tick.index tick.time).withExtra "error" err.message
      (.error err, s.mapSim (·.setAgent e (a.pushTrace event)))
    | (.ok (), a) =>
      let (outcome, s) := s.runTurn e a tick Turn.launch
      (.ok outcome, s.applyInterrupts tick)

/-- Makes recorded entities again, in order. -/
def respawnAll (s : Stage W M) : List (EntityId × SpawnRecord) → Stage W M
  | [] => s
  | (e, r) :: rest => (s.spawn e r.entityType r.overrides).2.respawnAll rest

/-- Carries out a pending reset. -/
def applyReset (s : Stage W M) : Stage W M :=
  let (wanted, commands) := s.sim.commands.takeReset
  let s := s.mapSim ({ · with commands })
  if wanted then s.respawnAll s.sim.spawns.toList else s

/-- Ticks entities in order.  Those that the world no longer holds are dropped instead. -/
def tickAll [World W] (s : Stage W M) (tick : Tick) : List EntityId → Stage W M
  | [] => s
  | e :: rest =>
    if !World.isValid s.world e then (s.mapSim fun sim => (sim.destroy e).2).tickAll tick rest
    else
      let s := match s.sim.agents[e]? with
        | some a => (s.runTurn e a tick Turn.step).2
        | none => s
      (s.applyInterrupts tick).tickAll tick rest

/-- Feeds frame time.  When a tick is due, a pending reset is carried out and every agent is ticked
once. -/
def update [World W] (s : Stage W M) (dt : Float32) : Option Tick × Stage W M :=
  if s.sim.paused then (none, s)
  else
    let (due, scheduler) := s.sim.scheduler.advance dt
    let s := s.mapSim ({ · with scheduler })
    match due with
    | none => (none, s)
    | some tick =>
      let s := s.applyReset
      (some tick, s.tickAll tick s.sim.agents.keys)

/-- Calls into the agent of one entity outside of the schedule. -/
def callAgent (s : Stage W M) (e : EntityId) (tick : Tick) (f : Turn W M → α × Turn W M) :
    Except AgentError α × Stage W M :=
  match s.sim.agents[e]? with
  | none => (.error (.unknownEntity e), s)
  | some a =>
    let (r, s) := s.runTurn e a tick f
    (.ok r, s.applyInterrupts tick)

/-- Ticks one entity outside of the schedule, at the time of the last tick. -/
def tickEntity (s : Stage W M) (e : EntityId) (dt : Float32) :
    Except AgentError TickOutcome × Stage W M :=
  s.callAgent e { s.sim.scheduler.last with dt } Turn.step

/-- Interrupts one entity right away. -/
def forceInterrupt (s : Stage W M) (e : EntityId) :
    Except AgentError (Option PlanOutcome) × Stage W M :=
  s.callAgent e s.sim.scheduler.last Turn.interrupt

/-- Replaces an agent's goal, or merges into it, and plans for it right away.  Names registered
while the goal is encoded stay, even when that fails. -/
def replanTo (s : Stage W M) (e : EntityId) (pairs : List (String × Bool)) (merge : Bool) :
    Except AgentError PlanOutcome × Stage W M :=
  match s.sim.onAgent e (·.encode pairs) with
  | (.error err, sim) => (.error err, { s with sim })
  | (.ok goal, sim) =>
    { s with sim }.callAgent e sim.scheduler.last fun t => t.replanTo goal merge

end Stage

end PlanningAgents
