import PlanningAgents.CommandLine.Arguments
import PlanningAgents.Config.Codec
import PlanningAgents.Definition.Codec
import PlanningAgents.Files
import PlanningAgents.Json.Writer
import PlanningAgents.Simulation.Basic
import PlanningAgents.Trace.Codec

/-!
# PlanningAgents.CommandLine.Commands

The commands of the command line: `describe` lists the actions of a definition as the planner sees
them, `plan` plans for one entity type, and `simulate` lets entities of one type act in a world in
which every action takes a given number of ticks and then succeeds.

A command gives what it prints, or the chain of errors that stopped it.
-/

namespace PlanningAgents.CommandLine

/-- What stopped a command, from the outermost circumstance to the cause. -/
abbrev ErrorChain := List String

/-- The outcome of a command: what it prints. -/
abbrev Outcome := Except ErrorChain String

/-- Lets an error say under which circumstance it arose. -/
def within (circumstance : String) : Except AgentError α → Except ErrorChain α
  | .ok a => .ok a
  | .error e => .error [circumstance, e.message]

/-- Loads a value from a file. -/
def load {α : Type} [Decode α] (files : Files) (role : FileRole) (path : String) :
    Except ErrorChain α :=
  match files.load role path with
  | .ok a => .ok a
  | .error e => .error e.chain

/-- A line of output. -/
def line (s : String) : String := s ++ "\n"

/-! ## describing and planning -/

/-- Lists the actions of a definition. -/
def describe (files : Files) (config : SimulationConfig) (defs : String) : Outcome := do
  let data : DefinitionData ← load files .definitions defs
  let blank : Planner := { atoms := .ofCap config.agent.atomCap, config := config.agent.planner }
  let (added, planner) := (Planner.addSpecs data.actions).runOn blank
  within ("Invalid action set in " ++ defs) added
  return line (toString planner.actions.length ++ " actions, " ++ toString planner.atoms.size ++
    " atoms: " ++ ", ".intercalate planner.atoms.names) ++ planner.describe

/-- A world without places, in which every entity stays. -/
structure Void where
  deriving Inhabited

instance : World Void where

/-- What a plan looks like, or why there is none. -/
def describePlan (a : Agent Void Nat) (p : Plan) : Outcome :=
  match p.outcome with
  | .atGoal => .ok (line "already at goal")
  | .notFound => .error ["no plan reaches " ++ a.describeGoal]
  | .truncated => .error ["plan search hit the cap of " ++ toString p.cap ++ " actions"]
  | .found =>
    .ok (line ("plan cost = " ++ toString p.cost) ++
      String.join ((Agent.planLines a.atoms (fun _ => "") p).map line))

/-- Plans from the first state of an entity type to its goal, or to another one. -/
def plan (files : Files) (config : SimulationConfig) (defs entityType : String)
    (goal : List (String × Bool)) : Outcome := do
  let data : DefinitionData ← load files .definitions defs
  let agent : Agent Void Nat := .ofDefinition entityType { data } config.agent
  let (loaded, agent) := agent.loadDefinition
  within ("Cannot load '" ++ entityType ++ "' from " ++ defs) loaded
  let (replaced, agent) := if goal.isEmpty then (.ok (), agent) else agent.setGoal goal
  if let .error e := replaced then throw [e.message]
  describePlan agent (agent.planner.plan agent.current agent.goal)

/-! ## simulating -/

/-- The behaviour of an action that takes a number of ticks.  What its task remembers is how many of
them are left. -/
def timedAction (ticks : Nat) : ActionHandlers Void Nat :=
  { fresh := ticks
    resume := fun left =>
      match left with
      | 0 => .done (.returned .success)
      | left + 1 => .done (.yielded left) }

/-- The definition in which every action takes the same number of ticks. -/
def timedDefinition (data : DefinitionData) (ticks : Nat) : Definition Void Nat :=
  data.actions.foldl (fun d a => d.withAction a.name (timedAction ticks)) { data }

/-- The stage with another entity. -/
def addEntity (entityType : String) (s : Stage Void Nat) (e : EntityId) :
    Except ErrorChain (Stage Void Nat) := do
  let (spawned, s) := s.spawn e entityType none
  let _ ← within ("Cannot initialise entity #" ++ toString e.toNat) spawned
  return s

/-- The stage with a number of further entities, numbered on from the first.  It ends at the first
one that cannot be made. -/
def addEntities (entityType : String) (first count : Nat) (s : Stage Void Nat) :
    Except ErrorChain (Stage Void Nat) :=
  match count with
  | 0 => .ok s
  | count + 1 => do
    let s ← addEntity entityType s first.toUInt64
    addEntities entityType (first + 1) count s

/-- The stage on which entities of one type have acted for a number of ticks. -/
def perform (config : SimulationConfig) (data : DefinitionData) (entityType : String)
    (ticks actionTicks count : Nat) : Except ErrorChain (Stage Void Nat) := do
  let sim := (Simulation.ofConfig config).registerDefinition (timedDefinition data actionTicks)
  let stage ← addEntities entityType 1 count { sim, world := {} }
  return ticks.repeat (fun s => (s.update config.tickRate).2) stage

/-- What is printed of an entity at the end: its trace, its state and its plan. -/
def report (s : Simulation Void Nat) (json : Bool) (e : EntityId) : Outcome :=
  match s.agent e, s.describeAgent e with
  | .ok a, .ok state =>
    let events := a.trace.events.map fun t => if json then t.toJson.write else t.render
    .ok (line ("== entity #" ++ toString e.toNat) ++ String.join (events.map line) ++
      line state ++ a.describePlan)
  | .error e, _ | _, .error e => .error [e.message]

/-- Lets entities of one type act for a number of ticks.  Without entities there is nothing to see
of the ticks. -/
def simulate (files : Files) (config : SimulationConfig) (defs entityType : String)
    (ticks actionTicks count : Nat) (json : Bool) : Outcome := do
  let data : DefinitionData ← load files .definitions defs
  if !data.entityTypes.contains entityType then
    throw [defs ++ " has no entity type '" ++ entityType ++ "'"]
  if count = 0 then return ""
  let stage ← perform config data entityType ticks actionTicks count
  let entities := (List.range' 1 count).map Nat.toUInt64
  return String.join (← entities.mapM (report stage.sim json))

/-! ## command lines -/

/-- Carries out what a command line asks for. -/
def Invocation.run (i : Invocation) (files : Files) : Outcome := do
  let config ← match i.config with
    | none => pure {}
    | some path => load files .config path
  match i.command with
  | .describe defs => describe files config defs
  | .plan defs entityType goal => plan files config defs entityType goal
  | .simulate defs entityType ticks actionTicks count json =>
    simulate files config defs entityType ticks actionTicks count json

/-- The files that a command line may ask for. -/
def Invocation.paths (i : Invocation) : List String :=
  i.config.toList ++ match i.command with
    | .describe defs | .plan defs .. | .simulate defs .. => [defs]

/-- What is left behind by a run of the program. -/
structure Result where
  output : String := ""
  /-- From the outermost circumstance to the cause; empty after success. -/
  errors : ErrorChain := []
  exitCode : UInt8 := 0
  deriving DecidableEq, Repr

/-- Runs the program.  Arguments that cannot be used give the exit code 2, failures give 1. -/
def run (arguments : List String) (files : Files) : Result :=
  match parse arguments with
  | .error e => { errors := e.lines, exitCode := 2 }
  | .ok i =>
    match i.run files with
    | .error errors => { errors, exitCode := 1 }
    | .ok output => { output }

end PlanningAgents.CommandLine
