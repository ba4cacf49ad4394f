import PlanningAgents.Agent.Behavior
import PlanningAgents.Planner.Basic

/-!
# PlanningAgents.Agent

The planning and acting state of one entity, and how definitions are loaded into it.  Loading is all
or nothing: a load that fails only marks the agent as dirty.

Main statements:

* `Agent.loadActions_error`, `Agent.loadWorldState_error` — after a failed load only the dirty mark
  differs.
-/

namespace PlanningAgents

/-- The life of a queued action. -/
inductive ActionPhase where
  | created
  | running
  /-- Running, with its task parked. -/
  | suspended
  | succeeded
  | failed
  | aborted
  deriving DecidableEq, Repr, Inhabited

/-- The name of a phase. -/
def ActionPhase.name : ActionPhase → String
  | .created => "Created"
  | .running => "Running"
  | .suspended => "Suspended"
  | .succeeded => "Succeeded"
  | .failed => "Failed"
  | .aborted => "Aborted"

/-- One step of the plan that is being carried out. -/
structure ActionRecord (W M : Type) where
  name : String
  /-- The place of the action in its plan. -/
  planIndex : Nat
  handlers : ActionHandlers W M
  /-- The memory of the parked task. -/
  task : Option M := none
  post : WorldState
  watchMask : UInt64
  phase : ActionPhase := .created

/-- Whether the action has been started and is not over. -/
def ActionRecord.isRunning (r : ActionRecord W M) : Bool :=
  r.phase = .running || r.phase = .suspended

/-- The state of one entity. -/
structure Agent (W M : Type) where
  entityType : String
  definition : Definition W M
  planner : Planner
  current : WorldState := .empty
  /-- The current state as the last tick left it. -/
  cached : WorldState := .empty
  planStart : WorldState := .empty
  goal : WorldState := .empty
  plan : Plan
  actionIndex : Nat := 0
  retries : UInt32 := 0
  maxRetries : UInt32
  /-- Whether there is no usable plan. -/
  dirty : Bool := true
  queue : List (ActionRecord W M) := []
  blackboard : Blackboard := .empty
  trace : TraceBuffer
  actionsetVersion : UInt32 := 0
  atomSchemaVersion : UInt32 := 0

namespace Agent

variable {W M : Type}

/-- An agent into which nothing has been loaded. -/
def ofDefinition (entityType : String) (definition : Definition W M) (config : AgentConfig) :
    Agent W M :=
  { entityType, definition
    planner :=
      { atoms := .ofCap config.atomCap config.autoRegisterAtoms, config := config.planner }
    plan := .notFound config.planner.maxPlanLen.toNat
    maxRetries := definition.data.maxRetries.getD config.maxRetries
    trace := .ofCapacity config.traceCapacity }

/-- The names of the agent's atoms. -/
def atoms (a : Agent W M) : AtomTable := a.planner.atoms

/-- Replaces the names of the agent's atoms. -/
def withAtoms (a : Agent W M) (atoms : AtomTable) : Agent W M :=
  { a with planner := { a.planner with atoms } }

/-! ## loading -/

/-- The four states of an agent, in the terms of one table. -/
structure Reencoded where
  current : WorldState
  cached : WorldState
  planStart : WorldState
  goal : WorldState

/-- A planner for authored actions, with the agent's states in its terms. -/
def buildPlanner (a : Agent W M) (specs : List ActionSpec) :
    Except AgentError (Planner × Reencoded) := do
  let old := a.planner.atoms
  let blank : Planner :=
    { atoms := .ofCap old.cap old.autoRegister, config := a.planner.config }
  let (outcome, planner) := (Planner.addSpecs specs).runOn blank
  outcome
  let (current, atoms) := a.current.remap old planner.atoms
  let current ← current
  let (cached, atoms) := a.cached.remap old atoms
  let cached ← cached
  let (planStart, atoms) := a.planStart.remap old atoms
  let planStart ← planStart
  let (goal, atoms) := a.goal.remap old atoms
  let goal ← goal
  return ({ planner with atoms }, { current, cached, planStart, goal })

/-- Replaces the action set.  The states keep their meaning, and the plan is dropped. -/
def loadActions (a : Agent W M) (specs : List ActionSpec) : Except AgentError Unit × Agent W M :=
  match a.buildPlanner specs with
  | .error e => (.error e, { a with dirty := true })
  | .ok (planner, states) =>
    (.ok (),
      { a with
        planner
        definition.data.actions := specs
        current := states.current
        cached := states.cached
        planStart := states.planStart
        goal := states.goal
        queue := []
        plan := .notFound planner.maxPlanLen
        actionIndex := 0
        retries := 0
        dirty := true
        actionsetVersion := a.actionsetVersion + 1 })

/-- The first state and the goal of an entity type, with the table that names their atoms. -/
def encodeType (a : Agent W M) (spec : EntityTypeSpec) :
    Except AgentError (WorldState × WorldState × AtomTable) := do
  let (initial, atoms) := a.planner.atoms.encodeRegistering spec.initial.toList
  let initial ← initial
  let (goal, atoms) := atoms.encodeRegistering spec.goal.toList
  let goal ← goal
  return (initial, goal, atoms)

/-- Replaces the current state and the goal by those of an entity type. -/
def loadWorldState (a : Agent W M) (spec : EntityTypeSpec) :
    Except AgentError Unit × Agent W M :=
  match a.encodeType spec with
  | .error e => (.error e, { a with dirty := true })
  | .ok (initial, goal, atoms) =>
    (.ok (),
      { a.withAtoms atoms with
        current := initial
        cached := initial
        planStart := initial
        goal
        atomSchemaVersion := a.atomSchemaVersion + 1 })

/-- Loads the actions of the agent's definition, then the state and goal of its type. -/
def loadDefinition (a : Agent W M) : Except AgentError Unit × Agent W M :=
  match a.definition.data.entityTypes[a.entityType]? with
  | none => (.error (.unknownType a.entityType), a)
  | some spec =>
    match a.loadActions a.definition.data.actions with
    | (.error e, a) => (.error e, a)
    | (.ok (), a) => a.loadWorldState spec

/-- After a failed load of actions only the dirty mark differs. -/
theorem loadActions_error {a b : Agent W M} {specs : List ActionSpec} {e : AgentError}
    (h : a.loadActions specs = (.error e, b)) : b = { a with dirty := true } := by
  unfold loadActions at h
  split at h <;> simp_all

/-- After a failed load of a world state only the dirty mark differs. -/
theorem loadWorldState_error {a b : Agent W M} {spec : EntityTypeSpec} {e : AgentError}
    (h : a.loadWorldState spec = (.error e, b)) : b = { a with dirty := true } := by
  unfold loadWorldState at h
  split at h <;> simp_all

/-- Whether the plan, if there is one, cannot be used. -/
def planIsUnusable (a : Agent W M) : Bool :=
  a.plan.actions.isEmpty || a.plan.cost < 0 || a.plan.length = a.planner.maxPlanLen

/-- Sets the dirty mark from the plan. -/
def markDirty (a : Agent W M) : Agent W M := { a with dirty := a.planIsUnusable }

/-! ## reading and writing from outside -/

/-- Whether actions are queued. -/
def hasPlan (a : Agent W M) : Bool := !a.queue.isEmpty

/-- Writes one atom of the current state. -/
def setAtom (a : Agent W M) (atom : String) (value : Bool) : Except AgentError Unit × Agent W M :=
  match a.atoms.set a.current atom value with
  | .ok (current, atoms) => (.ok (), { a.withAtoms atoms with current })
  | .error e => (.error e, a)

/-- Writes one atom if it is registered; tells whether it was. -/
def patchAtom (a : Agent W M) (atom : String) (value : Bool) : Bool × Agent W M :=
  match a.atoms.index? atom with
  | some i => (true, { a with current := a.current.set i value })
  | none => (false, a)

/-- Reads one atom: `none` when it is registered but unspecified. -/
def getAtom (a : Agent W M) (atom : String) : Except AgentError (Option Bool) :=
  a.atoms.get a.current atom

/-- The state that pairs describe.  Names registered on the way stay, even when it fails. -/
def encode (a : Agent W M) (pairs : List (String × Bool)) :
    Except AgentError WorldState × Agent W M :=
  let (s, atoms) := a.atoms.encode pairs
  (s, a.withAtoms atoms)

/-- Replaces the goal, which counts from the next planning on. -/
def setGoal (a : Agent W M) (pairs : List (String × Bool)) : Except AgentError Unit × Agent W M :=
  match a.encode pairs with
  | (.ok goal, a) => (.ok (), { a with goal })
  | (.error e, a) => (.error e, a)

/-- Merges atoms into the goal, which counts from the next planning on. -/
def mergeGoal (a : Agent W M) (pairs : List (String × Bool)) :
    Except AgentError Unit × Agent W M :=
  match a.encode pairs with
  | (.ok patch, a) => (.ok (), { a with goal := a.goal.apply patch })
  | (.error e, a) => (.error e, a)

/-- Appends an event to the trace. -/
def pushTrace (a : Agent W M) (e : TraceEvent) : Agent W M := { a with trace := a.trace.push e }

/-- Drops queue, plan, actions, atoms and notes. -/
def teardown (a : Agent W M) : Agent W M :=
  { a with
    queue := []
    planner := a.planner.clear
    blackboard := .empty
    plan := .notFound a.planner.maxPlanLen
    dirty := true }

/-! ## descriptions -/

/-- The current state as a text. -/
def describeState (a : Agent W M) : String := a.atoms.describe a.current

/-- The goal as a text. -/
def describeGoal (a : Agent W M) : String := a.atoms.describe a.goal

/-- The lines of a plan, each marked, numbered and with the state expected after it. -/
def planLines (table : AtomTable) (mark : Nat → String) (p : Plan) : List String :=
  (p.actions.zip p.states).zipIdx.map fun step =>
    mark step.2 ++ toString step.2 ++ ": " ++ Text.padRight 20 step.1.1 ++
      table.describe step.1.2

/-- The plan as a text, with a mark at the action that is being carried out. -/
def describePlan (a : Agent W M) : String :=
  let mark i := if i = a.actionIndex && a.hasPlan then ">" else " "
  "plan cost = " ++ toString a.plan.cost ++ "\n" ++
    String.join ((planLines a.atoms mark a.plan).map (· ++ "\n"))

/-- An agent's state for tools. -/
structure Snapshot where
  entityType : String
  current : AtomMap
  goal : AtomMap
  plan : List String
  planCost : Int
  actionIndex : Nat
  action : Option String
  phase : Option ActionPhase
  retries : UInt32
  maxRetries : UInt32
  dirty : Bool
  actionsetVersion : UInt32
  atomSchemaVersion : UInt32
  blackboardKeys : List String
  traceLength : Nat

/-- The agent's state for tools. -/
def snapshot (a : Agent W M) : Snapshot :=
  { entityType := a.entityType
    current := a.atoms.toMap a.current
    goal := a.atoms.toMap a.goal
    plan := a.plan.actions
    planCost := a.plan.cost
    actionIndex := a.actionIndex
    action := a.queue.head?.map (·.name)
    phase := a.queue.head?.map (·.phase)
    retries := a.retries
    maxRetries := a.maxRetries
    dirty := a.dirty
    actionsetVersion := a.actionsetVersion
    atomSchemaVersion := a.atomSchemaVersion
    blackboardKeys := a.blackboard.keys
    traceLength := a.trace.size }

end Agent

end PlanningAgents
