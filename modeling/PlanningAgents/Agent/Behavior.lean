import PlanningAgents.Agent.Handler
import PlanningAgents.Definition.Spec

/-!
# PlanningAgents.Agent.Behavior

The handlers that are bound to actions and entity types, and complete definitions of both data and
behaviour.

The update of an action is a task that can be parked between ticks.  A task keeps a memory of type
`M`: it starts with a fresh one, and when it yields it says what to remember until it is resumed.
-/

namespace PlanningAgents

/-- How an action's update stands. -/
inductive ActionStatus where
  | running | success | failure
  deriving DecidableEq, Repr, Inhabited

namespace ActionStatus

/-- The name of a status. -/
def name : ActionStatus → String
  | .running => "RUNNING"
  | .success => "SUCCESS"
  | .failure => "FAILURE"

/-- Whether the action is over. -/
def isTerminal (s : ActionStatus) : Bool := s != .running

end ActionStatus

/-- Why a running action is broken off. -/
inductive AbortReason where
  /-- A watched atom has changed outside of the action. -/
  | worldStateChanged
  | interrupt
  /-- Another goal replaces the plan. -/
  | replan
  deriving DecidableEq, Repr

/-- The name of a reason. -/
def AbortReason.name : AbortReason → String
  | .worldStateChanged => "worldstate_changed"
  | .interrupt => "interrupt"
  | .replan => "replan"

/-- What a resumed task reports. -/
inductive TaskProgress (M : Type) where
  /-- To be resumed with this memory on the next tick. -/
  | yielded (memory : M)
  /-- The task is over; an action that is still running gets a fresh one on the next tick. -/
  | returned (status : ActionStatus)

/-- The behaviour of one action. -/
structure ActionHandlers (W M : Type) where
  start : Handler W Unit := .done ()
  /-- The memory of a fresh task. -/
  fresh : M
  resume : M → Handler W (TaskProgress M)
  finish : Handler W Unit := .done ()
  abort : AbortReason → Handler W Unit := fun _ => .done ()

/-- The behaviour of an action whose update is one handler that runs on every tick. -/
def ActionHandlers.ofStep [Inhabited M] (step : Handler W ActionStatus) : ActionHandlers W M :=
  { fresh := default, resume := fun _ => do return .returned (← step) }

/-- The behaviour bound to a definition. -/
structure Bindings (W M : Type) where
  actions : SortedMap String (ActionHandlers W M) := .empty
  /-- By entity type; `defaultBinding` serves the types without one of their own. -/
  goalSelectors : SortedMap String (Handler W Unit) := .empty
  /-- Run on every tick, in this order. -/
  updaters : List (String × Handler W Unit) := []
  /-- By entity type; `defaultBinding` serves the types without one of their own. -/
  blackboardInit : SortedMap String (Handler W Unit) := .empty
  /-- Runs when planning fails; whether another attempt is wanted. -/
  noPlan : Option (Handler W Bool) := none
  deriving Inhabited

/-- A complete prototype of agents. -/
structure Definition (W M : Type) where
  data : DefinitionData
  bindings : Bindings W M := {}
  deriving Inhabited

namespace Definition

variable {W M : Type}

/-- Binds an action. -/
def withAction (d : Definition W M) (name : String) (h : ActionHandlers W M) : Definition W M :=
  { d with bindings.actions := d.bindings.actions.insert name h }

/-- Binds the choice of goals for an entity type. -/
def withGoalSelector (d : Definition W M) (entityType : String) (h : Handler W Unit) :
    Definition W M :=
  { d with bindings.goalSelectors := d.bindings.goalSelectors.insert entityType h }

/-- Replaces the handler of a name in place, or adds it at the end. -/
def bindUpdater (name : String) (h : Handler W Unit) :
    List (String × Handler W Unit) → List (String × Handler W Unit)
  | [] => [(name, h)]
  | (n, g) :: rest => if n = name then (n, h) :: rest else (n, g) :: bindUpdater name h rest

/-- Binds an updater.  One that is bound again keeps its place. -/
def withUpdater (d : Definition W M) (name : String) (h : Handler W Unit) : Definition W M :=
  { d with bindings.updaters := bindUpdater name h d.bindings.updaters }

/-- Binds the seeding of the blackboard for an entity type. -/
def withBlackboardInit (d : Definition W M) (entityType : String) (h : Handler W Unit) :
    Definition W M :=
  { d with bindings.blackboardInit := d.bindings.blackboardInit.insert entityType h }

/-- Binds what happens when planning fails. -/
def withNoPlan (d : Definition W M) (h : Handler W Bool) : Definition W M :=
  { d with bindings.noPlan := some h }

/-- Replaces sections of the data. -/
def withOverrides (d : Definition W M) (o : DefinitionOverrides) : Definition W M :=
  { d with data := d.data.withOverrides o }

end Definition

end PlanningAgents
