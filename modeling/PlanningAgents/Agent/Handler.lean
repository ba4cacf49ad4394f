import PlanningAgents.Agent.Commands
import PlanningAgents.Atoms.Table
import PlanningAgents.Sense
import PlanningAgents.Tick
import PlanningAgents.Trace.Buffer

/-!
# PlanningAgents.Agent.Handler

Authored behaviour.  A handler runs for one entity and sees a part of its state; it can change only
what its operations reach.  Handlers are therefore programs over these operations and not functions
on the state: whatever each operation preserves is preserved by every handler.

What a handler has done when it fails stays done.
-/

namespace PlanningAgents

/-- What a handler works on. -/
structure Context (W : Type) where
  entity : EntityId
  entityType : String
  tick : Tick
  world : W
  atoms : AtomTable
  current : WorldState
  goal : WorldState
  blackboard : Blackboard
  trace : TraceBuffer
  commands : Commands
  /-- Whether a chosen goal has been reported. -/
  goalReported : Bool := false

/-- What a handler can see of its context. -/
structure View (W : Type) where
  entity : EntityId
  entityType : String
  tick : Tick
  world : W
  atoms : AtomTable
  current : WorldState
  goal : WorldState
  blackboard : Blackboard

/-- The visible part of a context. -/
def Context.view (c : Context W) : View W :=
  { entity := c.entity, entityType := c.entityType, tick := c.tick, world := c.world,
    atoms := c.atoms, current := c.current, goal := c.goal, blackboard := c.blackboard }

/-- An operation on a context. -/
inductive ContextOp (W : Type) where
  /-- Writes one atom of the current state. -/
  | setAtom (atom : String) (value : Bool)
  /-- Replaces the goal. -/
  | setGoal (pairs : List (String × Bool))
  /-- Merges atoms into the goal. -/
  | mergeGoal (pairs : List (String × Bool))
  | clearGoal
  /-- Records which goal was chosen and why. -/
  | reportGoal (goal reason : String)
  | record (kind : TraceKind) (message : String)
  | changeWorld (f : W → W)
  | changeBlackboard (f : Blackboard → Blackboard)
  | requestReset
  | requestInterrupt (entity : EntityId)

/-- An event of the context's entity, dated by its tick. -/
def Context.event (c : Context W) (kind : TraceKind) (message : String) : TraceEvent :=
  { kind, message, entity := c.entity, tick := c.tick.index, timestamp := c.tick.time }

/-- Carries out an operation.  Writing an atom that cannot be written changes nothing; a goal that
cannot be encoded leaves the goal as it is, but names registered on the way stay. -/
def Context.perform (c : Context W) : ContextOp W → Context W
  | .setAtom atom value =>
    match c.atoms.set c.current atom value with
    | .ok (current, atoms) => { c with current, atoms }
    | .error _ => c
  | .setGoal pairs =>
    match c.atoms.encode pairs with
    | (.ok goal, atoms) => { c with goal, atoms }
    | (.error _, atoms) => { c with atoms }
  | .mergeGoal pairs =>
    match c.atoms.encode pairs with
    | (.ok patch, atoms) => { c with goal := c.goal.apply patch, atoms }
    | (.error _, atoms) => { c with atoms }
  | .clearGoal => { c with goal := .empty }
  | .reportGoal goal reason =>
    { c with
      goalReported := true
      trace := c.trace.push ((c.event .goalSelected goal).withExtra "reason" reason) }
  | .record kind message => { c with trace := c.trace.push (c.event kind message) }
  | .changeWorld f => { c with world := f c.world }
  | .changeBlackboard f => { c with blackboard := f c.blackboard }
  | .requestReset => { c with commands := c.commands.requestReset }
  | .requestInterrupt e => { c with commands := c.commands.requestInterrupt e }

/-- A program that looks at its context, performs operations, and ends with a result or an
error. -/
inductive Handler (W α : Type) where
  | done (a : α)
  | fail (e : HandlerError)
  | look (k : View W → Handler W α)
  | act (op : ContextOp W) (next : Handler W α)

namespace Handler

variable {W α β : Type}

/-- Runs a handler. -/
def run : Handler W α → Context W → Except HandlerError α × Context W
  | .done a, c => (.ok a, c)
  | .fail e, c => (.error e, c)
  | .look k, c => (k c.view).run c
  | .act op next, c => next.run (c.perform op)

/-- Goes on with another handler, unless the first one fails. -/
def bind : Handler W α → (α → Handler W β) → Handler W β
  | .done a, f => f a
  | .fail e, _ => .fail e
  | .look k, f => .look fun v => (k v).bind f
  | .act op next, f => .act op (next.bind f)

instance : Monad (Handler W) where
  pure := .done
  bind := bind

/-- The handler that has nothing to do but to end as an outcome says. -/
def ofExcept : Except HandlerError α → Handler W α
  | .ok a => .done a
  | .error e => .fail e

instance : Inhabited (Handler W α) := ⟨.fail ⟨""⟩⟩

/-- Running a sequence runs its parts one after the other. -/
theorem run_bind (x : Handler W α) (f : α → Handler W β) (c : Context W) :
    (x.bind f).run c =
      match x.run c with
      | (.ok a, c) => (f a).run c
      | (.error e, c) => (.error e, c) := by
  induction x generalizing c with
  | done a => rfl
  | fail e => rfl
  | look k ih => exact ih _ c
  | act op next ih => exact ih _

/-- What every operation preserves, every handler preserves. -/
theorem run_preserves {P : Context W → Prop} (h : ∀ c op, P c → P (c.perform op))
    (x : Handler W α) (c : Context W) (hc : P c) : P (x.run c).2 := by
  induction x generalizing c with
  | done a => exact hc
  | fail e => exact hc
  | look k ih => exact ih _ c hc
  | act op next ih => exact ih _ (h c op hc)

/-! ## operations -/

/-- The visible context. -/
def view : Handler W (View W) := .look .done

/-- Performs an operation. -/
def perform (op : ContextOp W) : Handler W Unit := .act op (.done ())

/-- Performs an operation of which the outcome can be told beforehand. -/
def attempt (op : ContextOp W) (outcome : View W → Except AgentError α) : Handler W α :=
  .look fun v => .act op <|
    match outcome v with
    | .ok a => .done a
    | .error e => .fail e

/-- Writes one atom of the current state. -/
def setAtom (atom : String) (value : Bool) : Handler W Unit :=
  attempt (.setAtom atom value) fun v => (v.atoms.set v.current atom value).map fun _ => ()

/-- Writes one atom if it is registered; tells whether it was. -/
def patchAtom (atom : String) (value : Bool) : Handler W Bool :=
  .look fun v =>
    if (v.atoms.index? atom).isSome then .act (.setAtom atom value) (.done true) else .done false

/-- Reads one atom: `none` when it is registered but unspecified. -/
def getAtom (atom : String) : Handler W (Option Bool) :=
  .look fun v =>
    match v.atoms.get v.current atom with
    | .ok value => .done value
    | .error e => .fail e

/-- Replaces the goal. -/
def setGoal (pairs : List (String × Bool)) : Handler W Unit :=
  attempt (.setGoal pairs) fun v => (v.atoms.encode pairs).1.map fun _ => ()

/-- Merges atoms into the goal. -/
def mergeGoal (pairs : List (String × Bool)) : Handler W Unit :=
  attempt (.mergeGoal pairs) fun v => (v.atoms.encode pairs).1.map fun _ => ()

end Handler

namespace View

variable {W : Type}

/-- What the current state specifies, as a text. -/
def describeState (v : View W) : String := v.atoms.describe v.current

variable [World W]

/-- Where the entity stands. -/
def position (v : View W) : Option Vec2 := Sense.position v.world v.entity

/-- How far another entity is. -/
def distanceTo (v : View W) (other : EntityId) : Option Float32 :=
  Sense.distance v.world v.entity other

/-- The nearest other entity. -/
def nearest (v : View W) (radius : Float32) : Option Sensed :=
  Sense.nearest v.world v.entity radius

/-- The nearest other entity that `accept` takes. -/
def nearestMatching (v : View W) (radius : Float32) (accept : EntityId → Bool) : Option Sensed :=
  Sense.nearestMatching v.world v.entity radius accept

/-- Every entity within a radius. -/
def allInRange (v : View W) (radius : Float32) (query : RangeQuery) : List Sensed :=
  Sense.allInRange v.world v.entity radius query

end View

end PlanningAgents
