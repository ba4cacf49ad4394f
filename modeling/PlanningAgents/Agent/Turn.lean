import PlanningAgents.Agent.Basic

/-!
# PlanningAgents.Agent.Turn

One call into an agent, from its beginning to its end.  A tick runs the front action, refreshes the
world state through the updaters, plans anew when a watched atom has changed or nothing is left to
do, and remembers the state for the next tick's comparison.

The front of the queue is the one action that may be under way.  It is started when it comes to the
front, resumed once per tick, finished after success, tried again after failure as long as retries
are left, and aborted when its plan is dropped while it runs.
-/

namespace PlanningAgents

/-- Why a tick has planned anew. -/
inductive ReplanReason where
  | queueEmpty
  | retriesExhausted
  /-- An atom that the running action watches has changed. -/
  | worldStateChanged
  deriving DecidableEq, Repr

/-- The name of a reason. -/
def ReplanReason.name : ReplanReason → String
  | .queueEmpty => "queue_empty"
  | .retriesExhausted => "retries_exhausted"
  | .worldStateChanged => "worldstate_changed"

/-- What a tick has done. -/
inductive TickOutcome where
  | running | actionSucceeded | actionRetried
  | replanned (reason : ReplanReason)
  deriving DecidableEq, Repr

/-- How the front action stands after its step. -/
inductive StepResult where
  | needsPlan | running | succeeded | retrying | retriesExhausted
  deriving DecidableEq, Repr

/-- The state of a call. -/
structure Turn (W M : Type) where
  agent : Agent W M
  entity : EntityId
  tick : Tick
  world : W
  commands : Commands
  /-- Whether the blackboard has been seeded during this call. -/
  seeded : Bool := false

namespace Turn

variable {W M α : Type}

/-! ## parts of a call -/

/-- Changes the agent. -/
def mapAgent (t : Turn W M) (f : Agent W M → Agent W M) : Turn W M := { t with agent := f t.agent }

/-- Changes the front of the queue. -/
def mapFront (t : Turn W M) (f : ActionRecord W M → ActionRecord W M) : Turn W M :=
  t.mapAgent fun a => { a with queue := a.queue.modifyHead f }

/-- An event of the entity, dated by the tick. -/
def event (t : Turn W M) (kind : TraceKind) (message : String) : TraceEvent :=
  { kind, message, entity := t.entity, tick := t.tick.index, timestamp := t.tick.time }

/-- Records an event with details. -/
def record (t : Turn W M) (kind : TraceKind) (message : String)
    (extra : List (String × String)) : Turn W M :=
  let e := extra.foldl (fun e d => e.withExtra d.1 d.2) (t.event kind message)
  t.mapAgent (·.pushTrace e)

/-- The context of a handler. -/
def context (t : Turn W M) : Context W :=
  { entity := t.entity
    entityType := t.agent.entityType
    tick := t.tick
    world := t.world
    atoms := t.agent.atoms
    current := t.agent.current
    goal := t.agent.goal
    blackboard := t.agent.blackboard
    trace := t.agent.trace
    commands := t.commands }

/-- Takes over what a handler has left. -/
def absorb (t : Turn W M) (c : Context W) : Turn W M :=
  { t with
    world := c.world
    commands := c.commands
    agent :=
      { t.agent.withAtoms c.atoms with
        current := c.current
        goal := c.goal
        blackboard := c.blackboard
        trace := c.trace } }

/-- Runs a handler. -/
def call (t : Turn W M) (h : Handler W α) : Except HandlerError α × Turn W M :=
  let (r, c) := h.run t.context
  (r, t.absorb c)

/-- The detail that tells of a failure. -/
def errorDetail : Except HandlerError α → List (String × String)
  | .ok _ => []
  | .error e => [("error", e.message)]

/-- Drops what is queued. -/
def dropQueue (t : Turn W M) : Turn W M := t.mapAgent fun a => { a with queue := [], dirty := true }

/-! ## the front action -/

/-- Starts the front action; tells whether it has started. -/
def startFront (t : Turn W M) : Bool × Turn W M :=
  match t.agent.queue with
  | [] => (false, t)
  | front :: _ =>
    let t := t.mapFront ({ · with task := none, phase := .created })
    let t := t.mapAgent ({ · with actionIndex := front.planIndex })
    let t := t.record .actionStart front.name [("attempt", toString (t.agent.retries + 1).toNat)]
    match t.call front.handlers.start with
    | (.ok (), t) => (true, t.mapFront ({ · with phase := .running }))
    | (.error e, t) =>
      (false, (t.mapFront ({ · with phase := .failed })).record .actionResult front.name
        [("status", ActionStatus.failure.name), ("error", e.message)])

/-- Gives up the front action, and its plan with it. -/
def giveUpFront (t : Turn W M) (name : String) : Turn W M :=
  let t := t.mapFront ({ · with task := none, phase := .failed })
  let t := t.record .replan (name ++ " failed")
    [("reason", ReplanReason.retriesExhausted.name), ("retries", toString t.agent.retries.toNat)]
  t.dropQueue

/-- Starts the front action again until it starts or `left` retries are used up. -/
def retryFront (name : String) : Nat → Turn W M → StepResult × Turn W M
  | 0, t => (.retriesExhausted, t.giveUpFront name)
  | left + 1, t =>
    let t := t.mapFront ({ · with task := none })
    let t := t.mapAgent fun a => { a with retries := a.retries + 1 }
    match t.startFront with
    | (true, t) => (.retrying, t)
    | (false, t) => retryFront name left t

/-- Tries the front action again, or gives it up when its retries are used up. -/
def failFront (t : Turn W M) : StepResult × Turn W M :=
  match t.agent.queue with
  | [] => (.needsPlan, t)
  | front :: _ => retryFront front.name (t.agent.maxRetries.toNat - t.agent.retries.toNat) t

/-- Ends the front action after success and starts the one behind it.  Its effects hold once its
finishing handler has run, whether or not that fails. -/
def completeFront (t : Turn W M) : StepResult × Turn W M :=
  match t.agent.queue with
  | [] => (.needsPlan, t)
  | front :: rest =>
    let t := t.mapFront ({ · with phase := .succeeded, task := none })
    let (finished, t) := t.call front.handlers.finish
    let t := t.mapAgent fun a => { a with current := a.current.apply front.post }
    let t := t.record .actionResult front.name
      (("status", ActionStatus.success.name) :: errorDetail finished)
    let t := t.mapAgent fun a =>
      { a with
        queue := a.queue.tail
        retries := 0
        actionIndex := (rest.head?.map (·.planIndex)).getD a.plan.length }
    if rest.isEmpty then (.succeeded, t)
    else match t.startFront with
      | (true, t) => (.succeeded, t)
      | (false, t) => t.failFront

/-- Starts the front action, or resumes it when it is under way. -/
def stepFront (t : Turn W M) : StepResult × Turn W M :=
  match t.agent.queue with
  | [] => (.needsPlan, t)
  | front :: _ =>
    if !front.isRunning then
      match t.startFront with
      | (true, t) => (.running, t)
      | (false, t) => t.failFront
    else
      let memory := front.task.getD front.handlers.fresh
      let t := t.mapFront ({ · with task := none })
      match t.call (front.handlers.resume memory) with
      | (.ok (.yielded memory), t) =>
        (.running, t.mapFront ({ · with task := some memory, phase := .suspended }))
      | (.ok (.returned .running), t) => (.running, t.mapFront ({ · with phase := .running }))
      | (.ok (.returned .success), t) => t.completeFront
      | (.ok (.returned .failure), t) =>
        (t.record .actionResult front.name [("status", ActionStatus.failure.name)]).failFront
      | (.error e, t) =>
        (t.record .actionResult front.name
          [("status", "ERROR"), ("error", e.message)]).failFront

/-- Aborts the front action if it is under way. -/
def abortFront (t : Turn W M) (reason : AbortReason) : Turn W M :=
  match t.agent.queue with
  | [] => t
  | front :: _ =>
    if !front.isRunning then t
    else
      let t := t.mapFront ({ · with phase := .aborted, task := none })
      let (aborted, t) := t.call (front.handlers.abort reason)
      t.record .actionResult front.name
        (("status", "ABORTED") :: ("reason", reason.name) :: errorDetail aborted)

/-! ## updaters and the blackboard -/

/-- Runs updaters in order.  One that fails is recorded and does not stop the others. -/
def runUpdaters (t : Turn W M) : List (String × Handler W Unit) → Turn W M
  | [] => t
  | (name, h) :: rest =>
    match t.call h with
    | (.ok (), t) => t.runUpdaters rest
    | (.error e, t) =>
      (t.record .worldStateChange ("updater " ++ name ++ " failed")
        [("error", e.message)]).runUpdaters rest

/-- The binding of the agent's type, or the one that serves all types. -/
def bindingFor (t : Turn W M) (bindings : SortedMap String α) : Option α :=
  bindings[t.agent.entityType]?.or bindings[defaultBinding]?

/-- Clears the blackboard and seeds it.  A seeding that fails leaves what it has written. -/
def seedBlackboard (t : Turn W M) : Turn W M :=
  let t := { t with seeded := true, agent := { t.agent with blackboard := .empty } }
  match t.bindingFor t.agent.definition.bindings.blackboardInit with
  | none => t
  | some h => (t.call h).2

/-! ## planning -/

/-- Queues the actions of the plan from place `i` on.  One without handlers is recorded and
skipped. -/
def enqueueFrom (t : Turn W M) (i : Nat) : List String → Turn W M
  | [] => t
  | name :: rest =>
    match t.agent.definition.bindings.actions[name]? with
    | none =>
      (t.record .actionResult name
        [("status", "SKIPPED"), ("reason", "no_handlers"),
          ("plan_index", toString i)]).enqueueFrom (i + 1) rest
    | some handlers =>
      let spec := t.agent.definition.data.action? name
      let action := t.agent.planner.action? name
      let r : ActionRecord W M :=
        { name, planIndex := i, handlers
          post := (action.map (·.post)).getD .empty
          watchMask := (spec.map (·.watchMask t.agent.atoms)).getD 0 }
      (t.mapAgent fun a => { a with queue := a.queue ++ [r] }).enqueueFrom (i + 1) rest

/-- Starts to carry out the agent's plan. -/
def beginPlan (t : Turn W M) : Turn W M :=
  let t := if t.seeded then t else t.seedBlackboard
  let t := t.enqueueFrom 0 t.agent.plan.actions
  let t := t.record .planFound (" -> ".intercalate t.agent.plan.actions)
    [("cost", toString t.agent.plan.cost), ("size", toString t.agent.plan.length),
      ("goal", t.agent.describeGoal)]
  let t :=
    if t.agent.queue.isEmpty then t.mapAgent fun a => { a with actionIndex := a.plan.length }
    else match t.startFront with
      | (true, t) => t
      | (false, t) => t.failFront.2
  t.mapAgent fun a => { a with planStart := a.current, cached := a.current }

/-- Plans from the current state to the goal. -/
def makePlan (t : Turn W M) : Turn W M :=
  t.mapAgent fun a => { a with plan := a.planner.plan a.current a.goal }

/-- What is done when there is no usable plan: the handler for that case may ask for one more
attempt, and the goal is given up where nothing else is said. -/
def handleNoPlan (t : Turn W M) (reason : String) : Turn W M :=
  let t := t.record .planFailed t.agent.describeGoal
    [("reason", reason), ("state", t.agent.describeState)]
  let giveUp (t : Turn W M) : Turn W M := t.mapAgent ({ · with goal := .empty })
  match t.agent.definition.bindings.noPlan with
  | none => giveUp t
  | some h =>
    match t.call h with
    | (.error _, t) => giveUp t
    | (.ok false, t) => t
    | (.ok true, t) =>
      let t := t.makePlan.mapAgent (·.markDirty)
      match t.agent.plan.outcome with
      | .found => t.beginPlan
      | .atGoal => t
      | .notFound | .truncated =>
        giveUp (t.record .planFailed t.agent.describeGoal [("reason", "fallback_failed")])

/-- Plans from the current state to the goal and starts to carry out the plan. -/
def planAnew (t : Turn W M) : PlanOutcome × Turn W M :=
  let t := (t.mapAgent ({ · with queue := [] })).makePlan
  let t := t.mapAgent ({ · with actionIndex := 0, retries := 0 })
  let t := t.mapAgent (·.markDirty)
  let t := match t.agent.plan.outcome with
    | .atGoal => t
    | .found => t.beginPlan
    | .notFound => t.handleNoPlan "no_plan"
    | .truncated => t.handleNoPlan "depth_cap"
  (t.agent.plan.outcome, t)

/-- Lets the goal be chosen and plans for it.  When the choice fails nothing is planned. -/
def selectGoal (t : Turn W M) : Option PlanOutcome × Turn W M :=
  match t.bindingFor t.agent.definition.bindings.goalSelectors with
  | none =>
    let (outcome, t) := t.planAnew
    (some outcome, t)
  | some h =>
    let (result, c) := h.run t.context
    let t := t.absorb c
    match result with
    | .error e =>
      (none, t.record .goalSelected "goal selection failed" [("error", e.message)])
    | .ok () =>
      let t := if c.goalReported then t else t.record .goalSelected t.agent.describeGoal []
      let (outcome, t) := t.planAnew
      (some outcome, t)

/-! ## whole calls -/

/-- Seeds the blackboard, lets a goal be chosen and builds the first plan. -/
def launch (t : Turn W M) : Option PlanOutcome × Turn W M := t.seedBlackboard.selectGoal

/-- Drops the plan because a watched atom has changed, and plans for a new goal. -/
def reactTo (t : Turn W M) (watched : UInt64) : Turn W M :=
  let names := ",".intercalate (t.agent.atoms.describeBits watched)
  let t := (t.abortFront .worldStateChanged).dropQueue
  let t := t.record .replan "watched atoms changed"
    [("reason", ReplanReason.worldStateChanged.name), ("atoms", names)]
  t.selectGoal.2

/-- One tick.  Changes made from outside count since the end of the last tick, changes made by the
updaters during this one; what the action itself changes does not count. -/
def step (t : Turn W M) : TickOutcome × Turn W M :=
  let external := t.agent.current.changed t.agent.cached
  let (result, t) := t.stepFront
  let afterAction := t.agent.current
  let t := t.runUpdaters t.agent.definition.bindings.updaters
  let changed := external ||| afterAction.changed t.agent.current
  let t :=
    if changed = 0 then t
    else t.record .worldStateChange (",".intercalate (t.agent.atoms.describeBits changed))
      [("state", t.agent.describeState)]
  let watched := ((t.agent.queue.head?.map (·.watchMask)).getD 0) &&& changed
  let (outcome, t) :=
    if watched ≠ 0 then (.replanned .worldStateChanged, t.reactTo watched)
    else match result with
      | .needsPlan => (.replanned .queueEmpty, t.selectGoal.2)
      | .retriesExhausted => (.replanned .retriesExhausted, t.selectGoal.2)
      | .running => (.running, t)
      | .succeeded => (.actionSucceeded, t)
      | .retrying => (.actionRetried, t)
  (outcome, t.mapAgent fun a => { a with cached := a.current })

/-- Plans for the goal as it is. -/
def replan (t : Turn W M) : PlanOutcome × Turn W M := (t.abortFront .replan).planAnew

/-- Replaces the goal, or merges into it, and plans for it. -/
def replanTo (t : Turn W M) (goal : WorldState) (merge : Bool) : PlanOutcome × Turn W M :=
  let t := t.mapAgent fun a => { a with goal := if merge then a.goal.apply goal else goal }
  let t := t.record .replan "explicit goal"
    [("reason", "explicit_goal"), ("goal", t.agent.describeGoal)]
  (t.abortFront .replan).dropQueue.planAnew

/-- Breaks off what the agent is doing, seeds its blackboard and lets a goal be chosen. -/
def interrupt (t : Turn W M) : Option PlanOutcome × Turn W M :=
  let action := (t.agent.queue.head?.map (·.name)).getD "-"
  let t := t.record .interrupt "interrupt" [("action", action)]
  (t.abortFront .interrupt).dropQueue.seedBlackboard.selectGoal

end Turn

end PlanningAgents
