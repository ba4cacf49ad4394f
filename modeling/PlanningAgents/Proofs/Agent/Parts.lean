import PlanningAgents.Agent.Turn

/-!
# PlanningAgents.Proofs.Agent.Parts

The parts of a call, and what they leave alone.  Whatever handlers do, and whatever is noted in the
trace, the rest of the agent stays as it is: its plan, its queue, its actions and its counters.
`Agent.kept` is that rest, as an agent whose other parts are blank, so that what a part of a call
does is one equation, from which every field can be read off.

Main statements:

* `Turn.kept_call`, `Turn.kept_record`, `Turn.kept_runUpdaters` — handlers and notes leave it alone;
* `Turn.agent_enqueueFrom` — what queueing the actions of a plan adds;
* `Turn.startFront_eq`, `Turn.completeFront_eq`, `Turn.beginPlan_eq`, `Turn.planAnew_eq`,
  `Turn.step_eq` — the longer calls in their parts.
-/

namespace PlanningAgents

variable {W M α : Type}

/-- The action of a record and its place in the plan. -/
def ActionRecord.place (r : ActionRecord W M) : String × Nat := (r.name, r.planIndex)

namespace Agent

/-- An agent without what handlers and notes can reach: the names of its atoms, its current state
and goal, its blackboard and its trace. -/
def kept (a : Agent W M) : Agent W M :=
  { a.withAtoms {} with
    current := .empty, goal := .empty, blackboard := .empty, trace := .ofCapacity 0 }

/-- Agents that agree in what handlers cannot reach differ in nothing else. -/
theorem eq_of_kept_eq {a b : Agent W M} (h : b.kept = a.kept) :
    b = { a.withAtoms b.atoms with
      current := b.current, goal := b.goal, blackboard := b.blackboard, trace := b.trace } := by
  obtain ⟨_, _, ⟨_, _, _⟩, _⟩ := a
  obtain ⟨_, _, ⟨_, _, _⟩, _⟩ := b
  simp only [kept, withAtoms, mk.injEq, Planner.mk.injEq] at h
  simp only [atoms, withAtoms, mk.injEq, Planner.mk.injEq]
  exact h

/-- The record that queues the action at a place of the plan, if it has handlers. -/
def recordAt? (a : Agent W M) (place : String × Nat) : Option (ActionRecord W M) :=
  (a.definition.bindings.actions[place.1]?).map fun handlers =>
    { name := place.1, planIndex := place.2, handlers
      post := ((a.planner.action? place.1).map (·.post)).getD .empty
      watchMask := ((a.definition.data.action? place.1).map (·.watchMask a.atoms)).getD 0 }

/-- A queued record stands for the action at its place, and has not been started. -/
theorem of_recordAt?_eq_some {a : Agent W M} {place : String × Nat} {r : ActionRecord W M}
    (h : a.recordAt? place = some r) :
    r.place = place ∧ a.definition.bindings.actions[place.1]? = some r.handlers ∧
      r.post = ((a.planner.action? place.1).map (·.post)).getD .empty ∧
      r.phase = .created ∧ r.task = none := by
  obtain ⟨handlers, hbound, rfl⟩ := Option.map_eq_some_iff.mp h
  exact ⟨rfl, hbound, rfl, rfl, rfl⟩

end Agent

namespace Turn

variable (t : Turn W M)

/-! ## handlers and notes -/

/-- A handler leaves alone what it cannot reach. -/
@[simp] theorem kept_call (h : Handler W α) : (t.call h).2.agent.kept = t.agent.kept := rfl

/-- So does a note. -/
@[simp] theorem kept_record (kind : TraceKind) (message : String) (extra : List (String × String)) :
    (t.record kind message extra).agent.kept = t.agent.kept := rfl

/-- A handler that has run as told leaves alone what it cannot reach. -/
theorem kept_of_call {t t' : Turn W M} {h : Handler W α} {r : Except HandlerError α}
    (heq : t.call h = (r, t')) : t'.agent.kept = t.agent.kept := by
  rw [← kept_call t h, heq]

@[simp] theorem kept_runUpdaters (updaters : List (String × Handler W Unit)) :
    (t.runUpdaters updaters).agent.kept = t.agent.kept := by
  induction updaters generalizing t with
  | nil => rfl
  | cons updater rest ih =>
      rw [runUpdaters]
      split
      · next t' heq => rw [ih, kept_of_call heq]
      · next e t' heq => rw [ih, kept_record, kept_of_call heq]

/-- Seeding the blackboard leaves alone what handlers cannot reach. -/
@[simp] theorem kept_seedBlackboard : t.seedBlackboard.agent.kept = t.agent.kept := by
  rw [seedBlackboard]
  split
  · rfl
  · rfl

/-! ## queueing -/

/-- **Queueing adds the records of the actions** that have handlers, and notes the others. -/
theorem agent_enqueueFrom (i : Nat) (names : List String) :
    (t.enqueueFrom i names).agent =
      { t.agent with
        queue := t.agent.queue ++ (names.zipIdx i).filterMap t.agent.recordAt?
        trace := (t.enqueueFrom i names).agent.trace } := by
  induction names generalizing t i with
  | nil => simp [enqueueFrom]
  | cons name rest ih =>
      rw [enqueueFrom, List.zipIdx_cons, List.filterMap_cons]
      cases hbound : t.agent.definition.bindings.actions[name]? with
      | none =>
          have hskip : t.agent.recordAt? (name, i) = none := by simp [Agent.recordAt?, hbound]
          simp only [hskip]
          rw [ih]
          rfl
      | some handlers =>
          have hqueue : t.agent.recordAt? (name, i) = some
              { name, planIndex := i, handlers
                post := ((t.agent.planner.action? name).map (·.post)).getD .empty
                watchMask := ((t.agent.definition.data.action? name).map
                  (·.watchMask t.agent.atoms)).getD 0 } := by
            simp [Agent.recordAt?, hbound]
          simp only [hqueue]
          rw [List.append_cons, ih]
          rfl

/-! ## calls in parts -/

variable {t} {front : ActionRecord W M} {rest : List (ActionRecord W M)}

/-- The call with its front about to be started. -/
def readyFront (t : Turn W M) (front : ActionRecord W M) : Turn W M :=
  let t := t.mapFront ({ · with task := none, phase := .created })
  let t := t.mapAgent ({ · with actionIndex := front.planIndex })
  t.record .actionStart front.name [("attempt", toString (t.agent.retries + 1).toNat)]

/-- Starting the front makes it ready and runs its starting handler. -/
theorem startFront_eq (h : t.agent.queue = front :: rest) :
    t.startFront =
      match (t.readyFront front).call front.handlers.start with
      | (.ok (), t) => (true, t.mapFront ({ · with phase := .running }))
      | (.error e, t) =>
        (false, (t.mapFront ({ · with phase := .failed })).record .actionResult front.name
          [("status", ActionStatus.failure.name), ("error", e.message)]) := by
  rw [startFront, h]
  rfl

/-- The call with its front ended after success, and dropped. -/
def popFront (t : Turn W M) (front : ActionRecord W M) (rest : List (ActionRecord W M)) :
    Turn W M :=
  let t := t.mapFront ({ · with phase := .succeeded, task := none })
  let (finished, t) := t.call front.handlers.finish
  let t := t.mapAgent fun a => { a with current := a.current.apply front.post }
  let t := t.record .actionResult front.name
    (("status", ActionStatus.success.name) :: errorDetail finished)
  t.mapAgent fun a =>
    { a with
      queue := a.queue.tail
      retries := 0
      actionIndex := (rest.head?.map (·.planIndex)).getD a.plan.length }

/-- Ending the front drops it and starts the one behind it. -/
theorem completeFront_eq (h : t.agent.queue = front :: rest) :
    t.completeFront =
      if rest.isEmpty then (.succeeded, t.popFront front rest)
      else match (t.popFront front rest).startFront with
        | (true, t) => (.succeeded, t)
        | (false, t) => t.failFront := by
  rw [completeFront, h]
  rfl

/-- The call with its blackboard seeded, the plan queued and its beginning noted. -/
def queuePlan (t : Turn W M) : Turn W M :=
  let t := if t.seeded then t else t.seedBlackboard
  let t := t.enqueueFrom 0 t.agent.plan.actions
  t.record .planFound (" -> ".intercalate t.agent.plan.actions)
    [("cost", toString t.agent.plan.cost), ("size", toString t.agent.plan.length),
      ("goal", t.agent.describeGoal)]

/-- What is queued is what has handlers in the definition. -/
theorem queued_queuePlan (hqueue : t.agent.queue = []) (hseeded : t.seeded = true) :
    t.queuePlan.agent.queue = (t.agent.plan.actions.zipIdx 0).filterMap t.agent.recordAt? ∧
      t.queuePlan.agent.definition = t.agent.definition := by
  have hqueued := t.agent_enqueueFrom 0 t.agent.plan.actions
  have hrecords := congrArg Agent.queue hqueued
  have hdefinition := congrArg Agent.definition hqueued
  rw [hqueue] at hrecords
  rw [queuePlan, hseeded]
  exact ⟨hrecords, hdefinition⟩

/-- Beginning a plan queues it and starts its first action, if there is one to start. -/
theorem beginPlan_eq (t : Turn W M) :
    t.beginPlan =
      (if t.queuePlan.agent.queue.isEmpty then
        t.queuePlan.mapAgent fun a => { a with actionIndex := a.plan.length }
      else match t.queuePlan.startFront with
        | (true, t) => t
        | (false, t) => t.failFront.2).mapAgent fun a =>
          { a with planStart := a.current, cached := a.current } :=
  rfl

/-- The call with a new plan in place of what was planned and queued. -/
def freshPlan (t : Turn W M) : Turn W M :=
  let t := (t.mapAgent ({ · with queue := [] })).makePlan
  let t := t.mapAgent ({ · with actionIndex := 0, retries := 0 })
  t.mapAgent (·.markDirty)

@[simp] theorem planner_freshPlan (t : Turn W M) :
    t.freshPlan.agent.planner = t.agent.planner := by
  simp only [freshPlan, mapAgent, makePlan, Agent.markDirty]

@[simp] theorem current_freshPlan (t : Turn W M) :
    t.freshPlan.agent.current = t.agent.current := by
  simp only [freshPlan, mapAgent, makePlan, Agent.markDirty]

@[simp] theorem goal_freshPlan (t : Turn W M) : t.freshPlan.agent.goal = t.agent.goal := by
  simp only [freshPlan, mapAgent, makePlan, Agent.markDirty]

@[simp] theorem queue_freshPlan (t : Turn W M) : t.freshPlan.agent.queue = [] := rfl

@[simp] theorem plan_freshPlan (t : Turn W M) :
    t.freshPlan.agent.plan = t.agent.planner.plan t.agent.current t.agent.goal := rfl

/-- Planning makes a new plan and goes on as its outcome says. -/
theorem planAnew_eq (t : Turn W M) :
    t.planAnew.2 =
      match t.freshPlan.agent.plan.outcome with
      | .atGoal => t.freshPlan
      | .found => t.freshPlan.beginPlan
      | .notFound => t.freshPlan.handleNoPlan "no_plan"
      | .truncated => t.freshPlan.handleNoPlan "depth_cap" :=
  rfl

/-- The part of a tick behind the front action's: the updaters run, and what they have changed is
noted together with what had changed before. -/
def refresh (t : Turn W M) (external : UInt64) : UInt64 × Turn W M :=
  let u := t.runUpdaters t.agent.definition.bindings.updaters
  let changed := external ||| t.agent.current.changed u.agent.current
  (changed,
    if changed = 0 then u
    else u.record .worldStateChange (",".intercalate (u.agent.atoms.describeBits changed))
      [("state", u.agent.describeState)])

/-- The last part of a tick: planning anew, where a watched atom has changed or nothing is left. -/
def respond (t : Turn W M) (result : StepResult) (changed : UInt64) : TickOutcome × Turn W M :=
  let watched := ((t.agent.queue.head?.map (·.watchMask)).getD 0) &&& changed
  if watched ≠ 0 then (.replanned .worldStateChanged, t.reactTo watched)
  else match result with
    | .needsPlan => (.replanned .queueEmpty, t.selectGoal.2)
    | .retriesExhausted => (.replanned .retriesExhausted, t.selectGoal.2)
    | .running => (.running, t)
    | .succeeded => (.actionSucceeded, t)
    | .retrying => (.actionRetried, t)

/-- A tick is the step of the front action, the updaters, and the response to what has changed. -/
theorem step_eq (t : Turn W M) :
    t.step =
      let (result, u) := t.stepFront
      let (changed, u) := u.refresh (t.agent.current.changed t.agent.cached)
      let (outcome, u) := u.respond result changed
      (outcome, u.mapAgent fun a => { a with cached := a.current }) :=
  rfl

@[simp] theorem kept_refresh (t : Turn W M) (external : UInt64) :
    (t.refresh external).2.agent.kept = t.agent.kept := by
  simp only [refresh]
  split
  · exact t.kept_runUpdaters _
  · rw [kept_record, kept_runUpdaters]

end Turn

end PlanningAgents
