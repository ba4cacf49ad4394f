import PlanningAgents.Proofs.Agent.Journal
import PlanningAgents.Proofs.Agent.Steady
import PlanningAgents.Proofs.Atoms.Registration

/-!
# PlanningAgents.Proofs.Agent.History

Which handlers a call runs.  Every part of a call has its notes: those of starting the front action,
of trying it again, of its step, of the updaters, of planning.  They follow the parts of the call as
these follow one another, and the call with notes makes just them and does otherwise the same.

Main statements:

* `Turn.notesOf` — the notes of a call, part by part;
* `Turn.after_journaled` — a call with notes does what it does without them, and adds its own;
* `Turn.journal`, `Turn.journal_eq` — what handlers are run in a call.
-/

namespace PlanningAgents

variable {W M : Type}

namespace Turn

variable (t : Turn W M) (notes : List (Note W M))

/-! ## the front action -/

/-- The note of starting the front action. -/
def startNotes : List (Note W M) :=
  match t.agent.queue with
  | [] => []
  | front :: _ => [(t.readyFront front).note front.handlers.start (.start front.name)]

/-- The call with one more retry counted. -/
def countRetry (t : Turn W M) : Turn W M :=
  (t.mapFront ({ · with task := none })).mapAgent fun a => { a with retries := a.retries + 1 }

/-- The notes of starting the front action again and again. -/
def retryNotes : Nat → Turn W M → List (Note W M)
  | 0, _ => []
  | left + 1, t =>
    t.countRetry.startNotes ++
      match t.countRetry.startFront with
      | (true, _) => []
      | (false, u) => retryNotes left u

/-- The notes of trying the front action again. -/
def failNotes : List (Note W M) :=
  match t.agent.queue with
  | [] => []
  | _ :: _ => retryNotes (t.agent.maxRetries.toNat - t.agent.retries.toNat) t

/-- Starts the front action, and tries it again if it does not start. -/
def startOrFail (result : StepResult) : StepResult × Turn W M :=
  match t.startFront with
  | (true, u) => (result, u)
  | (false, u) => u.failFront

/-- The notes of starting the front action, at once or later. -/
def startOrFailNotes : List (Note W M) :=
  t.startNotes ++
    match t.startFront with
    | (true, _) => []
    | (false, u) => u.failNotes

/-- The notes of ending the front action after success. -/
def completeNotes : List (Note W M) :=
  match t.agent.queue with
  | [] => []
  | front :: rest =>
    (t.mapFront ({ · with phase := .succeeded, task := none })).note front.handlers.finish
        (fun _ => .finish front.name) ::
      if rest.isEmpty then [] else (t.popFront front rest).startOrFailNotes

/-- The notes of the front action's step. -/
def stepNotes : List (Note W M) :=
  match t.agent.queue with
  | [] => []
  | front :: _ =>
    if !front.isRunning then t.startOrFailNotes
    else
      let resume := front.handlers.resume (front.task.getD front.handlers.fresh)
      let t := t.mapFront ({ · with task := none })
      t.note resume (.resume front.name front.task) ::
        match t.call resume with
        | (.ok (.yielded _), _) => []
        | (.ok (.returned .running), _) => []
        | (.ok (.returned .success), t) => t.completeNotes
        | (.ok (.returned .failure), t) =>
          (t.record .actionResult front.name [("status", ActionStatus.failure.name)]).failNotes
        | (.error e, t) =>
          (t.record .actionResult front.name
            [("status", "ERROR"), ("error", e.message)]).failNotes

/-- The note of aborting the front action. -/
def abortNotes (reason : AbortReason) : List (Note W M) :=
  match t.agent.queue with
  | [] => []
  | front :: _ =>
    if !front.isRunning then []
    else [(t.mapFront ({ · with phase := .aborted, task := none })).note
      (front.handlers.abort reason) (fun _ => .abort front.name reason)]

/-! ## updaters, the blackboard and planning -/

/-- The notes of updaters. -/
def updateNotes (t : Turn W M) : List (String × Handler W Unit) → List (Note W M)
  | [] => []
  | (name, h) :: rest =>
    t.note h (fun _ => .update name) ::
      match t.call h with
      | (.ok (), t) => t.updateNotes rest
      | (.error e, t) =>
        (t.record .worldStateChange ("updater " ++ name ++ " failed")
          [("error", e.message)]).updateNotes rest

/-- The call with an empty blackboard, that counts as seeded. -/
def clearBlackboard : Turn W M :=
  { t with seeded := true, agent := { t.agent with blackboard := .empty } }

/-- The note of seeding the blackboard. -/
def seedNotes : List (Note W M) :=
  match t.bindingFor t.agent.definition.bindings.blackboardInit with
  | none => []
  | some h => [t.clearBlackboard.note h (fun _ => .seed)]

/-- The notes of beginning the agent's plan. -/
def beginNotes : List (Note W M) :=
  (if t.seeded then [] else t.seedNotes) ++
    if t.queuePlan.agent.queue.isEmpty then [] else t.queuePlan.startOrFailNotes

/-- The notes of what is done when there is no usable plan. -/
def noPlanNotes (reason : String) : List (Note W M) :=
  let t := t.record .planFailed t.agent.describeGoal
    [("reason", reason), ("state", t.agent.describeState)]
  match t.agent.definition.bindings.noPlan with
  | none => []
  | some h =>
    t.note h (fun _ => .noPlan) ::
      match t.call h with
      | (.ok true, t) =>
        let t := t.makePlan.mapAgent (·.markDirty)
        match t.agent.plan.outcome with
        | .found => t.beginNotes
        | .atGoal | .notFound | .truncated => []
      | (.ok false, _) | (.error _, _) => []

/-- The notes of planning. -/
def planNotes : List (Note W M) :=
  match t.freshPlan.agent.plan.outcome with
  | .atGoal => []
  | .found => t.freshPlan.beginNotes
  | .notFound => t.freshPlan.noPlanNotes "no_plan"
  | .truncated => t.freshPlan.noPlanNotes "depth_cap"

/-- The call with a goal chosen. -/
def choose (t : Turn W M) (c : Context W) : Turn W M :=
  if c.goalReported then t.absorb c
  else (t.absorb c).record .goalSelected (t.absorb c).agent.describeGoal []

/-- The notes of choosing a goal and planning for it. -/
def selectNotes : List (Note W M) :=
  match t.bindingFor t.agent.definition.bindings.goalSelectors with
  | none => t.planNotes
  | some h =>
    t.note h (fun _ => .selectGoal) ::
      match h.run t.context with
      | (.error _, _) => []
      | (.ok (), c) => (t.choose c).planNotes

/-! ## whole calls -/

/-- The call with its plan dropped because of a change. -/
def dropChanged (watched : UInt64) : Turn W M :=
  (t.abortFront .worldStateChanged).dropQueue.record .replan "watched atoms changed"
    [("reason", ReplanReason.worldStateChanged.name),
      ("atoms", ",".intercalate (t.agent.atoms.describeBits watched))]

/-- The notes of the response to what has changed. -/
def respondNotes (result : StepResult) (changed : UInt64) : List (Note W M) :=
  let watched := ((t.agent.queue.head?.map (·.watchMask)).getD 0) &&& changed
  if watched ≠ 0 then t.abortNotes .worldStateChanged ++ (t.dropChanged watched).selectNotes
  else match result with
    | .needsPlan | .retriesExhausted => t.selectNotes
    | .running | .succeeded | .retrying => []

/-- The notes of a tick. -/
def tickNotes : List (Note W M) :=
  let (result, u) := t.stepFront
  let (changed, v) := u.refresh (t.agent.current.changed t.agent.cached)
  t.stepNotes ++ u.updateNotes u.agent.definition.bindings.updaters ++
    v.respondNotes result changed

/-- The call with a new goal. -/
def changeGoal (goal : WorldState) (merge : Bool) : Turn W M :=
  let t := t.mapAgent fun a => { a with goal := if merge then a.goal.apply goal else goal }
  t.record .replan "explicit goal" [("reason", "explicit_goal"), ("goal", t.agent.describeGoal)]

/-- The call with its interruption recorded. -/
def noteInterrupt : Turn W M :=
  t.record .interrupt "interrupt" [("action", (t.agent.queue.head?.map (·.name)).getD "-")]

/-- The notes of a call. -/
def notesOf : Call → List (Note W M)
  | .launch => t.seedNotes ++ t.seedBlackboard.selectNotes
  | .step => t.tickNotes
  | .replan => t.abortNotes .replan ++ (t.abortFront .replan).planNotes
  | .replanTo goal merge =>
    let t := t.changeGoal goal merge
    t.abortNotes .replan ++ (t.abortFront .replan).dropQueue.planNotes
  | .interrupt =>
    let t := t.noteInterrupt
    let u := (t.abortFront .interrupt).dropQueue
    t.abortNotes .interrupt ++ (u.seedNotes ++ u.seedBlackboard.selectNotes)

variable {t}

/-! ## the front action, with notes -/

theorem queue_journaled : (t.journaled notes).agent.queue =
    t.agent.queue.map ActionRecord.journaled := rfl

theorem queue_journaled_of_cons {front : ActionRecord W M} {rest : List (ActionRecord W M)}
    (hcons : t.agent.queue = front :: rest) : (t.journaled notes).agent.queue =
      front.journaled :: rest.map ActionRecord.journaled := by
  rw [queue_journaled, hcons, List.map_cons]

theorem readyFront_journaled (front : ActionRecord W M) :
    (t.journaled notes).readyFront front.journaled = (t.readyFront front).journaled notes := by
  rw [readyFront, mapFront_journaled (f := ({ · with task := none, phase := .created }))]
  · rfl
  · exact fun _ => rfl

/-- **Starting the front**, with notes. -/
theorem startFront_journaled :
    (t.journaled notes).startFront =
      (t.startFront.1, t.startFront.2.journaled (notes ++ t.startNotes)) := by
  cases hcons : t.agent.queue with
  | nil => simp [startFront, startNotes, queue_journaled, hcons]
  | cons front rest =>
      have hcall : ((t.readyFront front).journaled notes).call front.journaled.handlers.start = _ :=
        (t.readyFront front).call_journaled_id notes front.handlers.start (.start front.name)
      rw [startFront_eq (queue_journaled_of_cons notes hcons), startFront_eq hcons, startNotes,
        hcons, readyFront_journaled, hcall]
      cases (t.readyFront front).call front.handlers.start with
      | mk r u =>
          cases r with
          | ok done => exact Prod.ext rfl (mapFront_journaled _ _ fun _ => rfl)
          | error e =>
              simp only
              rw [u.mapFront_journaled _ (f := ({ · with phase := .failed })) fun _ => rfl]
              rfl

theorem giveUpFront_journaled (name : String) :
    (t.journaled notes).giveUpFront name = (t.giveUpFront name).journaled notes := by
  rw [giveUpFront, t.mapFront_journaled _ (f := ({ · with task := none, phase := .failed }))
    fun _ => rfl]
  rfl

theorem countRetry_journaled :
    (t.journaled notes).countRetry = t.countRetry.journaled notes := by
  rw [countRetry, t.mapFront_journaled _ (f := ({ · with task := none })) fun _ => rfl]
  rfl

theorem retryFront_journaled (name : String) (left : Nat) :
    retryFront name left (t.journaled notes) =
      ((retryFront name left t).1,
        (retryFront name left t).2.journaled (notes ++ retryNotes left t)) := by
  induction left generalizing t notes with
  | zero =>
      rw [retryNotes, List.append_nil]
      exact Prod.ext rfl (giveUpFront_journaled notes name)
  | succ left ih =>
      have hstart := startFront_journaled (t := t.countRetry) notes
      rw [retryFront, retryFront, retryNotes]
      simp only [← countRetry.eq_def, countRetry_journaled, hstart]
      cases t.countRetry.startFront with
      | mk started u =>
          cases started with
          | true => rw [List.append_nil]
          | false => rw [← List.append_assoc]; exact ih _

theorem failFront_journaled :
    (t.journaled notes).failFront =
      (t.failFront.1, t.failFront.2.journaled (notes ++ t.failNotes)) := by
  cases hcons : t.agent.queue with
  | nil => simp [failFront, failNotes, queue_journaled, hcons]
  | cons front rest =>
      rw [failFront, failFront, failNotes, queue_journaled_of_cons notes hcons, hcons]
      exact retryFront_journaled _ _ _

theorem startOrFail_journaled (result : StepResult) :
    (t.journaled notes).startOrFail result =
      ((t.startOrFail result).1,
        (t.startOrFail result).2.journaled (notes ++ t.startOrFailNotes)) := by
  rw [startOrFail, startOrFail, startOrFailNotes, startFront_journaled]
  cases t.startFront with
  | mk started u =>
      cases started with
      | true => rw [List.append_nil]
      | false =>
          rw [← List.append_assoc]
          exact failFront_journaled _

/-- Dropping the front of a queue with notes. -/
theorem dropFront_journaled (next : Option Nat) :
    ((t.journaled notes).mapAgent fun a =>
        { a with queue := a.queue.tail, retries := 0, actionIndex := next.getD a.plan.length }) =
      (t.mapAgent fun a =>
        { a with
          queue := a.queue.tail
          retries := 0
          actionIndex := next.getD a.plan.length }).journaled notes := by
  refine t.mapAgent_journaled notes ?_
  rw [Agent.journaled, Agent.journaled, List.map_tail]

theorem popFront_journaled (front : ActionRecord W M) (rest : List (ActionRecord W M)) :
    (t.journaled notes).popFront front.journaled (rest.map ActionRecord.journaled) =
      (t.popFront front rest).journaled
        (notes ++ [(t.mapFront ({ · with phase := .succeeded, task := none })).note
          front.handlers.finish (fun _ => .finish front.name)]) := by
  have hindex : (rest.map ActionRecord.journaled).head?.map (·.planIndex) =
      rest.head?.map (·.planIndex) := by
    cases rest with
    | nil => rfl
    | cons next rest => rfl
  have hcall : ((t.mapFront ({ · with phase := .succeeded, task := none })).journaled notes).call
      front.journaled.handlers.finish = _ :=
    call_journaled_id _ notes front.handlers.finish (fun _ => .finish front.name)
  rw [popFront, t.mapFront_journaled _ (f := ({ · with phase := .succeeded, task := none }))
    fun _ => rfl]
  simp only [hcall, hindex]
  rw [mapAgent_journaled _ _ (f := fun a => { a with current := a.current.apply front.post }) rfl,
    record_journaled]
  exact dropFront_journaled _ _

/-- Ending the front drops it, and starts the one behind it. -/
theorem completeFront_eq_startOrFail {front : ActionRecord W M} {rest : List (ActionRecord W M)}
    (hcons : t.agent.queue = front :: rest) :
    t.completeFront = if rest.isEmpty then (.succeeded, t.popFront front rest)
      else (t.popFront front rest).startOrFail .succeeded :=
  completeFront_eq hcons

theorem completeFront_journaled :
    (t.journaled notes).completeFront =
      (t.completeFront.1, t.completeFront.2.journaled (notes ++ t.completeNotes)) := by
  cases hcons : t.agent.queue with
  | nil => simp [completeFront, completeNotes, queue_journaled, hcons]
  | cons front rest =>
      rw [completeFront_eq_startOrFail (queue_journaled_of_cons notes hcons),
        completeFront_eq_startOrFail hcons, completeNotes, hcons, popFront_journaled,
        List.isEmpty_map]
      cases hempty : rest.isEmpty with
      | true => simp only [hempty, if_true]
      | false =>
          simp only [hempty, Bool.false_eq_true, if_false]
          rw [startOrFail_journaled, List.append_assoc, List.singleton_append]

/-- A step starts the front, or resumes it where it is under way. -/
theorem stepFront_eq {front : ActionRecord W M} {rest : List (ActionRecord W M)}
    (hcons : t.agent.queue = front :: rest) :
    t.stepFront =
      if !front.isRunning then t.startOrFail .running
      else match (t.mapFront ({ · with task := none })).call
          (front.handlers.resume (front.task.getD front.handlers.fresh)) with
        | (.ok (.yielded memory), t) =>
          (.running, t.mapFront ({ · with task := some memory, phase := .suspended }))
        | (.ok (.returned .running), t) => (.running, t.mapFront ({ · with phase := .running }))
        | (.ok (.returned .success), t) => t.completeFront
        | (.ok (.returned .failure), t) =>
          (t.record .actionResult front.name [("status", ActionStatus.failure.name)]).failFront
        | (.error e, t) =>
          (t.record .actionResult front.name
            [("status", "ERROR"), ("error", e.message)]).failFront := by
  rw [stepFront, hcons]
  rfl

/-- **A step of the front**, with notes. -/
theorem stepFront_journaled :
    (t.journaled notes).stepFront =
      (t.stepFront.1, t.stepFront.2.journaled (notes ++ t.stepNotes)) := by
  cases hcons : t.agent.queue with
  | nil => simp [stepFront, stepNotes, queue_journaled, hcons]
  | cons front rest =>
      have htask : front.journaled.task.getD front.journaled.handlers.fresh = front.task := by
        show (front.task.map some).getD none = front.task
        cases front.task with
        | none => rfl
        | some memory => rfl
      have hsame : front.journaled.isRunning = front.isRunning := rfl
      rw [stepFront_eq (queue_journaled_of_cons notes hcons), stepFront_eq hcons, stepNotes, hcons,
        hsame, htask]
      cases hrunning : front.isRunning with
      | false =>
          simp only [hrunning, Bool.not_false, if_true]
          exact startOrFail_journaled notes _
      | true =>
          have hcall : ((t.mapFront ({ · with task := none })).journaled notes).call
              (front.journaled.handlers.resume front.task) = _ :=
            call_journaled _ notes (front.handlers.resume (front.task.getD front.handlers.fresh))
              (.resume front.name front.task) TaskProgress.journaled
          rw [t.mapFront_journaled _ (f := ({ · with task := none })) fun _ => rfl]
          simp only [hrunning, Bool.not_true, Bool.false_eq_true, if_false, hcall]
          cases (t.mapFront ({ · with task := none })).call
            (front.handlers.resume (front.task.getD front.handlers.fresh)) with
          | mk r u =>
              cases r with
              | error e =>
                  simp only
                  rw [List.append_cons _ _ (failNotes _)]
                  exact failFront_journaled (t := u.record .actionResult front.name
                    [("status", "ERROR"), ("error", e.message)]) _
              | ok progress =>
                  cases progress with
                  | yielded memory => exact Prod.ext rfl (mapFront_journaled _ _ fun _ => rfl)
                  | returned status =>
                      cases status with
                      | running => exact Prod.ext rfl (mapFront_journaled _ _ fun _ => rfl)
                      | success =>
                          simp only
                          rw [List.append_cons _ _ (completeNotes _)]
                          exact completeFront_journaled _
                      | failure =>
                          simp only
                          rw [List.append_cons _ _ (failNotes _)]
                          exact failFront_journaled (t := u.record .actionResult front.name
                            [("status", ActionStatus.failure.name)]) _

/-- **Aborting the front**, with notes. -/
theorem abortFront_journaled (reason : AbortReason) :
    (t.journaled notes).abortFront reason =
      (t.abortFront reason).journaled (notes ++ t.abortNotes reason) := by
  cases hcons : t.agent.queue with
  | nil => simp [abortFront, abortNotes, queue_journaled, hcons]
  | cons front rest =>
      have hrunning : front.journaled.isRunning = front.isRunning := rfl
      rw [abortFront, abortFront, abortNotes, queue_journaled_of_cons notes hcons, hcons]
      simp only [hrunning]
      cases front.isRunning with
      | false => simp
      | true =>
          have hcall : ((t.mapFront ({ · with phase := .aborted, task := none })).journaled
              notes).call (front.journaled.handlers.abort reason) = _ :=
            call_journaled_id _ notes (front.handlers.abort reason)
              (fun _ => .abort front.name reason)
          rw [t.mapFront_journaled _ (f := ({ · with phase := .aborted, task := none }))
            fun _ => rfl]
          simp only [Bool.not_true, Bool.false_eq_true, if_false, hcall]
          rfl

/-! ## updaters and the blackboard, with notes -/

theorem runUpdaters_journaled (updaters : List (String × Handler W Unit)) :
    (t.journaled notes).runUpdaters
        (updaters.map fun u => (u.1, u.2.journaled (fun _ => .update u.1) id)) =
      (t.runUpdaters updaters).journaled (notes ++ t.updateNotes updaters) := by
  induction updaters generalizing t notes with
  | nil =>
      rw [updateNotes, List.append_nil]
      rfl
  | cons updater rest ih =>
      obtain ⟨name, h⟩ := updater
      rw [List.map_cons, runUpdaters, runUpdaters, updateNotes, call_journaled_id]
      cases t.call h with
      | mk r u =>
          cases r with
          | ok done =>
              simp only
              rw [List.append_cons _ _ (updateNotes _ _)]
              exact ih _
          | error e =>
              simp only
              rw [record_journaled, List.append_cons _ _ (updateNotes _ _)]
              exact ih _

theorem bindingFor_journaled {α β : Type} (bindings : SortedMap String α) (f : α → β) :
    (t.journaled notes).bindingFor (bindings.map fun _ => f) = (t.bindingFor bindings).map f := by
  rw [bindingFor, bindingFor, Std.ExtTreeMap.getElem?_map, Std.ExtTreeMap.getElem?_map,
    Option.map_or]
  rfl

/-- Seeding clears the blackboard, and runs the handler for that. -/
theorem seedBlackboard_eq (t : Turn W M) :
    t.seedBlackboard =
      match t.bindingFor t.agent.definition.bindings.blackboardInit with
      | none => t.clearBlackboard
      | some h => (t.clearBlackboard.call h).2 :=
  rfl

theorem seedBlackboard_journaled :
    (t.journaled notes).seedBlackboard = t.seedBlackboard.journaled (notes ++ t.seedNotes) := by
  have hbinding : (t.journaled notes).bindingFor
      (t.journaled notes).agent.definition.bindings.blackboardInit = _ :=
    bindingFor_journaled notes t.agent.definition.bindings.blackboardInit
      fun h => h.journaled (fun _ => .seed) id
  have hclear : (t.journaled notes).clearBlackboard = t.clearBlackboard.journaled notes := rfl
  rw [seedBlackboard_eq, seedBlackboard_eq, seedNotes, hbinding]
  cases t.bindingFor t.agent.definition.bindings.blackboardInit with
  | none =>
      rw [List.append_nil]
      rfl
  | some h =>
      simp only [Option.map_some, hclear]
      rw [call_journaled_id]

/-! ## planning, with notes -/

theorem enqueueFrom_journaled (i : Nat) (names : List String) :
    (t.journaled notes).enqueueFrom i names = (t.enqueueFrom i names).journaled notes := by
  induction names generalizing t i with
  | nil => rfl
  | cons name rest ih =>
      have hbound : (t.journaled notes).agent.definition.bindings.actions[name]? =
          t.agent.definition.bindings.actions[name]?.map (·.journaled name) :=
        Std.ExtTreeMap.getElem?_map
      rw [enqueueFrom, enqueueFrom, hbound]
      cases t.agent.definition.bindings.actions[name]? with
      | none =>
          simp only [Option.map_none]
          rw [record_journaled]
          exact ih _
      | some handlers =>
          simp only [Option.map_some]
          rw [← ih]
          congr 1
          refine t.mapAgent_journaled notes ?_
          simp only [Agent.journaled, List.map_append]
          rfl

theorem plan_journaled : (t.journaled notes).agent.plan = t.agent.plan := rfl

theorem queuePlan_journaled :
    (t.journaled notes).queuePlan =
      t.queuePlan.journaled (notes ++ if t.seeded then [] else t.seedNotes) := by
  have hseeded : (t.journaled notes).seeded = t.seeded := rfl
  rw [queuePlan, queuePlan, hseeded]
  cases t.seeded with
  | true =>
      simp only [if_true, List.append_nil]
      rw [plan_journaled, enqueueFrom_journaled]
      rfl
  | false =>
      simp only [Bool.false_eq_true, if_false, seedBlackboard_journaled]
      rw [plan_journaled, enqueueFrom_journaled]
      rfl

/-- Beginning a plan queues it and starts its first action, if there is one to start. -/
theorem beginPlan_eq_startOrFail (t : Turn W M) :
    t.beginPlan =
      (if t.queuePlan.agent.queue.isEmpty then
        t.queuePlan.mapAgent fun a => { a with actionIndex := a.plan.length }
      else (t.queuePlan.startOrFail .running).2).mapAgent fun a =>
        { a with planStart := a.current, cached := a.current } := by
  rw [beginPlan_eq, startOrFail]
  split
  · rfl
  · cases t.queuePlan.startFront with
    | mk started u =>
        cases started with
        | true => rfl
        | false => rfl

/-- **Beginning a plan**, with notes. -/
theorem beginPlan_journaled :
    (t.journaled notes).beginPlan = t.beginPlan.journaled (notes ++ t.beginNotes) := by
  have hempty (notes : List (Note W M)) : (t.queuePlan.journaled notes).agent.queue.isEmpty =
      t.queuePlan.agent.queue.isEmpty := List.isEmpty_map
  rw [beginPlan_eq_startOrFail, beginPlan_eq_startOrFail, beginNotes, queuePlan_journaled, hempty,
    ← List.append_assoc]
  cases t.queuePlan.agent.queue.isEmpty with
  | true =>
      simp only [if_true]
      rw [List.append_nil]
      rfl
  | false =>
      simp only [Bool.false_eq_true, if_false]
      rw [startOrFail_journaled]
      rfl

theorem freshPlan_journaled : (t.journaled notes).freshPlan = t.freshPlan.journaled notes := rfl

/-- **Without a usable plan**, with notes. -/
theorem handleNoPlan_journaled (reason : String) :
    (t.journaled notes).handleNoPlan reason =
      (t.handleNoPlan reason).journaled (notes ++ t.noPlanNotes reason) := by
  have hrecord : (t.journaled notes).record .planFailed (t.journaled notes).agent.describeGoal
      [("reason", reason), ("state", (t.journaled notes).agent.describeState)] =
      (t.record .planFailed t.agent.describeGoal
        [("reason", reason), ("state", t.agent.describeState)]).journaled notes := rfl
  simp only [handleNoPlan, noPlanNotes, hrecord]
  generalize t.record .planFailed t.agent.describeGoal
    [("reason", reason), ("state", t.agent.describeState)] = u
  have hhandler : (u.journaled notes).agent.definition.bindings.noPlan =
      u.agent.definition.bindings.noPlan.map (·.journaled (fun _ => .noPlan) id) := rfl
  rw [hhandler]
  cases u.agent.definition.bindings.noPlan with
  | none =>
      rw [List.append_nil]
      rfl
  | some h =>
      simp only [Option.map_some, call_journaled_id]
      cases u.call h with
      | mk r v =>
          have hagain (notes : List (Note W M)) :
              (v.journaled notes).makePlan.mapAgent (·.markDirty) =
                (v.makePlan.mapAgent (·.markDirty)).journaled notes := rfl
          cases r with
          | error e => rfl
          | ok again =>
              cases again with
              | false => rfl
              | true =>
                  simp only [hagain, plan_journaled]
                  generalize v.makePlan.mapAgent (·.markDirty) = w
                  cases w.agent.plan.outcome with
                  | found =>
                      simp only
                      rw [List.append_cons _ _ (beginNotes _)]
                      exact beginPlan_journaled _
                  | atGoal => rfl
                  | notFound => rfl
                  | truncated => rfl

theorem planAnew_journaled :
    (t.journaled notes).planAnew.2 = t.planAnew.2.journaled (notes ++ t.planNotes) := by
  rw [planAnew_eq, planAnew_eq, planNotes, freshPlan_journaled, plan_journaled]
  cases t.freshPlan.agent.plan.outcome with
  | atGoal => rw [List.append_nil]
  | found => exact beginPlan_journaled notes
  | notFound => exact handleNoPlan_journaled notes _
  | truncated => exact handleNoPlan_journaled notes _

theorem selectGoal_eq (t : Turn W M) :
    t.selectGoal.2 =
      match t.bindingFor t.agent.definition.bindings.goalSelectors with
      | none => t.planAnew.2
      | some h =>
        match h.run t.context with
        | (.error e, c) =>
          (t.absorb c).record .goalSelected "goal selection failed" [("error", e.message)]
        | (.ok (), c) => (t.choose c).planAnew.2 := by
  rw [selectGoal]
  cases t.bindingFor t.agent.definition.bindings.goalSelectors with
  | none => rfl
  | some h =>
      simp only
      cases h.run t.context with
      | mk r c =>
          cases r with
          | error e => rfl
          | ok done => rfl

/-- **Choosing a goal**, with notes. -/
theorem selectGoal_journaled :
    (t.journaled notes).selectGoal.2 = t.selectGoal.2.journaled (notes ++ t.selectNotes) := by
  have hbinding : (t.journaled notes).bindingFor
      (t.journaled notes).agent.definition.bindings.goalSelectors = _ :=
    bindingFor_journaled notes t.agent.definition.bindings.goalSelectors
      fun h => h.journaled (fun _ => .selectGoal) id
  have habsorb (c : Context W) (notes' : List (Note W M)) :
      (t.journaled notes).absorb (c.journaled notes') = (t.absorb c).journaled notes' := rfl
  have hchoose (c : Context W) (notes' : List (Note W M)) :
      (t.journaled notes).choose (c.journaled notes') = (t.choose c).journaled notes' := by
    have hreported : (c.journaled notes').goalReported = c.goalReported := rfl
    rw [choose, choose, habsorb, hreported]
    cases c.goalReported with
    | true => rfl
    | false => rfl
  rw [selectGoal_eq, selectGoal_eq, selectNotes, hbinding]
  cases t.bindingFor t.agent.definition.bindings.goalSelectors with
  | none => exact planAnew_journaled notes
  | some h =>
      simp only [Option.map_some, run_journaled, map_id]
      cases h.run t.context with
      | mk r c =>
          cases r with
          | error e => rfl
          | ok done =>
              simp only [hchoose]
              rw [List.append_cons _ _ (planNotes _)]
              exact planAnew_journaled _

/-! ## whole calls, with notes -/

theorem dropQueue_journaled : (t.journaled notes).dropQueue = t.dropQueue.journaled notes := rfl

theorem dropChanged_journaled (watched : UInt64) :
    (t.journaled notes).dropChanged watched =
      (t.dropChanged watched).journaled (notes ++ t.abortNotes .worldStateChanged) := by
  rw [dropChanged, abortFront_journaled]
  rfl

theorem refresh_journaled (external : UInt64) :
    (t.journaled notes).refresh external =
      ((t.refresh external).1, (t.refresh external).2.journaled
        (notes ++ t.updateNotes t.agent.definition.bindings.updaters)) := by
  have hupdaters : (t.journaled notes).runUpdaters
      (t.journaled notes).agent.definition.bindings.updaters = _ :=
    runUpdaters_journaled notes t.agent.definition.bindings.updaters
  have hnote (changed : UInt64) (u : Turn W M) (notes' : List (Note W M)) :
      (if changed = 0 then u.journaled notes'
        else (u.journaled notes').record .worldStateChange
          (",".intercalate (u.agent.atoms.describeBits changed))
          [("state", u.agent.describeState)]) =
        (if changed = 0 then u
          else u.record .worldStateChange (",".intercalate (u.agent.atoms.describeBits changed))
            [("state", u.agent.describeState)]).journaled notes' := by
    split
    · rfl
    · rfl
  simp only [refresh, hupdaters]
  exact Prod.ext rfl (hnote _ _ _)

theorem respond_journaled (result : StepResult) (changed : UInt64) :
    (t.journaled notes).respond result changed =
      ((t.respond result changed).1,
        (t.respond result changed).2.journaled (notes ++ t.respondNotes result changed)) := by
  have hmask : (t.journaled notes).agent.queue.head?.map (·.watchMask) =
      t.agent.queue.head?.map (·.watchMask) := by
    rw [queue_journaled]
    cases t.agent.queue with
    | nil => rfl
    | cons front rest => rfl
  simp only [respond, respondNotes, hmask]
  split
  · next h =>
      refine Prod.ext rfl ?_
      rw [← List.append_assoc]
      have hdrop := dropChanged_journaled (t := t) notes
        (((t.agent.queue.head?.map (·.watchMask)).getD 0) &&& changed)
      exact (congrArg (fun u => u.selectGoal.2) hdrop).trans (selectGoal_journaled _)
  · next h =>
      cases result with
      | needsPlan => exact Prod.ext rfl (selectGoal_journaled _)
      | retriesExhausted => exact Prod.ext rfl (selectGoal_journaled _)
      | running => exact Prod.ext rfl (by rw [List.append_nil])
      | succeeded => exact Prod.ext rfl (by rw [List.append_nil])
      | retrying => exact Prod.ext rfl (by rw [List.append_nil])

/-- **A tick**, with notes. -/
theorem step_journaled :
    (t.journaled notes).step = (t.step.1, t.step.2.journaled (notes ++ t.tickNotes)) := by
  have hexternal : (t.journaled notes).agent.current.changed (t.journaled notes).agent.cached =
      t.agent.current.changed t.agent.cached := rfl
  rw [step_eq, step_eq, hexternal, stepFront_journaled]
  simp only [refresh_journaled, respond_journaled, tickNotes, List.append_assoc]
  rfl

/-- **Every call does with notes what it does without them**, and adds its own. -/
theorem after_journaled (call : Call) :
    (t.journaled notes).after call = (t.after call).journaled (notes ++ t.notesOf call) := by
  cases call with
  | launch =>
      rw [after, launch, notesOf, seedBlackboard_journaled, selectGoal_journaled, List.append_assoc]
      rfl
  | step => exact congrArg Prod.snd (step_journaled notes)
  | replan =>
      rw [after, replan, notesOf, abortFront_journaled, planAnew_journaled, List.append_assoc]
      rfl
  | replanTo goal merge =>
      have hgoal : (t.journaled notes).changeGoal goal merge =
          (t.changeGoal goal merge).journaled notes := rfl
      show (((t.journaled notes).changeGoal goal merge).abortFront .replan).dropQueue.planAnew.2 = _
      rw [hgoal, abortFront_journaled, dropQueue_journaled, planAnew_journaled, List.append_assoc]
      rfl
  | interrupt =>
      have haction : (t.journaled notes).noteInterrupt = t.noteInterrupt.journaled notes := by
        rw [noteInterrupt, noteInterrupt, queue_journaled]
        cases t.agent.queue with
        | nil => rfl
        | cons front rest => rfl
      show (((t.journaled notes).noteInterrupt.abortFront
        .interrupt).dropQueue.seedBlackboard).selectGoal.2 = _
      rw [haction, abortFront_journaled, dropQueue_journaled, seedBlackboard_journaled,
        selectGoal_journaled, List.append_assoc, List.append_assoc]
      rfl

variable (t)

/-- What handlers are run in a call. -/
def journal (call : Call) : List (Note W M) := ((t.journaled []).after call).world.notes

theorem journal_eq (call : Call) : t.journal call = t.notesOf call := by
  rw [journal, after_journaled, List.nil_append]
  rfl

/-- In a tick the step of the front comes first, then the updaters, then the response. -/
theorem journal_step : t.journal .step =
    t.stepNotes ++ t.stepFront.2.updateNotes t.stepFront.2.agent.definition.bindings.updaters ++
      (t.stepFront.2.refresh (t.agent.current.changed t.agent.cached)).2.respondNotes
        t.stepFront.1 (t.stepFront.2.refresh (t.agent.current.changed t.agent.cached)).1 :=
  t.journal_eq .step

end Turn

end PlanningAgents
