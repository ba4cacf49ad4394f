import PlanningAgents.Proofs.Agent.Coherence
import PlanningAgents.Proofs.Agent.History

/-!
# PlanningAgents.Proofs.Agent.Lifecycle

The life of an action, as its handlers see it.  An action is open from the time it has been started
until its update reports success or failure, or fails itself, or the action is aborted.  Which
handlers may run depends on whether an action is open (`ActionStage.Allows`): nothing is started,
chosen or planned while one is, only its own task is resumed, and an action that has succeeded is
finished before anything else happens.  Its effects hold as soon as it is finished, and every
handler sees the state as the one before it has left it (`Status.Step`).

A history lists all that happens to an agent from its launch on: calls, handlers that are run in
them, and returns; in between, anything may be written from outside (`Life`).

Main statements:

* `Turn.follows_stepFront`, `Turn.leads_planAnew`, `Turn.leads_selectGoal` — the parts of a call
  keep to the protocol;
* `Turn.follows_notesOf` — so does every call;
* `Life.keeps_to_protocol` — so does every history, and an action is open exactly while it is at the
  front of the queue of its plan.
-/

namespace PlanningAgents

variable {W M α : Type}

/-! ## the protocol -/

/-- How far the front action is. -/
inductive ActionStage (M : Type) where
  | idle
  /-- Started and not over, with what its parked task remembers. -/
  | underway (action : String) (task : Option M)
  /-- Reported to have succeeded, and not finished yet. -/
  | succeeded (action : String)

/-- Which handlers may run at a stage, and what comes of it. -/
inductive ActionStage.Allows : ActionStage M → Run M → ActionStage M → Prop
  | started (action : String) : Allows .idle (.start action (.ok ())) (.underway action none)
  | notStarted (action : String) (e : HandlerError) : Allows .idle (.start action (.error e)) .idle
  | parked (action : String) (task : Option M) (memory : M) :
      Allows (.underway action task) (.resume action task (.ok (.yielded memory)))
        (.underway action (some memory))
  | ran (action : String) (task : Option M) :
      Allows (.underway action task) (.resume action task (.ok (.returned .running)))
        (.underway action none)
  | succeeded (action : String) (task : Option M) :
      Allows (.underway action task) (.resume action task (.ok (.returned .success)))
        (.succeeded action)
  | failed (action : String) (task : Option M) :
      Allows (.underway action task) (.resume action task (.ok (.returned .failure))) .idle
  | broken (action : String) (task : Option M) (e : HandlerError) :
      Allows (.underway action task) (.resume action task (.error e)) .idle
  | finished (action : String) : Allows (.succeeded action) (.finish action) .idle
  | aborted (action : String) (task : Option M) (reason : AbortReason) :
      Allows (.underway action task) (.abort action reason) .idle
  | updated (name : String) : Allows .idle (.update name) .idle
  | updatedMeanwhile (action : String) (task : Option M) (name : String) :
      Allows (.underway action task) (.update name) (.underway action task)
  | seeded : Allows .idle .seed .idle
  | selected : Allows .idle .selectGoal .idle
  | noPlan : Allows .idle .noPlan .idle

/-- Whether a run is that of a task. -/
def Run.isResume : Run M → Bool
  | .resume _ _ _ => true
  | _ => false

/-- Whether a run ends the action that is open. -/
def Run.closes : Run M → Bool
  | .resume _ _ (.ok (.yielded _)) => false
  | .resume _ _ (.ok (.returned status)) => status.isTerminal
  | .resume _ _ (.error _) => true
  | .abort _ _ => true
  | _ => false

/-- The state as it is when the next handler is run: a finished action has its effects. -/
def Note.leaves (effects : String → WorldState) (n : Note W M) : WorldState :=
  match n.run with
  | .finish action => n.after.current.apply (effects action)
  | _ => n.after.current

/-- What happens to an agent. -/
inductive Moment (W M : Type) where
  | called (call : Call) (current : WorldState)
  | ran (note : Note W M)
  | returned (current : WorldState)

/-- How the protocol stands. -/
structure Status (M : Type) where
  stage : ActionStage M := .idle
  /-- The state as it was last seen to be. -/
  current : WorldState := .empty
  /-- Whether a task may still be resumed in this call. -/
  resumable : Bool := false

/-- **The protocol**, moment by moment.  Only a tick resumes a task, and only one; a call returns
with no success left to be finished. -/
inductive Status.Step (effects : String → WorldState) :
    Status M → Moment W M → Status M → Prop
  | called (s : Status M) (call : Call) (current : WorldState) :
      Step effects s (.called call current) { s with current, resumable := call = .step }
  | ran {s : Status M} {n : Note W M} {stage : ActionStage M} (hstage : s.stage.Allows n.run stage)
      (hcurrent : n.before.current = s.current)
      (hresume : n.run.isResume = true → s.resumable = true) :
      Step effects s (.ran n)
        { stage, current := n.leaves effects, resumable := s.resumable && !n.run.isResume }
  | returned {s : Status M} (hstage : ∀ action, s.stage ≠ .succeeded action) :
      Step effects s (.returned s.current) s

/-- A history keeps to the protocol. -/
inductive Follows (effects : String → WorldState) :
    Status M → List (Moment W M) → Status M → Prop
  | nil (s : Status M) : Follows effects s [] s
  | cons {s s' s'' : Status M} {m : Moment W M} {ms : List (Moment W M)}
      (h : s.Step effects m s') (rest : Follows effects s' ms s'') : Follows effects s (m :: ms) s''

namespace Follows

variable {effects : String → WorldState} {s s' s'' : Status M} {ms ms' : List (Moment W M)}

theorem append (h : Follows effects s ms s') (h' : Follows effects s' ms' s'') :
    Follows effects s (ms ++ ms') s'' := by
  induction h with
  | nil s => exact h'
  | cons hstep _ ih => exact .cons hstep (ih h')

end Follows

/-! ## histories -/

/-- What happens in a call. -/
def Turn.moments (t : Turn W M) (call : Call) : List (Moment W M) :=
  .called call t.agent.current ::
    ((t.journal call).map .ran ++ [.returned (t.after call).agent.current])

/-- **The life of an agent** from its launch on: it is called time and again, and written to in
between. -/
inductive Life : List (Moment W M) → Agent W M → Prop
  | launch {t : Turn W M} (h : t.agent.Reachable) (hqueue : t.agent.queue = [])
      (hbegin : t.seeded = false) : Life (t.moments .launch) (t.after .launch).agent
  | call {ms : List (Moment W M)} {t : Turn W M} (h : Life ms t.agent) (hbegin : t.seeded = false)
      {call : Call} (hcall : call ≠ .launch) : Life (ms ++ t.moments call) (t.after call).agent
  | write {ms : List (Moment W M)} {a : Agent W M} (h : Life ms a) (w : Write) :
      Life ms (a.write w)

namespace Agent

/-- The effects of the planner's actions. -/
def effects (a : Agent W M) (name : String) : WorldState :=
  ((a.planner.action? name).map (·.post)).getD .empty

/-- The stage of the front action. -/
def stage (a : Agent W M) : ActionStage M :=
  match a.queue with
  | [] => .idle
  | front :: _ => if front.isRunning then .underway front.name front.task else .idle

variable {a b : Agent W M} {front : ActionRecord W M} {rest : List (ActionRecord W M)}

theorem stage_of_nil (h : a.queue = []) : a.stage = .idle := by
  rw [stage, h]

theorem stage_of_running (h : a.queue = front :: rest) (hrunning : front.isRunning = true) :
    a.stage = .underway front.name front.task := by
  rw [stage, h]
  exact if_pos hrunning

theorem stage_of_not_running (h : a.queue = front :: rest) (hrunning : front.isRunning = false) :
    a.stage = .idle := by
  rw [stage, h]
  simp [hrunning]

/-- Handlers and notes leave the stage alone. -/
theorem stage_of_kept_eq (h : b.kept = a.kept) : b.stage = a.stage := by
  have hqueue : b.queue = a.queue := (congrArg Agent.queue h :)
  rw [stage, stage, hqueue]

end Agent

namespace Turn

variable {effects : String → WorldState} {t u : Turn W M} {notes notes' : List (Note W M)}
  {stage stage' stage'' : ActionStage M} {s s' s'' : WorldState}

/-- A part of a call in which no task is resumed leads from a stage and a state to others. -/
def Leads (effects : String → WorldState) (stage : ActionStage M) (s : WorldState)
    (notes : List (Note W M)) (stage' : ActionStage M) (s' : WorldState) : Prop :=
  ∀ resumable, Follows effects ⟨stage, s, resumable⟩ (notes.map .ran) ⟨stage', s', resumable⟩

theorem Leads.nil (stage : ActionStage M) (s : WorldState) :
    Leads effects stage s ([] : List (Note W M)) stage s :=
  fun _ => .nil _

theorem Leads.trans (h : Leads effects stage s notes stage' s')
    (h' : Leads effects stage' s' notes' stage'' s'') :
    Leads effects stage s (notes ++ notes') stage'' s'' := by
  intro resumable
  rw [List.map_append]
  exact (h resumable).append (h' resumable)

/-- What a handler leaves, unless it finishes an action. -/
theorem leaves_note {h : Handler W α} {label : Except HandlerError α → Run M}
    {r : Except HandlerError α} (hcall : t.call h = (r, u))
    (hplain : ∀ action, label r ≠ .finish action) :
    (t.note h label).leaves effects = u.agent.current := by
  obtain ⟨rfl, rfl⟩ := Prod.mk.inj hcall
  rw [Note.leaves]
  split
  · next action heq => exact absurd heq (hplain action)
  · rfl

/-- A handler that the stage allows, and that finishes no action. -/
theorem follows_note {h : Handler W α} {label : Except HandlerError α → Run M}
    {r : Except HandlerError α} (hcall : t.call h = (r, u))
    (hallows : stage.Allows (label r) stage')
    (hplain : ∀ action, label r ≠ .finish action) {resumable : Bool}
    (hresume : (label r).isResume = true → resumable = true) :
    Follows effects ⟨stage, t.agent.current, resumable⟩ [.ran (t.note h label)]
      ⟨stage', u.agent.current, resumable && !(label r).isResume⟩ := by
  have hleaves : (t.note h label).leaves effects = _ := leaves_note hcall hplain
  obtain ⟨rfl, rfl⟩ := Prod.mk.inj hcall
  have hstep : Status.Step effects ⟨stage, t.agent.current, resumable⟩ (.ran (t.note h label)) _ :=
    .ran hallows rfl hresume
  rw [hleaves] at hstep
  exact .cons hstep (.nil _)

theorem leads_note {h : Handler W α} {label : Except HandlerError α → Run M}
    {r : Except HandlerError α} (hcall : t.call h = (r, u))
    (hallows : stage.Allows (label r) stage')
    (hresume : (label r).isResume = false) (hplain : ∀ action, label r ≠ .finish action) :
    Leads effects stage t.agent.current [t.note h label] stage' u.agent.current := by
  intro resumable
  have hnote : Follows effects ⟨stage, _, resumable⟩ _ _ :=
    follows_note hcall hallows hplain (by simp [hresume])
  rw [hresume, Bool.not_false, Bool.and_true] at hnote
  exact hnote

/-! ## the front action -/

/-- **Starting the front** opens it, or leaves nothing open. -/
theorem leads_startFront (t : Turn W M) :
    Leads effects .idle t.agent.current t.startNotes t.startFront.2.agent.stage
      t.startFront.2.agent.current := by
  cases hcons : t.agent.queue with
  | nil =>
      simp only [startFront, startNotes, hcons, Agent.stage_of_nil hcons]
      exact .nil _ _
  | cons front rest =>
      rw [startFront_eq hcons, startNotes, hcons]
      cases hcall : (t.readyFront front).call front.handlers.start with
      | mk r u =>
          have hqueue : u.agent.queue = { front with task := none, phase := .created } :: rest :=
            (congrArg Agent.queue (kept_of_call hcall)).trans (queue_readyFront hcons)
          have hnote {stage : ActionStage M}
              (hallows : ActionStage.Allows .idle (.start front.name r) stage) :
              Leads effects .idle t.agent.current
                [(t.readyFront front).note front.handlers.start (.start front.name)] stage
                u.agent.current := leads_note hcall hallows rfl fun _ => by simp
          cases r with
          | ok done =>
              have hrunning := queue_mapFront hqueue ({ · with phase := .running })
              simp only
              rw [Agent.stage_of_running hrunning rfl]
              exact hnote (.started front.name)
          | error e =>
              have hfailed := queue_mapFront hqueue ({ · with phase := .failed })
              simp only
              rw [Agent.stage_of_kept_eq (kept_record _ _ _ _),
                Agent.stage_of_not_running hfailed rfl]
              exact hnote (.notStarted front.name e)

/-- A front that does not start is not open. -/
theorem stage_of_not_started {u : Turn W M} (h : t.startFront = (false, u)) :
    u.agent.stage = .idle := by
  cases hcons : t.agent.queue with
  | nil =>
      simp only [startFront, hcons, Prod.mk.injEq] at h
      rw [← h.2, Agent.stage_of_nil hcons]
  | cons front rest =>
      rw [startFront_eq hcons] at h
      cases hcall : (t.readyFront front).call front.handlers.start with
      | mk r v =>
          rw [hcall] at h
          have hqueue : v.agent.queue = { front with task := none, phase := .created } :: rest :=
            (congrArg Agent.queue (kept_of_call hcall)).trans (queue_readyFront hcons)
          cases r with
          | ok done => exact absurd (Prod.mk.inj h).1 (by simp)
          | error e =>
              have hfailed := queue_mapFront hqueue ({ · with phase := .failed })
              rw [← (Prod.mk.inj h).2]
              exact Agent.stage_of_not_running hfailed rfl

/-- However often the front fails to start, it ends open or dropped. -/
theorem leads_retryFront (name : String) (left : Nat) (t : Turn W M) :
    Leads effects .idle t.agent.current (retryNotes left t)
      (retryFront name left t).2.agent.stage (retryFront name left t).2.agent.current := by
  induction left generalizing t with
  | zero => exact .nil _ _
  | succ left ih =>
      have hstart : Leads effects _ _ _ _ _ := leads_startFront t.countRetry
      rw [retryFront, retryNotes]
      simp only [← countRetry.eq_def]
      cases hstarted : t.countRetry.startFront with
      | mk started u =>
          rw [hstarted] at hstart
          cases started with
          | true =>
              rw [List.append_nil]
              exact hstart
          | false =>
              rw [stage_of_not_started hstarted] at hstart
              exact hstart.trans (ih u)

/-- **After a failure** the front is open again, or dropped. -/
theorem leads_failFront (t : Turn W M) :
    Leads effects .idle t.agent.current t.failNotes t.failFront.2.agent.stage
      t.failFront.2.agent.current := by
  cases hcons : t.agent.queue with
  | nil =>
      simp only [failFront, failNotes, hcons, Agent.stage_of_nil hcons]
      exact .nil _ _
  | cons front rest =>
      rw [failFront, failNotes, hcons]
      exact leads_retryFront _ _ t

theorem leads_startOrFail (t : Turn W M) (result : StepResult) :
    Leads effects .idle t.agent.current t.startOrFailNotes
      (t.startOrFail result).2.agent.stage (t.startOrFail result).2.agent.current := by
  have hstart : Leads effects _ _ _ _ _ := leads_startFront t
  rw [startOrFail, startOrFailNotes]
  cases hstarted : t.startFront with
  | mk started u =>
      rw [hstarted] at hstart
      cases started with
      | true =>
          rw [List.append_nil]
          exact hstart
      | false =>
          rw [stage_of_not_started hstarted] at hstart
          exact hstart.trans (leads_failFront u)

variable {front : ActionRecord W M} {rest : List (ActionRecord W M)}

/-- A success is finished, and its effects hold from then on. -/
theorem leads_popFront (hpost : effects front.name = front.post) :
    Leads effects (.succeeded front.name) t.agent.current
      [(t.mapFront ({ · with phase := .succeeded, task := none })).note front.handlers.finish
        (fun _ => .finish front.name)] .idle (t.popFront front rest).agent.current := by
  intro resumable
  have hleaves : ((t.mapFront ({ · with phase := .succeeded, task := none })).note
      front.handlers.finish (fun _ => .finish front.name)).leaves effects =
        (t.popFront front rest).agent.current := by
    show WorldState.apply _ (effects front.name) = WorldState.apply _ front.post
    rw [hpost]
    rfl
  have hstep : Status.Step effects ⟨.succeeded front.name, t.agent.current, resumable⟩
      (.ran ((t.mapFront ({ · with phase := .succeeded, task := none })).note front.handlers.finish
        (fun _ => .finish front.name))) ⟨.idle, _, resumable && true⟩ :=
    .ran (.finished front.name) rfl (by simp [note, Run.isResume])
  rw [hleaves, Bool.and_true] at hstep
  exact .cons hstep (.nil _)

/-- **After a success** the action is finished, and the one behind it is started. -/
theorem leads_completeFront (hcons : t.agent.queue = front :: rest)
    (hpost : effects front.name = front.post) :
    Leads effects (.succeeded front.name) t.agent.current t.completeNotes
      t.completeFront.2.agent.stage t.completeFront.2.agent.current := by
  have hpop : Leads effects _ t.agent.current _ _ (t.popFront front rest).agent.current :=
    leads_popFront hpost
  rw [completeFront_eq_startOrFail hcons, completeNotes, hcons]
  cases hempty : rest.isEmpty with
  | true =>
      simp only [hempty, if_true]
      rw [Agent.stage_of_nil ((queue_popFront hcons).trans (List.isEmpty_iff.mp hempty))]
      exact hpop
  | false =>
      simp only [hempty, Bool.false_eq_true, if_false]
      exact hpop.trans (leads_startOrFail _ _)

/-- **A step of the front** resumes what is open, or starts what is not. -/
theorem follows_stepFront (t : Turn W M) (hposts : ∀ r ∈ t.agent.queue, effects r.name = r.post) :
    ∃ resumable, Follows effects ⟨t.agent.stage, t.agent.current, true⟩ (t.stepNotes.map .ran)
      ⟨t.stepFront.2.agent.stage, t.stepFront.2.agent.current, resumable⟩ := by
  cases hcons : t.agent.queue with
  | nil =>
      simp only [stepFront, stepNotes, hcons]
      exact ⟨true, .nil _⟩
  | cons front rest =>
      have hpost : effects front.name = front.post := hposts front (by rw [hcons]; simp)
      rw [stepFront_eq hcons, stepNotes, hcons]
      cases hrunning : front.isRunning with
      | false =>
          simp only [hrunning, Bool.not_false, if_true]
          rw [Agent.stage_of_not_running hcons hrunning]
          exact ⟨true, leads_startOrFail t .running true⟩
      | true =>
          have hopen := queue_mapFront hcons ({ · with task := none })
          simp only [hrunning, Bool.not_true, Bool.false_eq_true, if_false]
          rw [Agent.stage_of_running hcons hrunning]
          refine ⟨false, ?_⟩
          cases hcall : (t.mapFront ({ · with task := none })).call
              (front.handlers.resume (front.task.getD front.handlers.fresh)) with
          | mk r u =>
              have hqueue := (congrArg Agent.queue (kept_of_call hcall)).trans hopen
              have hresume {stage : ActionStage M}
                  (hallows : ActionStage.Allows (.underway front.name front.task)
                    (.resume front.name front.task r) stage) :
                  Follows effects ⟨_, _, true⟩ _ ⟨stage, _, false⟩ :=
                follows_note hcall hallows (fun _ => by simp) fun _ => rfl
              cases r with
              | error e =>
                  exact (hresume (.broken _ _ e)).append (leads_failFront (u.record .actionResult
                    front.name [("status", "ERROR"), ("error", e.message)]) false)
              | ok progress =>
                  cases progress with
                  | yielded memory =>
                      have hparked := queue_mapFront hqueue
                        ({ · with task := some memory, phase := .suspended })
                      rw [Agent.stage_of_running hparked rfl]
                      exact hresume (.parked _ _ memory)
                  | returned status =>
                      cases status with
                      | running =>
                          have hagain := queue_mapFront hqueue ({ · with phase := .running })
                          rw [Agent.stage_of_running hagain rfl]
                          exact hresume (.ran _ _)
                      | success =>
                          exact (hresume (.succeeded _ _)).append
                            (leads_completeFront hqueue hpost false)
                      | failure =>
                          exact (hresume (.failed _ _)).append (leads_failFront (u.record
                            .actionResult front.name [("status", ActionStatus.failure.name)]) false)

/-- **Aborting the front** leaves nothing open. -/
theorem leads_abortFront (t : Turn W M) (reason : AbortReason) :
    Leads effects t.agent.stage t.agent.current (t.abortNotes reason) .idle
      (t.abortFront reason).agent.current := by
  cases hcons : t.agent.queue with
  | nil =>
      simp only [abortFront, abortNotes, hcons]
      rw [Agent.stage_of_nil hcons]
      exact .nil _ _
  | cons front rest =>
      cases hrunning : front.isRunning with
      | false =>
          simp only [abortFront, abortNotes, hcons, hrunning, Bool.not_false, if_true]
          rw [Agent.stage_of_not_running hcons hrunning]
          exact .nil _ _
      | true =>
          simp only [abortFront, abortNotes, hcons, hrunning, Bool.not_true, Bool.false_eq_true,
            if_false]
          rw [Agent.stage_of_running hcons hrunning]
          cases hcall : (t.mapFront ({ · with phase := .aborted, task := none })).call
              (front.handlers.abort reason) with
          | mk r u =>
              have hnote : Leads effects (.underway front.name front.task) t.agent.current
                  [(t.mapFront ({ · with phase := .aborted, task := none })).note
                    (front.handlers.abort reason) (fun _ => .abort front.name reason)] .idle
                  u.agent.current := leads_note hcall (.aborted _ _ reason) rfl fun _ => by simp
              exact hnote

/-! ## updaters, the blackboard and planning -/

/-- Updaters may run whether or not an action is open. -/
theorem leads_runUpdaters (updaters : List (String × Handler W Unit)) (t : Turn W M)
    (hstage : ∀ action, stage ≠ .succeeded action) :
    Leads effects stage t.agent.current (t.updateNotes updaters) stage
      (t.runUpdaters updaters).agent.current := by
  induction updaters generalizing t with
  | nil => exact .nil _ _
  | cons updater rest ih =>
      obtain ⟨name, h⟩ := updater
      have hallows : stage.Allows (.update name) stage := by
        cases stage with
        | idle => exact .updated name
        | underway action task => exact .updatedMeanwhile action task name
        | succeeded action => exact absurd rfl (hstage action)
      rw [runUpdaters, updateNotes]
      cases hcall : t.call h with
      | mk r u =>
          have hnote : Leads effects stage t.agent.current [t.note h (fun _ => .update name)] stage
              u.agent.current := leads_note hcall hallows rfl fun _ => by simp
          cases r with
          | ok done => exact hnote.trans (ih u)
          | error e => exact hnote.trans (ih (u.record _ _ _))

theorem leads_seedBlackboard (t : Turn W M) :
    Leads effects .idle t.agent.current t.seedNotes .idle t.seedBlackboard.agent.current := by
  rw [seedBlackboard_eq, seedNotes]
  cases t.bindingFor t.agent.definition.bindings.blackboardInit with
  | none => exact .nil _ _
  | some h =>
      exact leads_note (t := t.clearBlackboard) rfl .seeded rfl fun _ => by simp

theorem leads_queuePlan (t : Turn W M) :
    Leads effects .idle t.agent.current (if t.seeded then [] else t.seedNotes) .idle
      t.queuePlan.agent.current := by
  have hcurrent : t.queuePlan.agent.current =
      (if t.seeded then t else t.seedBlackboard).agent.current :=
    (congrArg Agent.current (agent_enqueueFrom _ 0 _) :)
  rw [hcurrent]
  cases t.seeded with
  | true => exact .nil _ _
  | false => exact leads_seedBlackboard t

/-- **Beginning a plan** opens its first action, if one starts. -/
theorem leads_beginPlan (t : Turn W M) :
    Leads effects .idle t.agent.current t.beginNotes t.beginPlan.agent.stage
      t.beginPlan.agent.current := by
  have hqueue : Leads effects _ _ _ _ _ := leads_queuePlan t
  rw [beginPlan_eq_startOrFail, beginNotes]
  cases hempty : t.queuePlan.agent.queue.isEmpty with
  | true =>
      simp only [if_true, List.append_nil]
      have hidle : t.queuePlan.agent.stage = .idle :=
        Agent.stage_of_nil (List.isEmpty_iff.mp hempty)
      exact hidle ▸ hqueue
  | false =>
      simp only [Bool.false_eq_true, if_false]
      exact hqueue.trans (leads_startOrFail t.queuePlan .running)

/-- With nothing queued, nothing is open. -/
theorem Leads.idle (h : Leads effects stage s notes .idle s') (hqueue : u.agent.queue = []) :
    Leads effects stage s notes u.agent.stage s' := by
  rw [Agent.stage_of_nil hqueue]
  exact h

/-- **Without a usable plan** nothing is open, unless another attempt finds one. -/
theorem leads_handleNoPlan (t : Turn W M) (hqueue : t.agent.queue = []) (reason : String) :
    Leads effects .idle t.agent.current (t.noPlanNotes reason) (t.handleNoPlan reason).agent.stage
      (t.handleNoPlan reason).agent.current := by
  simp only [handleNoPlan, noPlanNotes]
  generalize hnoted : t.record .planFailed t.agent.describeGoal
    [("reason", reason), ("state", t.agent.describeState)] = u
  have hcurrent : u.agent.current = t.agent.current := hnoted ▸ rfl
  have hempty : u.agent.queue = [] := hnoted ▸ hqueue
  rw [← hcurrent]
  cases u.agent.definition.bindings.noPlan with
  | none => exact (Leads.nil _ _).idle hempty
  | some h =>
      simp only
      cases hcall : u.call h with
      | mk r v =>
          have hrest : v.agent.queue = [] :=
            (congrArg Agent.queue (kept_of_call hcall)).trans hempty
          have hnote : Leads effects .idle u.agent.current [u.note h (fun _ => .noPlan)] .idle
              v.agent.current := leads_note hcall .noPlan rfl fun _ => by simp
          cases r with
          | error e => exact hnote.idle hrest
          | ok again =>
              cases again with
              | false => exact hnote.idle hrest
              | true =>
                  simp only
                  generalize hagain : v.makePlan.mapAgent (·.markDirty) = w
                  have hsame : w.agent.current = v.agent.current := hagain ▸ rfl
                  have hnone : w.agent.queue = [] := hagain ▸ hrest
                  rw [← hsame] at hnote
                  cases w.agent.plan.outcome with
                  | found => exact hnote.trans (leads_beginPlan w)
                  | atGoal => exact hnote.idle hnone
                  | notFound => exact hnote.idle hnone
                  | truncated => exact hnote.idle hnone

/-- **Planning** opens the first action of a plan that is found. -/
theorem leads_planAnew (t : Turn W M) :
    Leads effects .idle t.agent.current t.planNotes t.planAnew.2.agent.stage
      t.planAnew.2.agent.current := by
  have hqueue := t.queue_freshPlan
  rw [planAnew_eq, planNotes, ← current_freshPlan]
  generalize t.freshPlan = u at hqueue ⊢
  cases u.agent.plan.outcome with
  | atGoal => exact (Leads.nil _ _).idle hqueue
  | found => exact leads_beginPlan u
  | notFound => exact leads_handleNoPlan u hqueue _
  | truncated => exact leads_handleNoPlan u hqueue _

/-- **Choosing a goal**, and planning for it, where nothing is queued. -/
theorem leads_selectGoal (t : Turn W M) (hqueue : t.agent.queue = []) :
    Leads effects .idle t.agent.current t.selectNotes t.selectGoal.2.agent.stage
      t.selectGoal.2.agent.current := by
  rw [selectGoal_eq, selectNotes]
  cases t.bindingFor t.agent.definition.bindings.goalSelectors with
  | none => exact leads_planAnew t
  | some h =>
      have hnote : Leads effects .idle t.agent.current [t.note h (fun _ => .selectGoal)] .idle
          (h.run t.context).2.current :=
        leads_note rfl .selected rfl fun _ => by simp
      simp only
      cases hrun : h.run t.context with
      | mk r c =>
          rw [hrun] at hnote
          cases r with
          | error e => exact hnote.idle hqueue
          | ok done =>
              have hchoose : (t.choose c).agent.current = c.current := by
                rw [choose]
                split
                · rfl
                · rfl
              have hplan : Leads effects _ _ _ _ _ := leads_planAnew (t.choose c)
              rw [hchoose] at hplan
              exact hnote.trans hplan

end Turn

/-! ## whole calls -/

/-- Whether a plan is still being carried out after a step of the front. -/
def StepResult.goesOn : StepResult → Bool
  | .running | .succeeded | .retrying => true
  | .needsPlan | .retriesExhausted => false

namespace Turn

variable {effects : String → WorldState} {t u : Turn W M}

theorem goesOn_retryFront (name : String) (left : Nat) (t : Turn W M) :
    (retryFront name left t).1.goesOn = true ∨ (retryFront name left t).2.agent.queue = [] := by
  induction left generalizing t with
  | zero => exact .inr rfl
  | succ left ih =>
      rw [retryFront]
      split
      · exact .inl rfl
      · exact ih _

theorem goesOn_failFront (t : Turn W M) :
    t.failFront.1.goesOn = true ∨ t.failFront.2.agent.queue = [] := by
  rw [failFront]
  split
  · next hnil => exact .inr hnil
  · exact goesOn_retryFront _ _ t

theorem goesOn_startOrFail (t : Turn W M) {result : StepResult} (h : result.goesOn = true) :
    (t.startOrFail result).1.goesOn = true ∨ (t.startOrFail result).2.agent.queue = [] := by
  rw [startOrFail]
  split
  · exact .inl h
  · exact goesOn_failFront _

theorem goesOn_completeFront (t : Turn W M) :
    t.completeFront.1.goesOn = true ∨ t.completeFront.2.agent.queue = [] := by
  cases hcons : t.agent.queue with
  | nil =>
      rw [completeFront, hcons]
      exact .inr hcons
  | cons front rest =>
      rw [completeFront_eq_startOrFail hcons]
      split
      · exact .inl rfl
      · exact goesOn_startOrFail _ rfl

/-- **A step of the front** goes on with its plan, or has nothing left in its queue. -/
theorem goesOn_stepFront (t : Turn W M) :
    t.stepFront.1.goesOn = true ∨ t.stepFront.2.agent.queue = [] := by
  cases hcons : t.agent.queue with
  | nil =>
      rw [stepFront, hcons]
      exact .inr hcons
  | cons front rest =>
      rw [stepFront_eq hcons]
      split
      · exact goesOn_startOrFail _ rfl
      · split
        · exact .inl rfl
        · exact .inl rfl
        · exact goesOn_completeFront _
        · exact goesOn_failFront _
        · exact goesOn_failFront _

/-- The response to a change drops the plan, and plans for a new goal. -/
theorem leads_reactTo (t : Turn W M) (watched : UInt64) :
    Leads effects t.agent.stage t.agent.current
      (t.abortNotes .worldStateChanged ++ (t.dropChanged watched).selectNotes)
      (t.reactTo watched).agent.stage (t.reactTo watched).agent.current :=
  (leads_abortFront t .worldStateChanged).trans (leads_selectGoal (t.dropChanged watched) rfl)

theorem leads_respond (t : Turn W M) {result : StepResult}
    (hresult : result.goesOn = true ∨ t.agent.queue = []) (changed : UInt64) :
    Leads effects t.agent.stage t.agent.current (t.respondNotes result changed)
      (t.respond result changed).2.agent.stage (t.respond result changed).2.agent.current := by
  simp only [respond, respondNotes]
  split
  · exact leads_reactTo t _
  · have hselect (hqueue : t.agent.queue = []) : Leads effects t.agent.stage t.agent.current
        t.selectNotes t.selectGoal.2.agent.stage t.selectGoal.2.agent.current := by
      rw [Agent.stage_of_nil hqueue]
      exact leads_selectGoal t hqueue
    cases result with
    | needsPlan => exact hselect (hresult.resolve_left Bool.false_ne_true)
    | retriesExhausted => exact hselect (hresult.resolve_left Bool.false_ne_true)
    | running => exact .nil _ _
    | succeeded => exact .nil _ _
    | retrying => exact .nil _ _

theorem leads_refresh (t : Turn W M) (external : UInt64)
    (hstage : ∀ action, t.agent.stage ≠ .succeeded action) :
    Leads effects t.agent.stage t.agent.current
      (t.updateNotes t.agent.definition.bindings.updaters)
      (t.refresh external).2.agent.stage (t.refresh external).2.agent.current := by
  have hupdate : Leads effects _ _ _ _ _ :=
    leads_runUpdaters t.agent.definition.bindings.updaters t hstage
  have hcurrent : (t.refresh external).2.agent.current =
      (t.runUpdaters t.agent.definition.bindings.updaters).agent.current := by
    simp only [refresh]
    split
    · rfl
    · rfl
  rw [Agent.stage_of_kept_eq (t.kept_refresh external), hcurrent]
  exact hupdate

end Turn

/-- Between handlers, no success is left to be finished. -/
theorem Agent.stage_ne_succeeded (a : Agent W M) (action : String) :
    a.stage ≠ .succeeded action := by
  rw [stage]
  split
  · simp
  · split
    · simp
    · simp

namespace Turn

variable {effects : String → WorldState} {t u : Turn W M}

/-- **A tick** keeps to the protocol. -/
theorem follows_step (t : Turn W M) (hposts : ∀ r ∈ t.agent.queue, effects r.name = r.post) :
    ∃ resumable, Follows effects ⟨t.agent.stage, t.agent.current, true⟩ (t.tickNotes.map .ran)
      ⟨t.step.2.agent.stage, t.step.2.agent.current, resumable⟩ := by
  obtain ⟨resumable, hfront⟩ := follows_stepFront t hposts
  have hrefresh : Leads effects _ _ _ _ _ := leads_refresh t.stepFront.2
    (t.agent.current.changed t.agent.cached) t.stepFront.2.agent.stage_ne_succeeded
  have hqueue : (t.stepFront.2.refresh (t.agent.current.changed t.agent.cached)).2.agent.queue =
      t.stepFront.2.agent.queue := (congrArg Agent.queue (kept_refresh _ _) :)
  have hgoes := goesOn_stepFront t
  rw [← hqueue] at hgoes
  have hrespond : Leads effects _ _ _ _ _ := leads_respond _ hgoes
    (t.stepFront.2.refresh (t.agent.current.changed t.agent.cached)).1
  refine ⟨resumable, ?_⟩
  rw [step_eq, tickNotes, List.map_append, List.map_append]
  exact (hfront.append (hrefresh resumable)).append (hrespond resumable)

/-- **Every call** keeps to the protocol, if it does not break into what the agent is doing. -/
theorem follows_notesOf (t : Turn W M) (hposts : ∀ r ∈ t.agent.queue, effects r.name = r.post)
    {call : Call} (hcall : call = .launch → t.agent.queue = []) :
    ∃ resumable, Follows effects ⟨t.agent.stage, t.agent.current, call = .step⟩
      ((t.notesOf call).map .ran)
      ⟨(t.after call).agent.stage, (t.after call).agent.current, resumable⟩ := by
  cases call with
  | launch =>
      have hqueue := hcall rfl
      have hrest : t.seedBlackboard.agent.queue = [] :=
        (congrArg Agent.queue t.kept_seedBlackboard).trans hqueue
      rw [Agent.stage_of_nil hqueue]
      exact ⟨false, (leads_seedBlackboard t).trans (leads_selectGoal _ hrest) false⟩
  | step => exact follows_step t hposts
  | replan => exact ⟨false, (leads_abortFront t .replan).trans (leads_planAnew _) false⟩
  | replanTo goal merge =>
      exact ⟨false, (leads_abortFront (t.changeGoal goal merge) .replan).trans
        (leads_planAnew ((t.changeGoal goal merge).abortFront .replan).dropQueue) false⟩
  | interrupt =>
      have hdrop : Leads effects _ _ _ _ _ := leads_abortFront t.noteInterrupt .interrupt
      have hseed : Leads effects _ _ _ _ _ := leads_seedBlackboard
        (t.noteInterrupt.abortFront .interrupt).dropQueue
      have hselect : Leads effects _ _ _ _ _ := leads_selectGoal
        (t.noteInterrupt.abortFront .interrupt).dropQueue.seedBlackboard
        (congrArg Agent.queue (kept_seedBlackboard _))
      exact ⟨false, hdrop.trans (hseed.trans hselect) false⟩

theorem effects_of_continues {a b : Agent W M} (h : b.Continues a) : b.effects = a.effects := by
  funext name
  rw [Agent.effects, Agent.effects, h.action?]

/-- A call and its return. -/
theorem follows_moments {s : Status M} (hrest : t.agent.AtRest) (hstage : s.stage = t.agent.stage)
    {call : Call} (hcall : call = .launch → t.agent.queue = []) :
    ∃ s', Follows t.agent.effects s (t.moments call) s' ∧
      s'.stage = (t.after call).agent.stage := by
  have hposts : ∀ r ∈ t.agent.queue, t.agent.effects r.name = r.post := by
    intro r hr
    obtain ⟨-, x, hx, hpost⟩ := hrest.describes r hr
    rw [Agent.effects, hx, ← hpost]
    rfl
  obtain ⟨resumable, hnotes⟩ := follows_notesOf t hposts hcall
  rw [← hstage] at hnotes
  refine ⟨⟨(t.after call).agent.stage, (t.after call).agent.current, resumable⟩,
    .cons (.called s call _) ?_, rfl⟩
  rw [journal_eq]
  exact hnotes.append (.cons (.returned (Agent.stage_ne_succeeded _)) (.nil _))

/-! ## what stays open -/

variable {front : ActionRecord W M} {rest : List (ActionRecord W M)}

/-- What is under way is aborted where its plan is dropped. -/
theorem exists_closes_abortNotes (hcons : t.agent.queue = front :: rest)
    (hrunning : front.isRunning = true) (reason : AbortReason) :
    ∃ n ∈ t.abortNotes reason, n.run.closes = true := by
  simp only [abortNotes, hcons, hrunning, Bool.not_true, Bool.false_eq_true, if_false]
  exact ⟨_, List.mem_singleton_self _, rfl⟩

/-- A step that does not end what is under way leaves it at the front. -/
theorem keeps_of_stepFront (hcons : t.agent.queue = front :: rest)
    (hrunning : front.isRunning = true)
    (hopen : ∀ n ∈ t.stepNotes, n.run.closes = false) :
    t.stepFront.1 = .running ∧ t.stepFront.2.agent.plan = t.agent.plan ∧
      ∃ front', t.stepFront.2.agent.queue = front' :: rest ∧ front'.place = front.place ∧
        front'.isRunning = true := by
  have htask := queue_mapFront hcons ({ · with task := none })
  rw [stepFront_eq hcons]
  rw [stepNotes, hcons] at hopen
  simp only [hrunning, Bool.not_true, Bool.false_eq_true, if_false] at hopen ⊢
  have hresume := hopen _ List.mem_cons_self
  cases hcall : (t.mapFront ({ · with task := none })).call
      (front.handlers.resume (front.task.getD front.handlers.fresh)) with
  | mk r u =>
      have hkept := kept_of_call hcall
      have hqueue := (congrArg Agent.queue hkept).trans htask
      have hplan : u.agent.plan = t.agent.plan := (congrArg Agent.plan hkept :)
      have hclosed := hresume
      rw [run_note hcall] at hclosed
      cases r with
      | error e => cases hclosed
      | ok progress =>
          cases progress with
          | yielded memory => exact ⟨rfl, hplan, _, queue_mapFront hqueue _, rfl, rfl⟩
          | returned status =>
              cases status with
              | running => exact ⟨rfl, hplan, _, queue_mapFront hqueue _, rfl, rfl⟩
              | success => cases hclosed
              | failure => cases hclosed

/-- A response that does not abort what is under way leaves everything in place. -/
theorem keeps_of_respond (hcons : t.agent.queue = front :: rest) (hrunning : front.isRunning = true)
    (changed : UInt64) (hopen : ∀ n ∈ t.respondNotes .running changed, n.run.closes = false) :
    (t.respond .running changed).2 = t := by
  simp only [respond]
  split
  · next hwatched =>
      obtain ⟨n, hn, hcloses⟩ := exists_closes_abortNotes hcons hrunning .worldStateChanged
      simp only [respondNotes, if_pos hwatched] at hopen
      have hclosed := hopen n (List.mem_append_left _ hn)
      exact absurd (hclosed.symm.trans hcloses) Bool.false_ne_true
  · rfl

/-- **A call that does not end what is under way** leaves it, and its plan, in place. -/
theorem keeps_of_after (hcons : t.agent.queue = front :: rest) (hrunning : front.isRunning = true)
    {call : Call} (hcall : call ≠ .launch) (hopen : ∀ n ∈ t.journal call, n.run.closes = false) :
    (t.after call).agent.plan = t.agent.plan ∧
      ∃ front', (t.after call).agent.queue = front' :: rest ∧ front'.place = front.place := by
  cases call with
  | launch => exact absurd rfl hcall
  | step =>
      rw [journal_step] at hopen
      obtain ⟨hrun, hplan, front', hqueue, hplace, hrunning'⟩ := keeps_of_stepFront hcons hrunning
        fun n hn => hopen n (List.mem_append_left _ (List.mem_append_left _ hn))
      rw [hrun] at hopen
      have hkept := t.stepFront.2.kept_refresh (t.agent.current.changed t.agent.cached)
      have hqueue' := (congrArg Agent.queue hkept).trans hqueue
      have hplan' := (congrArg Agent.plan hkept).trans hplan
      have hkeep := keeps_of_respond hqueue' hrunning' _ fun n hn =>
        hopen n (List.mem_append_right _ hn)
      rw [after, step_eq]
      simp only [hrun, hkeep]
      exact ⟨hplan', front', hqueue', hplace⟩
  | replan =>
      rw [journal_eq] at hopen
      obtain ⟨n, hn, hcloses⟩ := exists_closes_abortNotes hcons hrunning .replan
      have hclosed := hopen n (List.mem_append_left _ hn)
      exact absurd (hclosed.symm.trans hcloses) Bool.false_ne_true
  | replanTo goal merge =>
      rw [journal_eq] at hopen
      obtain ⟨n, hn, hcloses⟩ :=
        exists_closes_abortNotes (t := t.changeGoal goal merge) hcons hrunning .replan
      have hclosed := hopen n (List.mem_append_left _ hn)
      exact absurd (hclosed.symm.trans hcloses) Bool.false_ne_true
  | interrupt =>
      rw [journal_eq] at hopen
      obtain ⟨n, hn, hcloses⟩ :=
        exists_closes_abortNotes (t := t.noteInterrupt) hcons hrunning .interrupt
      have hclosed := hopen n (List.mem_append_left _ hn)
      exact absurd (hclosed.symm.trans hcloses) Bool.false_ne_true

end Turn

namespace Life

variable {ms : List (Moment W M)} {a : Agent W M}

theorem reachable (h : Life ms a) : a.Reachable := by
  induction h with
  | launch h _ hbegin => exact h.after hbegin .launch
  | call _ hbegin _ ih => exact ih.after hbegin _
  | write _ w ih => exact ih.write w

/-- A history keeps to the protocol, and ends at the stage of the front action. -/
theorem follows (h : Life ms a) : ∃ s, Follows a.effects {} ms s ∧ s.stage = a.stage := by
  induction h with
  | @launch t h hqueue hbegin =>
      rw [Turn.effects_of_continues (t.continues_after .launch)]
      exact Turn.follows_moments h.atRest (Agent.stage_of_nil hqueue).symm fun _ => hqueue
  | @call ms t h hbegin call hcall ih =>
      obtain ⟨s, hfollows, hstage⟩ := ih
      obtain ⟨s', hmoments, hstage'⟩ :=
        Turn.follows_moments h.reachable.atRest hstage fun heq => absurd heq hcall
      rw [Turn.effects_of_continues (t.continues_after call)]
      exact ⟨s', hfollows.append hmoments, hstage'⟩
  | @write ms a h w ih =>
      rw [Turn.effects_of_continues (a.continues_write w), Agent.stage_of_kept_eq (a.kept_write w)]
      exact ih

/-- **Actions live by the protocol.**  In every history handlers run only where the protocol allows
it.  Between calls an action is open exactly if it is at the front of the queue of a plan that has
been found; and a call that does not end it keeps this plan, so that no plan is ever dropped under
an open action. -/
theorem keeps_to_protocol (h : Life ms a) :
    (∃ s, Follows a.effects {} ms s ∧ (a.queue = [] → s.stage = .idle) ∧
      ∀ front rest, a.queue = front :: rest →
        a.plan.outcome = .found ∧ s.stage = .underway front.name front.task) ∧
    ∀ (t : Turn W M) (call : Call) (front : ActionRecord W M) (rest : List (ActionRecord W M)),
      t.agent = a → call ≠ .launch → a.queue = front :: rest →
      (∀ n ∈ t.journal call, n.run.closes = false) →
        (t.after call).agent.plan = a.plan ∧
          ∃ front', (t.after call).agent.queue = front' :: rest ∧ front'.place = front.place := by
  have hrest := h.reachable.atRest
  have hopen {front : ActionRecord W M} {rest : List (ActionRecord W M)}
      (hcons : a.queue = front :: rest) : front.isRunning = true :=
    (hrest.front front (by rw [hcons]; rfl)).2.1
  constructor
  · obtain ⟨s, hfollows, hstage⟩ := h.follows
    refine ⟨s, hfollows, fun hnil => hstage.trans (Agent.stage_of_nil hnil), ?_⟩
    intro front rest hcons
    have hfound := hrest.found (by rw [hcons]; exact List.cons_ne_nil _ _)
    exact ⟨hfound, hstage.trans (Agent.stage_of_running hcons (hopen hcons))⟩
  · rintro t call front rest rfl hcall hcons hjournal
    exact Turn.keeps_of_after hcons (hopen hcons) hcall hjournal

theorem launch_idle {a : Agent Unit Bool} (h : a.Reachable) (hqueue : a.queue = []) :
    Life ((Agent.idleTurn a).moments .launch) (Agent.idleTurn a).launch.2.agent :=
  .launch (t := Agent.idleTurn a) h hqueue rfl

theorem step_idle {ms : List (Moment Unit Bool)} {a : Agent Unit Bool} (h : Life ms a) :
    Life (ms ++ (Agent.idleTurn a).moments .step) (Agent.idleTurn a).step.2.agent :=
  .call (t := Agent.idleTurn a) h rfl (by simp)

/-- The traveller sets to work, and the work on the raft is open. -/
theorem keeps_to_protocol_travellerAtWork :
    ∃ ms, Life ms Agent.travellerAtWork ∧
      ∃ s, Follows Agent.travellerAtWork.effects {} ms s ∧
        s.stage = .underway "build_raft" (some true) := by
  obtain ⟨ms, hwork⟩ : ∃ ms, Life ms Agent.travellerAtWork := by
    rw [Agent.travellerAtWork, Agent.traveller]
    exact ⟨_, (launch_idle (Agent.Reachable.ofDefinition _ _ _).loadDefinition
      (List.isEmpty_iff.mp (by decide +kernel))).step_idle⟩
  obtain ⟨⟨s, hfollows, -, hopen⟩, -⟩ := hwork.keeps_to_protocol
  have hfront : Agent.travellerAtWork.queue.head?.map (fun r => (r.name, r.task)) =
      some ("build_raft", some true) := by decide +kernel
  obtain ⟨front, hhead, hname⟩ := Option.map_eq_some_iff.mp hfront
  obtain ⟨rest, hcons⟩ := List.head?_eq_some_iff.mp hhead
  obtain ⟨hname, htask⟩ := Prod.mk.inj hname
  have hstage := (hopen front rest hcons).2
  rw [hname, htask] at hstage
  exact ⟨ms, hwork, s, hfollows, hstage⟩

end Life

end PlanningAgents
