import PlanningAgents.Proofs.Agent.Coherence
import PlanningAgents.Proofs.Agent.Reaction

/-!
# PlanningAgents.Proofs.Agent.Moves

What an agent can do, move by move.  A call into an agent comes down to small moves: a handler is
run, the front of the queue changes its phase, a retry is counted, a plan is made or dropped.  Each
move tells under which condition it is made and what it changes, and nothing else is ever changed.
A property that every move keeps holds throughout every call, so the parts of a call are gone
through once, here, and no later proof has to follow them again.

A front that is due to be started is in the phase `created`, and in no other phase is it due: so the
phase tells a start from what comes after it, and the moves need no memory of their own.

Main statements:

* `Agent.Move` — the moves, and the events by which they are told;
* `Agent.Moves` — the moves of a stretch of a call;
* `Agent.Moves.continues` — moves leave alone what an agent has been loaded with;
* `Turn.does_after` — every call is made of moves, which run the handlers of its journal.
-/

namespace PlanningAgents

variable {W M α : Type}

/-- What a move is told by. -/
inductive Event (W M : Type) where
  /-- A handler is run. -/
  | ran (note : Note W M)
  /-- Another record is at the front of the queue, if one is. -/
  | newFront

/-- The note of the handler that is run. -/
def Event.note? : Event W M → Option (Note W M)
  | .ran note => some note
  | .newFront => none

/-- The phase in which a start leaves its action. -/
def startedPhase : Except HandlerError Unit → ActionPhase
  | .ok () => .running
  | .error _ => .failed

theorem startedPhase_ne_created (r : Except HandlerError Unit) : startedPhase r ≠ .created := by
  cases r with
  | ok done => exact nofun
  | error e => exact nofun

/-- An action that is under way has been started. -/
theorem ActionRecord.phase_ne_created_of_isRunning {r : ActionRecord W M}
    (h : r.isRunning = true) : r.phase ≠ .created := by
  intro hphase
  rw [isRunning, hphase] at h
  exact absurd h (by decide)

/-- An action that is under way has not failed. -/
theorem ActionRecord.phase_ne_failed_of_isRunning {r : ActionRecord W M}
    (h : r.isRunning = true) : r.phase ≠ .failed := by
  intro hphase
  rw [isRunning, hphase] at h
  exact absurd h (by decide)

namespace Agent

/-- The front, if there is one, is not due to be started. -/
def Begun (a : Agent W M) : Prop := ∀ r ∈ a.queue.head?, r.phase ≠ .created

/-- The front, if there is one, has not failed. -/
def Unfailed (a : Agent W M) : Prop := ∀ r ∈ a.queue.head?, r.phase ≠ .failed

theorem begun_of_queue_eq {a : Agent W M} {front : ActionRecord W M}
    {rest : List (ActionRecord W M)} (hcons : a.queue = front :: rest)
    (h : front.phase ≠ .created) : a.Begun := by
  intro r hr
  rw [hcons, List.head?_cons, Option.mem_some_iff] at hr
  exact hr ▸ h

theorem Begun.front {a : Agent W M} (h : a.Begun) {front : ActionRecord W M}
    {rest : List (ActionRecord W M)} (hcons : a.queue = front :: rest) : front.phase ≠ .created :=
  h front (by rw [hcons]; rfl)

theorem unfailed_of_queue_eq {a : Agent W M} {front : ActionRecord W M}
    {rest : List (ActionRecord W M)} (hcons : a.queue = front :: rest)
    (h : front.phase ≠ .failed) : a.Unfailed := by
  intro r hr
  rw [hcons, List.head?_cons, Option.mem_some_iff] at hr
  exact hr ▸ h

theorem unfailed_of_queue_eq_nil {a : Agent W M} (h : a.queue = []) : a.Unfailed := by
  intro r hr
  rw [h] at hr
  cases hr

/-- At rest the front has been started, and has not failed. -/
theorem AtRest.unfailed {a : Agent W M} (h : a.AtRest) : a.Unfailed :=
  fun r hr => ActionRecord.phase_ne_failed_of_isRunning (h.front r hr).2.1

/-- **A move.** -/
inductive Move : Agent W M → List (Event W M) → Agent W M → Prop
  /-- A handler that does not start an action is run. -/
  | run {α : Type} (t : Turn W M) (h : Handler W α) {label : Except HandlerError α → Run M}
      (hlabel : ∀ r, (label r).isStart = false) :
      Move t.agent [.ran (t.note h label)] (t.call h).2.agent
  /-- The front is started. -/
  | start {t : Turn W M} {front : ActionRecord W M} {rest : List (ActionRecord W M)}
      (hcons : t.agent.queue = front :: rest) (hdue : front.phase = .created) :
      Move t.agent [.ran (t.note front.handlers.start (.start front.name))]
        ((t.call front.handlers.start).2.mapFront
          ({ · with phase := startedPhase (t.call front.handlers.start).1 })).agent
  /-- Something is noted that no other move depends on. -/
  | aside (a : Agent W M) (trace : TraceBuffer) (blackboard : Blackboard) (actionIndex : Nat)
      (dirty : Bool) : Move a [] { a with trace, blackboard, actionIndex, dirty }
  | clearGoal (a : Agent W M) : Move a [] { a with goal := .empty }
  | remember (a : Agent W M) : Move a [] { a with cached := a.current }
  | depart (a : Agent W M) : Move a [] { a with planStart := a.current, cached := a.current }
  /-- The front changes its task and its phase, but not whether it is due to be started. -/
  | touch {a : Agent W M} {front : ActionRecord W M} {rest : List (ActionRecord W M)}
      {task : ActionRecord W M → Option M} {phase : ActionRecord W M → ActionPhase}
      (hcons : a.queue = front :: rest) (hphase : phase front = .created ↔ front.phase = .created) :
      Move a [] { a with
        queue := a.queue.modifyHead fun r => { r with task := task r, phase := phase r } }
  /-- The front is due to be started again. -/
  | retry {a : Agent W M} {front : ActionRecord W M} {rest : List (ActionRecord W M)}
      (hcons : a.queue = front :: rest) (hphase : front.phase ≠ .created)
      (hleft : a.retries < a.maxRetries) :
      Move a [] { a with
        queue := a.queue.modifyHead ({ · with task := none, phase := .created })
        retries := a.retries + 1 }
  /-- The effects of the front hold after its success. -/
  | effect {a : Agent W M} {front : ActionRecord W M} {rest : List (ActionRecord W M)}
      (hcons : a.queue = front :: rest) (hphase : front.phase = .succeeded) :
      Move a [] { a with current := a.current.apply front.post }
  /-- The front leaves the queue after its success. -/
  | pop {a : Agent W M} {front : ActionRecord W M} {rest : List (ActionRecord W M)}
      (hcons : a.queue = front :: rest) (hphase : front.phase = .succeeded) :
      Move a [.newFront] { a with queue := a.queue.tail, retries := 0 }
  /-- The front leaves the queue after its failure, and the queue is dropped with it. -/
  | giveUp {a : Agent W M} {front : ActionRecord W M} {rest : List (ActionRecord W M)}
      (hcons : a.queue = front :: rest) (hphase : front.phase = .failed)
      (hleft : a.maxRetries ≤ a.retries) : Move a [] { a with queue := [], dirty := true }
  /-- The queue is dropped while its front has not failed. -/
  | drop {a : Agent W M} (hphase : a.Unfailed) :
      Move a [] { a with queue := [] }
  | plan {a : Agent W M} (hqueue : a.queue = []) :
      Move a [] { a with plan := a.planner.plan a.current a.goal }
  | reset {a : Agent W M} (hqueue : a.queue = []) : Move a [] { a with retries := 0 }
  /-- The plan is queued. -/
  | enqueue {a : Agent W M} (hqueue : a.queue = []) (hretries : a.retries = 0) :
      Move a [.newFront] { a with queue := a.plan.actions.zipIdx.filterMap a.recordAt? }

/-- Moves one after the other, and the events by which they are told. -/
inductive Moves : Agent W M → List (Event W M) → Agent W M → Prop
  | nil (a : Agent W M) : Moves a [] a
  | snoc {a b c : Agent W M} {events events' : List (Event W M)} (h : Moves a events b)
      (hmove : Move b events' c) : Moves a (events ++ events') c

theorem Moves.trans {a b c : Agent W M} {events events' : List (Event W M)}
    (h : Moves a events b) (h' : Moves b events' c) : Moves a (events ++ events') c := by
  induction h' with
  | nil => rwa [List.append_nil]
  | snoc _ hmove ih =>
      rw [← List.append_assoc]
      exact ih.snoc hmove

/-! ## what moves leave alone -/

/-- **A move leaves alone** what the agent has been loaded with. -/
theorem Move.continues {a b : Agent W M} {events : List (Event W M)} (h : Move a events b) :
    b.Continues a := by
  cases h with
  | run t h hlabel => exact t.continues_call h
  | start hcons hdue => exact { Turn.continues_call _ _ with }
  | aside trace blackboard actionIndex dirty => exact ⟨rfl, .refl _⟩
  | clearGoal => exact ⟨rfl, .refl _⟩
  | remember => exact ⟨rfl, .refl _⟩
  | depart => exact ⟨rfl, .refl _⟩
  | touch hcons hphase => exact ⟨rfl, .refl _⟩
  | retry hcons hphase hleft => exact ⟨rfl, .refl _⟩
  | effect hcons hphase => exact ⟨rfl, .refl _⟩
  | pop hcons hphase => exact ⟨rfl, .refl _⟩
  | giveUp hcons hphase hleft => exact ⟨rfl, .refl _⟩
  | drop hphase => exact ⟨rfl, .refl _⟩
  | plan hqueue => exact ⟨rfl, .refl _⟩
  | reset hqueue => exact ⟨rfl, .refl _⟩
  | enqueue hqueue hretries => exact ⟨rfl, .refl _⟩

/-- So do moves. -/
theorem Moves.continues {a b : Agent W M} {events : List (Event W M)} (h : Moves a events b) :
    b.Continues a := by
  induction h with
  | nil => exact .refl a
  | snoc _ hmove ih => exact hmove.continues.trans ih

/-! ## moves that run handlers -/

/-- An agent becomes another one by moves that run the handlers of some notes. -/
def Does (a : Agent W M) (notes : List (Note W M)) (b : Agent W M) : Prop :=
  ∃ events, Moves a events b ∧ events.filterMap Event.note? = notes

theorem Move.does {a b : Agent W M} {events : List (Event W M)} (h : Move a events b) :
    a.Does (events.filterMap Event.note?) b :=
  ⟨events, .snoc (.nil a) h, rfl⟩

namespace Does

variable {a b c : Agent W M} {notes notes' : List (Note W M)}

theorem refl (a : Agent W M) : a.Does [] a := ⟨[], .nil a, rfl⟩

theorem trans (h : a.Does notes b) (h' : b.Does notes' c) : a.Does (notes ++ notes') c := by
  obtain ⟨events, hmoves, rfl⟩ := h
  obtain ⟨events', hmoves', rfl⟩ := h'
  exact ⟨events ++ events', hmoves.trans hmoves', List.filterMap_append⟩

/-- A stretch before which no handler is run. -/
theorem after (h' : b.Does notes c) (h : a.Does [] b) : a.Does notes c := h.trans h'

/-- A stretch behind which no handler is run. -/
theorem quiet (h : a.Does notes b) (h' : b.Does [] c) : a.Does notes c := by
  have htrans := h.trans h'
  rwa [List.append_nil] at htrans

/-- Something is noted that no other move depends on. -/
theorem aside (h : a.Does notes b) {trace : TraceBuffer} {blackboard : Blackboard}
    {actionIndex : Nat} {dirty : Bool} :
    a.Does notes { b with trace, blackboard, actionIndex, dirty } :=
  h.quiet (Move.aside b trace blackboard actionIndex dirty).does

end Does

end Agent

namespace Turn

open Agent

variable {t u : Turn W M} {front : ActionRecord W M} {rest : List (ActionRecord W M)}

/-! ## the front action -/

/-- A handler that does not start an action is run. -/
theorem does_call (t : Turn W M) (h : Handler W α) (label : Except HandlerError α → Run M)
    (hlabel : ∀ r, (label r).isStart = false) :
    t.agent.Does [t.note h label] (t.call h).2.agent :=
  (Move.run t h hlabel).does

theorem does_of_call {r : Except HandlerError α} {h : Handler W α}
    (hcall : t.call h = (r, u)) (label : Except HandlerError α → Run M)
    (hlabel : ∀ r, (label r).isStart = false) : t.agent.Does [t.note h label] u.agent := by
  have hdoes := t.does_call h label hlabel
  rwa [hcall] at hdoes

/-- Something is recorded. -/
theorem does_record {a : Agent W M} {notes : List (Note W M)} (h : a.Does notes t.agent)
    (kind : TraceKind) (message : String) (extra : List (String × String)) :
    a.Does notes (t.record kind message extra).agent :=
  h.aside

/-- A queue with its front replaced. -/
theorem does_mapFront (hcons : t.agent.queue = front :: rest)
    (task : ActionRecord W M → Option M) (phase : ActionRecord W M → ActionPhase)
    (hphase : phase front = .created ↔ front.phase = .created) :
    t.agent.Does [] (t.mapFront fun r => { r with task := task r, phase := phase r }).agent :=
  (Move.touch hcons hphase).does

/-- **The front is started** once it has been made ready. -/
theorem does_startFront {a : Agent W M} (hcons : t.agent.queue = front :: rest)
    (hready : a.Does [] (t.readyFront front).agent) : a.Does t.startNotes t.startFront.2.agent := by
  have hqueue := queue_readyFront hcons
  have hstart := (Move.start hqueue rfl).does
  rw [startFront_eq hcons, startNotes, hcons]
  refine Does.after ?_ hready
  cases hcall : (t.readyFront front).call front.handlers.start with
  | mk r u =>
      rw [hcall] at hstart
      cases r with
      | ok done => exact hstart
      | error e => exact hstart.aside

/-- A front that is due to be started can be made ready. -/
theorem does_readyFront (hcons : t.agent.queue = front :: rest) (hdue : front.phase = .created) :
    t.agent.Does [] (t.readyFront front).agent :=
  (does_mapFront hcons (fun _ => none) (fun _ => .created) (by simp [hdue])).aside

/-- What making the front ready changes. -/
theorem agent_readyFront (t : Turn W M) (front : ActionRecord W M) :
    (t.readyFront front).agent =
      { t.agent with
        queue := t.agent.queue.modifyHead ({ · with task := none, phase := .created })
        actionIndex := front.planIndex
        trace := (t.readyFront front).agent.trace } := by
  simp only [readyFront, record, mapFront, mapAgent, Agent.pushTrace]

/-- A front that did not start has failed. -/
theorem of_startFront_eq_false (hcons : t.agent.queue = front :: rest)
    (hstart : t.startFront = (false, u)) :
    u.agent.queue = { front with task := none, phase := .failed } :: rest ∧
      u.agent.retries = t.agent.retries ∧ u.agent.maxRetries = t.agent.maxRetries := by
  rw [startFront_eq hcons] at hstart
  cases hcall : (t.readyFront front).call front.handlers.start with
  | mk r v =>
      have hkept := kept_of_call hcall
      have hqueue := (congrArg Agent.queue hkept).trans (queue_readyFront hcons)
      have hretries : v.agent.retries = t.agent.retries :=
        (congrArg Agent.retries hkept).trans (by rw [agent_readyFront]; rfl)
      have hmax : v.agent.maxRetries = t.agent.maxRetries :=
        (congrArg Agent.maxRetries hkept).trans (by rw [agent_readyFront]; rfl)
      rw [hcall] at hstart
      cases r with
      | ok done => cases hstart
      | error e =>
          obtain ⟨-, rfl⟩ := Prod.mk.inj hstart
          exact ⟨queue_mapFront hqueue _, hretries, hmax⟩

/-- Counting a retry makes the front ready to be started again. -/
theorem does_countRetry (hcons : t.agent.queue = front :: rest) (hbegun : front.phase ≠ .created)
    (hleft : t.agent.retries < t.agent.maxRetries) :
    t.agent.Does [] (t.countRetry.readyFront { front with task := none }).agent := by
  have hretry := (Move.retry hcons hbegun hleft).does
  have hcounted : t.countRetry.agent =
      { t.agent with
        queue := t.agent.queue.modifyHead ({ · with task := none })
        retries := t.agent.retries + 1 } := rfl
  rw [agent_readyFront, hcounted]
  simp only [List.modifyHead_modifyHead]
  exact hretry.aside

/-- Giving up the front drops the queue. -/
theorem does_giveUpFront (hcons : t.agent.queue = front :: rest) (hbegun : front.phase ≠ .created)
    (hleft : t.agent.maxRetries ≤ t.agent.retries) (name : String) :
    t.agent.Does [] (t.giveUpFront name).agent := by
  have hfailed := does_mapFront hcons (fun _ => none) (fun _ => .failed)
    (by simp [hbegun])
  have hqueue := queue_mapFront hcons ({ · with task := none, phase := .failed })
  have hdrop : (t.mapFront ({ · with task := none, phase := .failed })).agent.Does [] _ :=
    (Move.giveUp hqueue rfl hleft).does
  exact (hfailed.quiet hdrop).aside

/-- **The front is tried again** as often as retries are left, and is given up then. -/
theorem does_retryFront (name : String) (left : Nat) (t : Turn W M)
    {front : ActionRecord W M} {rest : List (ActionRecord W M)}
    (hcons : t.agent.queue = front :: rest) (hbegun : front.phase ≠ .created)
    (hleft : left = t.agent.maxRetries.toNat - t.agent.retries.toNat) :
    t.agent.Does (retryNotes left t) (retryFront name left t).2.agent := by
  induction left generalizing t front rest with
  | zero =>
      refine does_giveUpFront hcons hbegun ?_ name
      rw [UInt32.le_iff_toNat_le]
      omega
  | succ left ih =>
      have hless : t.agent.retries < t.agent.maxRetries := by
        rw [UInt32.lt_iff_toNat_lt]
        omega
      have hcount : t.countRetry.agent.queue = { front with task := none } :: rest :=
        queue_mapFront hcons _
      have hstarted := does_startFront hcount (does_countRetry hcons hbegun hless)
      rw [retryFront, retryNotes, ← countRetry.eq_def]
      cases hstart : t.countRetry.startFront with
      | mk started u =>
          rw [hstart] at hstarted
          cases started with
          | true =>
              rw [List.append_nil]
              exact hstarted
          | false =>
              obtain ⟨hqueue, hretries, hmax⟩ := of_startFront_eq_false hcount hstart
              refine hstarted.trans (ih u hqueue (by simp) ?_)
              have hnext : u.agent.retries.toNat = t.agent.retries.toNat + 1 := by
                rw [hretries]
                show (t.agent.retries + 1).toNat = _
                have hmaxRetries := t.agent.maxRetries.toNat_lt
                rw [UInt32.toNat_add]
                simp only [UInt32.toNat_one]
                omega
              have hsame : u.agent.maxRetries = t.agent.maxRetries := hmax
              rw [hnext, hsame]
              omega

/-- **After a failure** the front is tried again, or given up. -/
theorem does_failFront (hbegun : t.agent.Begun) :
    t.agent.Does t.failNotes t.failFront.2.agent := by
  cases hcons : t.agent.queue with
  | nil =>
      rw [failFront, failNotes, hcons]
      exact .refl _
  | cons front rest =>
      rw [failFront, failNotes, hcons]
      exact does_retryFront _ _ t hcons (hbegun.front hcons) rfl

/-- So it is after a failure that is recorded. -/
theorem does_failFront_record (hbegun : t.agent.Begun) (kind : TraceKind) (message : String)
    (extra : List (String × String)) :
    t.agent.Does (t.record kind message extra).failNotes
      (t.record kind message extra).failFront.2.agent :=
  (does_failFront (t := t.record kind message extra) hbegun).after (.aside (.refl _))

/-- Starting the front, at once or later. -/
theorem does_startOrFail (hcons : t.agent.queue = front :: rest) (hdue : front.phase = .created)
    (result : StepResult) :
    t.agent.Does t.startOrFailNotes (t.startOrFail result).2.agent := by
  have hstarted := does_startFront hcons (does_readyFront hcons hdue)
  rw [startOrFail, startOrFailNotes]
  cases hstart : t.startFront with
  | mk started u =>
      rw [hstart] at hstarted
      cases started with
      | true =>
          rw [List.append_nil]
          exact hstarted
      | false =>
          have hqueue := (of_startFront_eq_false hcons hstart).1
          exact hstarted.trans (does_failFront (begun_of_queue_eq hqueue (by simp)))

/-- The front ends after success, and leaves the queue. -/
theorem does_popFront (hcons : t.agent.queue = front :: rest) (hbegun : front.phase ≠ .created) :
    t.agent.Does [(t.mapFront ({ · with phase := .succeeded, task := none })).note
      front.handlers.finish (fun _ => .finish front.name)] (t.popFront front rest).agent := by
  have hsucceeded := does_mapFront hcons (fun _ => none) (fun _ => .succeeded)
    (by simp [hbegun])
  have hqueue := queue_mapFront hcons ({ · with task := none, phase := .succeeded })
  have hfinish := does_call (t.mapFront ({ · with phase := .succeeded, task := none }))
    front.handlers.finish (fun _ => .finish front.name) fun _ => rfl
  have heffect := (Move.effect
    (a := ((t.mapFront ({ · with phase := .succeeded, task := none })).call
      front.handlers.finish).2.agent) hqueue rfl).does
  have hpop := (Move.pop (a := { ((t.mapFront ({ · with phase := .succeeded, task := none })).call
    front.handlers.finish).2.agent with
      current := ((t.mapFront ({ · with phase := .succeeded, task := none })).call
        front.handlers.finish).2.agent.current.apply front.post }) hqueue rfl).does
  exact (((hfinish.after hsucceeded).quiet heffect).quiet hpop).aside

/-- **After a success** the action behind the front is started, if there is one. -/
theorem does_completeFront (hbegun : t.agent.Begun)
    (hwaiting : ∀ r ∈ t.agent.queue.tail, r.phase = .created) :
    t.agent.Does t.completeNotes t.completeFront.2.agent := by
  cases hcons : t.agent.queue with
  | nil =>
      rw [completeFront, completeNotes, hcons]
      exact .refl _
  | cons front rest =>
      have hpop := does_popFront hcons (hbegun.front hcons)
      have hqueue := queue_popFront hcons
      rw [completeFront_eq_startOrFail hcons, completeNotes, hcons]
      cases rest with
      | nil => exact hpop
      | cons next rest =>
          have hdue : next.phase = .created := hwaiting next (by simp [hcons])
          exact hpop.trans (does_startOrFail hqueue hdue _)

/-- **The step of the front.** -/
theorem does_stepFront (hrunning : ∀ r ∈ t.agent.queue.head?, r.isRunning = true)
    (hwaiting : ∀ r ∈ t.agent.queue.tail, r.phase = .created) :
    t.agent.Does t.stepNotes t.stepFront.2.agent := by
  cases hcons : t.agent.queue with
  | nil =>
      rw [stepFront, stepNotes, hcons]
      exact .refl _
  | cons front rest =>
      have hfront : front.isRunning = true := hrunning front (by rw [hcons]; rfl)
      have hbegun := ActionRecord.phase_ne_created_of_isRunning hfront
      have hempty := does_mapFront hcons (fun _ => none) (fun r => r.phase) .rfl
      have hqueue := queue_mapFront hcons ({ · with task := none })
      rw [stepFront_eq hcons, stepNotes, hcons]
      simp only [hfront, Bool.not_true, Bool.false_eq_true, if_false]
      cases hcall : (t.mapFront ({ · with task := none })).call
          (front.handlers.resume (front.task.getD front.handlers.fresh)) with
      | mk r u =>
          have hresumed := (does_of_call hcall (.resume front.name front.task)
            fun _ => rfl).after hempty
          have hkept := (congrArg Agent.queue (kept_of_call hcall)).trans hqueue
          have hleft : u.agent.Begun := begun_of_queue_eq hkept hbegun
          cases r with
          | error e => exact hresumed.trans (does_failFront_record hleft _ _ _)
          | ok progress =>
              cases progress with
              | yielded memory =>
                  exact hresumed.quiet (does_mapFront hkept (fun _ => some memory)
                    (fun _ => .suspended) (by simp [hbegun]))
              | returned status =>
                  cases status with
                  | running =>
                      exact hresumed.quiet (does_mapFront hkept (fun r => r.task)
                        (fun _ => .running) (by simp [hbegun]))
                  | success =>
                      refine hresumed.trans (does_completeFront hleft ?_)
                      rw [show u.agent.queue = _ from hkept]
                      rwa [hcons] at hwaiting
                  | failure =>
                      exact hresumed.trans (does_failFront_record hleft _ _ _)

/-- **Aborting the front.** -/
theorem does_abortFront (t : Turn W M) (reason : AbortReason) :
    t.agent.Does (t.abortNotes reason) (t.abortFront reason).agent := by
  cases hcons : t.agent.queue with
  | nil =>
      rw [abortFront, abortNotes, hcons]
      exact .refl _
  | cons front rest =>
      rw [abortFront, abortNotes, hcons]
      cases hrunning : front.isRunning with
      | false =>
          simp only [hrunning, Bool.not_false, if_true]
          exact .refl _
      | true =>
          have hbegun := ActionRecord.phase_ne_created_of_isRunning hrunning
          have haborted := does_mapFront hcons (fun _ => none) (fun _ => .aborted)
            (by simp [hbegun])
          have hcall := does_call (t.mapFront ({ · with phase := .aborted, task := none }))
            (front.handlers.abort reason) (fun _ => .abort front.name reason) fun _ => rfl
          simp only [hrunning, Bool.not_true, Bool.false_eq_true, if_false]
          exact (hcall.after haborted).aside

/-- An aborted front has not failed, if it had not before. -/
theorem unfailed_abortFront (h : t.agent.Unfailed)
    (reason : AbortReason) : (t.abortFront reason).agent.Unfailed := by
  cases hcons : t.agent.queue with
  | nil =>
      rw [abortFront, hcons]
      exact h
  | cons front rest =>
      have hqueue := queue_mapFront hcons ({ · with phase := .aborted, task := none })
      rw [abortFront, hcons]
      cases hrunning : front.isRunning with
      | false => simpa only [hrunning, Bool.not_false, if_true] using h
      | true =>
          simp only [hrunning, Bool.not_true, Bool.false_eq_true, if_false]
          exact unfailed_of_queue_eq (a := Turn.agent _) hqueue (by simp)

/-- The queue is dropped while its front has not failed. -/
theorem does_dropQueue (h : t.agent.Unfailed) :
    t.agent.Does [] t.dropQueue.agent :=
  (Move.drop h).does.aside

/-! ## updaters, the blackboard and planning -/

theorem does_runUpdaters (updaters : List (String × Handler W Unit)) (t : Turn W M) :
    t.agent.Does (t.updateNotes updaters) (t.runUpdaters updaters).agent := by
  induction updaters generalizing t with
  | nil => exact .refl _
  | cons updater rest ih =>
      obtain ⟨name, h⟩ := updater
      rw [runUpdaters, updateNotes]
      cases hcall : t.call h with
      | mk r u =>
          have hupdate := does_of_call hcall (fun _ => .update name) fun _ => rfl
          cases r with
          | ok done => exact hupdate.trans (ih u)
          | error e => exact hupdate.trans ((ih _).after (.aside (.refl _)))

theorem does_refresh (t : Turn W M) (external : UInt64) :
    t.agent.Does (t.updateNotes t.agent.definition.bindings.updaters)
      (t.refresh external).2.agent := by
  have hupdates := does_runUpdaters t.agent.definition.bindings.updaters t
  simp only [refresh]
  split
  · exact hupdates
  · exact hupdates.aside

theorem does_seedBlackboard (t : Turn W M) : t.agent.Does t.seedNotes t.seedBlackboard.agent := by
  have hclear : t.agent.Does [] t.clearBlackboard.agent := .aside (.refl _)
  rw [seedBlackboard_eq, seedNotes]
  cases t.bindingFor t.agent.definition.bindings.blackboardInit with
  | none => exact hclear
  | some h => exact (does_call _ h _ fun _ => rfl).after hclear

/-- A plan is queued while nothing else is. -/
theorem does_queuePlan (hqueue : t.agent.queue = []) (hretries : t.agent.retries = 0) :
    t.agent.Does (if t.seeded then [] else t.seedNotes) t.queuePlan.agent := by
  have hseed : t.agent.Does (if t.seeded then [] else t.seedNotes)
      (if t.seeded then t else t.seedBlackboard).agent := by
    split
    · exact .refl _
    · exact t.does_seedBlackboard
  have hkept : (if t.seeded then t else t.seedBlackboard).agent.kept = t.agent.kept := by
    split
    · rfl
    · exact t.kept_seedBlackboard
  rw [queuePlan]
  generalize (if t.seeded then t else t.seedBlackboard) = u at hseed hkept ⊢
  have hnil : u.agent.queue = [] := (congrArg Agent.queue hkept).trans hqueue
  have hzero : u.agent.retries = 0 := (congrArg Agent.retries hkept).trans hretries
  have hqueued := u.agent_enqueueFrom 0 u.agent.plan.actions
  rw [hnil, List.nil_append] at hqueued
  have henqueue : u.agent.Does [] (u.enqueueFrom 0 u.agent.plan.actions).agent := by
    rw [hqueued]
    exact (Move.enqueue hnil hzero).does.aside
  exact hseed.quiet henqueue.aside

/-- What a plan is queued as is due to be started. -/
theorem phase_queuePlan (hqueue : t.agent.queue = []) :
    ∀ r ∈ t.queuePlan.agent.queue, r.phase = .created := by
  have hkept : (if t.seeded then t else t.seedBlackboard).agent.kept = t.agent.kept := by
    split
    · rfl
    · exact t.kept_seedBlackboard
  rw [queuePlan]
  generalize (if t.seeded then t else t.seedBlackboard) = u at hkept ⊢
  have hnil : u.agent.queue = [] := (congrArg Agent.queue hkept).trans hqueue
  have hqueued := congrArg Agent.queue (u.agent_enqueueFrom 0 u.agent.plan.actions)
  rw [hnil, List.nil_append] at hqueued
  intro r hr
  have hr : r ∈ (u.enqueueFrom 0 u.agent.plan.actions).agent.queue := hr
  rw [hqueued] at hr
  obtain ⟨place, -, hrecord⟩ := List.mem_filterMap.mp hr
  exact (of_recordAt?_eq_some hrecord).2.2.2.1

/-- **Beginning a plan.** -/
theorem does_beginPlan (hqueue : t.agent.queue = []) (hretries : t.agent.retries = 0) :
    t.agent.Does t.beginNotes t.beginPlan.agent := by
  have hqueued := does_queuePlan hqueue hretries
  have hdue := phase_queuePlan hqueue
  have hdepart (u : Turn W M) : u.agent.Does []
      (u.mapAgent fun a => { a with planStart := a.current, cached := a.current }).agent :=
    (Move.depart u.agent).does
  rw [beginPlan_eq_startOrFail, beginNotes]
  cases hcons : t.queuePlan.agent.queue with
  | nil =>
      simp only [List.isEmpty_nil, if_true, List.append_nil]
      have hended : t.agent.Does _ (t.queuePlan.mapAgent fun a =>
          { a with actionIndex := a.plan.length }).agent := hqueued.aside
      exact hended.quiet (hdepart _)
  | cons front rest =>
      simp only [List.isEmpty_cons, Bool.false_eq_true, if_false]
      have hstarted := does_startOrFail hcons (hdue front (by rw [hcons]; exact List.mem_cons_self))
        .running
      exact (hqueued.trans hstarted).quiet (hdepart _)

/-- **Without a usable plan.** -/
theorem does_handleNoPlan (hqueue : t.agent.queue = []) (hretries : t.agent.retries = 0)
    (reason : String) : t.agent.Does (t.noPlanNotes reason) (t.handleNoPlan reason).agent := by
  have hgiveUp (u : Turn W M) : u.agent.Does [] (u.mapAgent ({ · with goal := .empty })).agent :=
    (Move.clearGoal u.agent).does
  have hrecord : t.agent.Does [] (t.record .planFailed t.agent.describeGoal
      [("reason", reason), ("state", t.agent.describeState)]).agent := .aside (.refl _)
  simp only [handleNoPlan, noPlanNotes]
  generalize hu : t.record .planFailed t.agent.describeGoal
    [("reason", reason), ("state", t.agent.describeState)] = u at hrecord ⊢
  have hkept : u.agent.kept = t.agent.kept := hu ▸ rfl
  cases u.agent.definition.bindings.noPlan with
  | none => exact hrecord.quiet (hgiveUp u)
  | some h =>
      simp only
      cases hcall : u.call h with
      | mk r v =>
          have hasked := (does_of_call hcall (fun _ => .noPlan) fun _ => rfl).after hrecord
          have hsame := (kept_of_call hcall).trans hkept
          have hnil : v.agent.queue = [] := (congrArg Agent.queue hsame).trans hqueue
          have hzero : v.agent.retries = 0 := (congrArg Agent.retries hsame).trans hretries
          have hagain : v.agent.Does [] (v.makePlan.mapAgent (·.markDirty)).agent :=
            (Move.plan hnil).does.aside
          cases r with
          | error e => exact hasked.quiet (hgiveUp v)
          | ok again =>
              cases again with
              | false => exact hasked
              | true =>
                  have hplanned := hasked.quiet hagain
                  simp only
                  cases (v.makePlan.mapAgent (·.markDirty)).agent.plan.outcome with
                  | found => exact hplanned.trans (does_beginPlan hnil hzero)
                  | atGoal => exact hplanned
                  | notFound => exact (does_record hplanned _ _ _).quiet (hgiveUp _)
                  | truncated => exact (does_record hplanned _ _ _).quiet (hgiveUp _)

/-- The plan is dropped and another one is made. -/
theorem does_freshPlan (h : t.agent.Unfailed) :
    t.agent.Does [] t.freshPlan.agent := by
  have hdrop := (Move.drop h).does
  have hplan := hdrop.quiet (Move.plan rfl).does
  exact (hplan.quiet (Move.reset rfl).does).aside

/-- **Planning.** -/
theorem does_planAnew (h : t.agent.Unfailed) :
    t.agent.Does t.planNotes t.planAnew.2.agent := by
  have hfresh := does_freshPlan h
  rw [planAnew_eq, planNotes]
  cases t.freshPlan.agent.plan.outcome with
  | atGoal => exact hfresh
  | found => exact (does_beginPlan rfl rfl).after hfresh
  | notFound => exact (does_handleNoPlan rfl rfl _).after hfresh
  | truncated => exact (does_handleNoPlan rfl rfl _).after hfresh

/-- **Choosing a goal.** -/
theorem does_selectGoal (h : t.agent.Unfailed) :
    t.agent.Does t.selectNotes t.selectGoal.2.agent := by
  rw [selectGoal_eq, selectNotes]
  cases t.bindingFor t.agent.definition.bindings.goalSelectors with
  | none => exact does_planAnew h
  | some selector =>
      have hselect : t.agent.Does [t.note selector fun _ => .selectGoal]
          (t.absorb (selector.run t.context).2).agent := t.does_call selector _ fun _ => rfl
      simp only
      cases hrun : selector.run t.context with
      | mk r c =>
          rw [hrun] at hselect
          cases r with
          | error e => exact hselect.aside
          | ok done =>
              have hchoose : t.agent.Does [t.note selector fun _ => .selectGoal]
                  (t.choose c).agent := by
                rw [choose]
                split
                · exact hselect
                · exact hselect.aside
              have hqueue : (t.choose c).agent.queue = t.agent.queue := by
                rw [choose]
                split
                · rfl
                · rfl
              have hunfailed : (t.choose c).agent.Unfailed := by
                rw [Unfailed, hqueue]
                exact h
              exact hchoose.trans (does_planAnew hunfailed)

/-! ## whole calls -/

theorem does_respond (h : t.agent.Unfailed) (result : StepResult)
    (changed : UInt64) :
    t.agent.Does (t.respondNotes result changed) (t.respond result changed).2.agent := by
  simp only [respond, respondNotes]
  split
  · next hwatched =>
      have hdrop : (t.abortFront .worldStateChanged).agent.Does []
          (t.dropChanged (((t.agent.queue.head?.map (·.watchMask)).getD 0) &&& changed)).agent :=
        (does_dropQueue (unfailed_abortFront h _)).aside
      have hselect : (t.dropChanged
          (((t.agent.queue.head?.map (·.watchMask)).getD 0) &&& changed)).agent.Does _ _ :=
        does_selectGoal (unfailed_of_queue_eq_nil rfl)
      exact (t.does_abortFront _).trans (hselect.after hdrop)
  · cases result with
    | needsPlan => exact does_selectGoal h
    | retriesExhausted => exact does_selectGoal h
    | running => exact .refl _
    | succeeded => exact .refl _
    | retrying => exact .refl _

/-- **A tick.** -/
theorem does_step (h : t.agent.AtRest) : t.agent.Does t.tickNotes t.step.2.agent := by
  have hfront := does_stepFront (fun r hr => (h.front r hr).2.1) fun r hr => (h.waiting r hr).1
  have hrefresh := t.stepFront.2.does_refresh (t.agent.current.changed t.agent.cached)
  have hrest := (atRest_stepFront h).of_kept_eq
    (t.stepFront.2.kept_refresh (t.agent.current.changed t.agent.cached))
  have hresponse := does_respond hrest.unfailed t.stepFront.1
    (t.stepFront.2.refresh (t.agent.current.changed t.agent.cached)).1
  rw [step_eq, tickNotes]
  exact ((hfront.trans hrefresh).trans hresponse).quiet (Move.remember _).does

/-- The call as it is about to begin: a call for a goal sets the goal first. -/
def opening (t : Turn W M) : Call → Turn W M
  | .replanTo goal merge => t.changeGoal goal merge
  | .launch | .step | .replan | .interrupt => t

/-- **Every call is made of moves**, which run the handlers of its journal. -/
theorem does_after (h : t.agent.AtRest) (call : Call) :
    (t.opening call).agent.Does (t.journal call) (t.after call).agent := by
  rw [journal_eq]
  cases call with
  | launch =>
      have hunfailed : t.seedBlackboard.agent.Unfailed := (atRest_seedBlackboard h).unfailed
      exact t.does_seedBlackboard.trans (does_selectGoal hunfailed)
  | step => exact does_step h
  | replan =>
      exact (t.does_abortFront .replan).trans (does_planAnew (unfailed_abortFront h.unfailed _))
  | replanTo goal merge =>
      have hunfailed : (t.changeGoal goal merge).agent.Unfailed := h.unfailed
      have hdrop := does_dropQueue (unfailed_abortFront hunfailed .replan)
      exact (does_abortFront _ .replan).trans
        ((does_planAnew (unfailed_of_queue_eq_nil rfl)).after hdrop)
  | interrupt =>
      have hnoted : t.agent.Does [] t.noteInterrupt.agent := .aside (.refl _)
      have hunfailed : t.noteInterrupt.agent.Unfailed := h.unfailed
      have hdrop := does_dropQueue (unfailed_abortFront hunfailed .interrupt)
      have hseed := does_seedBlackboard (t.noteInterrupt.abortFront .interrupt).dropQueue
      have hqueue : (t.noteInterrupt.abortFront .interrupt).dropQueue.seedBlackboard.agent.queue =
          [] := (congrArg Agent.queue (kept_seedBlackboard _)).trans rfl
      exact ((does_abortFront _ .interrupt).trans ((hseed.trans
        (does_selectGoal (unfailed_of_queue_eq_nil hqueue))).after hdrop)).after hnoted

end Turn

end PlanningAgents
