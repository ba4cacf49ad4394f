import PlanningAgents.Proofs.Agent.Beginning
import PlanningAgents.Proofs.Agent.Moves

/-!
# PlanningAgents.Proofs.Agent.Seeding

When the blackboard of an agent is cleared.  From one handler to the next it is handed on: each
handler sees what the one before it has left (`HandedOn`).  The only thing that breaks this chain is
a seeding, and there is one where an agent is launched or interrupted, or else before the first
action of a plan is started; never a second one in the same call (`Turn.SeedsOnce`).

What is tried again is started right behind the attempt that has failed, with nothing run in
between.  So the chain is more than that of the blackboard: behind every run it is known which start
is due (`Run.due`), and an action is started only where it is due.

Main statements:

* `Turn.hands_stepFront`, `Turn.hands_refresh` — the parts of a tick hand the blackboard on;
* `Turn.plans_planAnew`, `Turn.plans_selectGoal` — planning does so up to where a plan is begun;
* `Turn.plans_journal` — so does every call that does not seed the blackboard at once;
* `Agent.Reachable.seeds_once` — calls that begin plans, calls that do not, and many of these in a
  row.
-/

namespace PlanningAgents

variable {W M α : Type}

/-! ## handing on -/

/-- Which start is due. -/
inductive Due where
  | nothing
  /-- An action that has failed is tried again. -/
  | again (action : String)
  /-- The next action of the plan. -/
  | next

/-- The action may be started. -/
def Due.Allows : Due → String → Prop
  | .nothing, _ => False
  | .again failed, action => failed = action
  | .next, _ => True

/-- Which start is due behind a run. -/
def Run.due : Run M → Due
  | .start action (.error _) => .again action
  | .resume action _ (.error _) => .again action
  | .resume action _ (.ok (.returned .failure)) => .again action
  | .finish _ => .next
  | _ => .nothing

/-- What one handler leaves to the next. -/
structure Handover where
  blackboard : Blackboard
  due : Due := .nothing

/-- **The blackboard is handed on** from handler to handler.  None of them is there to seed it, and
actions are started where they are due. -/
inductive HandedOn : Handover → List (Note W M) → Handover → Prop
  | nil (d : Handover) : HandedOn d [] d
  | cons {d d' : Handover} {n : Note W M} {notes : List (Note W M)}
      (hboard : n.before.blackboard = d.blackboard) (hseed : n.run ≠ .seed)
      (hdue : ∀ action result, n.run = .start action result → d.due.Allows action)
      (rest : HandedOn ⟨n.after.blackboard, n.run.due⟩ notes d') : HandedOn d (n :: notes) d'

namespace HandedOn

variable {d d' d'' : Handover} {notes notes' : List (Note W M)} {m n : Note W M}

theorem append (h : HandedOn d notes d') (h' : HandedOn d' notes' d'') :
    HandedOn d (notes ++ notes') d'' := by
  induction h with
  | nil d => exact h'
  | cons hboard hseed hdue _ ih => exact .cons hboard hseed hdue (ih h')

/-- Where nothing need be due, anything may be. -/
theorem of_nothing {b : Blackboard} (h : HandedOn ⟨b, .nothing⟩ notes d') (due : Due) :
    ∃ due', HandedOn ⟨b, due⟩ notes ⟨d'.blackboard, due'⟩ := by
  cases h with
  | nil => exact ⟨due, .nil _⟩
  | cons hboard hseed hdue rest =>
      exact ⟨d'.due, .cons hboard hseed (fun action result heq => (hdue action result heq).elim)
        rest⟩

/-- **A start right behind another run** sees the blackboard that this has left, and is due. -/
theorem start_behind {action : String} {result : Except HandlerError Unit}
    (h : HandedOn d (notes ++ m :: n :: notes') d') (hstart : n.run = .start action result) :
    n.before.blackboard = m.after.blackboard ∧ m.run.due.Allows action := by
  induction notes generalizing d with
  | nil =>
      cases h with
      | cons _ _ _ rest =>
          cases rest with
          | cons hboard _ hdue _ => exact ⟨hboard, hdue action result hstart⟩
  | cons _ _ ih =>
      cases h with
      | cons _ _ _ rest => exact ih rest

/-- Where nothing is due at first, every start is right behind another run. -/
theorem exists_behind {b : Blackboard} {action : String} {result : Except HandlerError Unit}
    (h : HandedOn ⟨b, .nothing⟩ (notes ++ n :: notes') d') (hstart : n.run = .start action result) :
    ∃ earlier m, notes = earlier ++ [m] ∧ m.run.due.Allows action ∧
      n.before.blackboard = m.after.blackboard := by
  obtain rfl | ⟨earlier, m, rfl⟩ := List.eq_nil_or_concat notes
  · cases h with
    | cons _ _ hdue _ => exact (hdue action result hstart).elim
  · rw [List.concat_eq_append, List.append_assoc] at h
    obtain ⟨hboard, hdue⟩ := h.start_behind hstart
    exact ⟨earlier, m, List.concat_eq_append, hdue, hboard⟩

end HandedOn

/-- What the handlers of a call share: the blackboard, whether it has been seeded, and the plan. -/
structure Desk where
  blackboard : Blackboard
  seeded : Bool
  plan : Plan

/-- What the handlers of a call share. -/
def Turn.desk (t : Turn W M) : Desk where
  blackboard := t.agent.blackboard
  seeded := t.seeded
  plan := t.agent.plan

/-- A part of a call hands the blackboard on, with no plan made and nothing seeded. -/
structure Hands (d : Desk) (due : Due) (notes : List (Note W M)) (d' : Desk) : Prop where
  seeded : d'.seeded = d.seeded
  plan : d'.plan = d.plan
  handed : ∃ due', HandedOn ⟨d.blackboard, due⟩ notes ⟨d'.blackboard, due'⟩

namespace Hands

variable {d d' d'' : Desk} {due : Due} {notes notes' : List (Note W M)}

theorem refl (d : Desk) (due : Due) : Hands d due ([] : List (Note W M)) d :=
  ⟨rfl, rfl, due, .nil _⟩

theorem trans (h : Hands d due notes d') (h' : Hands d' .nothing notes' d'') :
    Hands d due (notes ++ notes') d'' := by
  -- Whatever is due behind the first part, the second one does not count on it.
  obtain ⟨due', hhanded⟩ := h.handed
  obtain ⟨_, hrest⟩ := h'.handed
  obtain ⟨due'', hrest⟩ := hrest.of_nothing due'
  exact ⟨h'.seeded.trans h.seeded, h'.plan.trans h.plan, due'', hhanded.append hrest⟩

/-- One more handler, which is not there to seed the blackboard. -/
theorem cons {t u : Turn W M} {h : Handler W α} {label : Except HandlerError α → Run M}
    {r : Except HandlerError α} (hcall : t.call h = (r, u)) (hseed : label r ≠ .seed)
    (hdue : ∀ action result, label r = .start action result → due.Allows action)
    (rest : Hands u.desk (label r).due notes d) : Hands t.desk due (t.note h label :: notes) d := by
  obtain ⟨rfl, rfl⟩ := Prod.mk.inj hcall
  obtain ⟨due', hrest⟩ := rest.handed
  exact ⟨rest.seeded, rest.plan, due', .cons rfl hseed hdue hrest⟩

end Hands

namespace Turn

variable {t u : Turn W M} {front : ActionRecord W M} {rest : List (ActionRecord W M)} {due : Due}
  {notes : List (Note W M)} {d : Desk}

/-! ## the front action -/

/-- **Starting the front** where it is due; if it fails it is due again. -/
theorem hands_startFront (hcons : t.agent.queue = front :: rest) (hdue : due.Allows front.name)
    {started : Bool} (hstart : t.startFront = (started, u))
    (hrest : Hands u.desk (if started then .nothing else .again front.name) notes d) :
    Hands t.desk due (t.startNotes ++ notes) d := by
  rw [startFront_eq hcons] at hstart
  rw [startNotes, hcons]
  have hallowed (r : Except HandlerError Unit) : ∀ action result,
      Run.start (M := M) front.name r = .start action result → due.Allows action := by
    intro action result heq
    rwa [← (Run.start.inj heq).1]
  cases hcall : (t.readyFront front).call front.handlers.start with
  | mk r v =>
      rw [hcall] at hstart
      cases r with
      | ok done =>
          obtain ⟨rfl, rfl⟩ := Prod.mk.inj hstart
          exact Hands.cons hcall (by simp) (hallowed _) hrest
      | error e =>
          obtain ⟨rfl, rfl⟩ := Prod.mk.inj hstart
          exact Hands.cons hcall (by simp) (hallowed _) hrest

/-- However often the front fails to start, it is due each time that it is tried again. -/
theorem hands_retryFront (name : String) (left : Nat) (hcons : t.agent.queue = front :: rest)
    {action : String} (hname : front.name = action) :
    Hands t.desk (.again action) (retryNotes left t) (retryFront name left t).2.desk := by
  induction left generalizing t front with
  | zero => exact .refl _ _
  | succ left ih =>
      have hcount : t.countRetry.agent.queue = { front with task := none } :: rest :=
        queue_mapFront hcons _
      subst hname
      rw [retryFront, retryNotes]
      simp only [← countRetry.eq_def]
      cases hstarted : t.countRetry.startFront with
      | mk started u =>
          cases started with
          | true => exact hands_startFront hcount rfl hstarted (.refl _ _)
          | false =>
              have hqueue := (of_startFront_eq_false hcount hstarted).1
              exact hands_startFront hcount rfl hstarted (ih hqueue rfl)

/-- **After a failure** the front is tried again. -/
theorem hands_failFront (hcons : t.agent.queue = front :: rest) {action : String}
    (hname : front.name = action) :
    Hands t.desk (.again action) t.failNotes t.failFront.2.desk := by
  rw [failFront, failNotes, hcons]
  exact hands_retryFront _ _ hcons hname

theorem hands_startOrFail (hcons : t.agent.queue = front :: rest) (hdue : due.Allows front.name)
    (result : StepResult) :
    Hands t.desk due t.startOrFailNotes (t.startOrFail result).2.desk := by
  rw [startOrFail, startOrFailNotes]
  cases hstarted : t.startFront with
  | mk started u =>
      cases started with
      | true => exact hands_startFront hcons hdue hstarted (.refl _ _)
      | false =>
          have hqueue := (of_startFront_eq_false hcons hstarted).1
          exact hands_startFront hcons hdue hstarted (hands_failFront hqueue rfl)

/-- **After a success** the action is finished, and then the one behind it is due. -/
theorem hands_completeFront (hcons : t.agent.queue = front :: rest) :
    Hands t.desk .nothing t.completeNotes t.completeFront.2.desk := by
  rw [completeFront_eq_startOrFail hcons, completeNotes, hcons]
  have hpop {notes : List (Note W M)} {d : Desk}
      (hrest : Hands (t.popFront front rest).desk .next notes d) :
      Hands t.desk .nothing ((t.mapFront ({ · with phase := .succeeded, task := none })).note
        front.handlers.finish (fun _ => .finish front.name) :: notes) d :=
    Hands.cons (t := t.mapFront ({ · with phase := .succeeded, task := none })) rfl (by simp)
      (by simp) hrest
  cases rest with
  | nil => exact hpop (.refl _ _)
  | cons next rest =>
      have hdue : Due.next.Allows next.name := trivial
      exact hpop (hands_startOrFail (queue_popFront hcons) hdue _)

/-- **A step of the front** that is under way. -/
theorem hands_stepFront (hrunning : ∀ r ∈ t.agent.queue.head?, r.isRunning = true) :
    Hands t.desk .nothing t.stepNotes t.stepFront.2.desk := by
  cases hcons : t.agent.queue with
  | nil =>
      rw [stepFront, stepNotes, hcons]
      exact .refl _ _
  | cons front rest =>
      have hfront : front.isRunning = true := hrunning front (by rw [hcons]; rfl)
      have hopen := queue_mapFront hcons ({ · with task := none })
      rw [stepFront_eq hcons, stepNotes, hcons]
      simp only [hfront, Bool.not_true, Bool.false_eq_true, if_false]
      cases hcall : (t.mapFront ({ · with task := none })).call
          (front.handlers.resume (front.task.getD front.handlers.fresh)) with
      | mk r u =>
          have hqueue := (congrArg Agent.queue (kept_of_call hcall)).trans hopen
          have hresume {notes : List (Note W M)} {d : Desk}
              (hrest : Hands u.desk (Run.resume front.name front.task r).due notes d) :
              Hands t.desk .nothing (_ :: notes) d :=
            Hands.cons (t := t.mapFront ({ · with task := none })) hcall (by simp) (by simp) hrest
          cases r with
          | error e => exact hresume (hands_failFront (t := u.record .actionResult front.name
              [("status", "ERROR"), ("error", e.message)]) hqueue rfl)
          | ok progress =>
              cases progress with
              | yielded memory => exact hresume (.refl _ _)
              | returned status =>
                  cases status with
                  | running => exact hresume (.refl _ _)
                  | success => exact hresume (hands_completeFront hqueue)
                  | failure => exact hresume (hands_failFront (t := u.record .actionResult
                      front.name [("status", ActionStatus.failure.name)]) hqueue rfl)

/-- **Aborting the front.** -/
theorem hands_abortFront (t : Turn W M) (reason : AbortReason) :
    Hands t.desk .nothing (t.abortNotes reason) (t.abortFront reason).desk := by
  cases hcons : t.agent.queue with
  | nil =>
      rw [abortFront, abortNotes, hcons]
      exact .refl _ _
  | cons front rest =>
      rw [abortFront, abortNotes, hcons]
      cases hrunning : front.isRunning with
      | false =>
          simp only [hrunning, Bool.not_false, if_true]
          exact .refl _ _
      | true =>
          simp only [hrunning, Bool.not_true, Bool.false_eq_true, if_false]
          exact Hands.cons (t := t.mapFront ({ · with phase := .aborted, task := none })) rfl
            (by simp) (by simp) (.refl _ _)

/-! ## updaters -/

theorem hands_runUpdaters (updaters : List (String × Handler W Unit)) (t : Turn W M) :
    Hands t.desk .nothing (t.updateNotes updaters) (t.runUpdaters updaters).desk := by
  induction updaters generalizing t with
  | nil => exact .refl _ _
  | cons updater rest ih =>
      obtain ⟨name, h⟩ := updater
      rw [runUpdaters, updateNotes]
      cases hcall : t.call h with
      | mk r u =>
          cases r with
          | ok done => exact .cons hcall (by simp) (by simp) (ih u)
          | error e => exact .cons hcall (by simp) (by simp) (ih (u.record _ _ _))

theorem hands_refresh (t : Turn W M) (external : UInt64) :
    Hands t.desk .nothing (t.updateNotes t.agent.definition.bindings.updaters)
      (t.refresh external).2.desk := by
  simp only [refresh]
  split
  · exact hands_runUpdaters _ t
  · exact hands_runUpdaters _ t

/-! ## beginning a plan -/

/-- The notes of starting the first action of the agent's plan. -/
def firstNotes (u : Turn W M) : List (Note W M) :=
  if u.queuePlan.agent.queue.isEmpty then [] else u.queuePlan.startOrFailNotes

/-- Remembering where a plan starts changes nothing that handlers share. -/
theorem desk_markStart (t : Turn W M) :
    (t.mapAgent fun a => { a with planStart := a.current, cached := a.current }).desk = t.desk :=
  rfl

/-- **A plan is begun** with its first action, which is due. -/
theorem hands_firstNotes (u : Turn W M) :
    Hands u.queuePlan.desk .next u.firstNotes u.beginPlan.desk := by
  rw [beginPlan_eq_startOrFail, desk_markStart, firstNotes]
  cases hcons : u.queuePlan.agent.queue with
  | nil => exact .refl _ _
  | cons front rest =>
      have hdue : Due.next.Allows front.name := trivial
      exact hands_startOrFail hcons hdue .running

/-- Queueing a plan leaves the blackboard as it is seeded. -/
theorem blackboard_queuePlan (u : Turn W M) : u.queuePlan.agent.blackboard =
    (if u.seeded then u else u.seedBlackboard).agent.blackboard :=
  (congrArg Agent.blackboard (agent_enqueueFrom _ 0 _) :)

/-- Beginning a plan leaves it as it has been made. -/
theorem plan_beginPlan (u : Turn W M) : u.beginPlan.agent.plan = u.agent.plan := by
  have hqueued : u.queuePlan.agent.plan =
      (if u.seeded then u else u.seedBlackboard).agent.plan :=
    (congrArg Agent.plan (agent_enqueueFrom _ 0 _) :)
  have hfirst : u.beginPlan.agent.plan = u.queuePlan.agent.plan := (hands_firstNotes u).plan
  rw [hfirst, hqueued]
  split
  · rfl
  · exact (congrArg Agent.plan u.kept_seedBlackboard :)

end Turn

/-! ## planning -/

/-- **A part of a call that may plan** hands the blackboard on to its end, or up to where it begins
a plan that has been found, while nothing is queued. -/
inductive Plans (t : Turn W M) : List (Note W M) → Option PlanOutcome → Agent W M → Prop
  | idle {notes : List (Note W M)} {outcome : Option PlanOutcome} {a : Agent W M} {due : Due}
      (houtcome : outcome ≠ some .found)
      (hhanded : HandedOn ⟨t.agent.blackboard, .nothing⟩ notes ⟨a.blackboard, due⟩) :
      Plans t notes outcome a
  | begins {u : Turn W M} {notes : List (Note W M)} {due : Due}
      (hhanded : HandedOn ⟨t.agent.blackboard, .nothing⟩ notes ⟨u.agent.blackboard, due⟩)
      (hseeded : u.seeded = t.seeded) (hcontinues : u.agent.Continues t.agent)
      (hqueue : u.agent.queue = []) (hfound : u.agent.plan.outcome = .found) :
      Plans t (notes ++ u.beginNotes) (some .found) u.beginPlan.agent

namespace Plans

variable {s t u : Turn W M} {earlier notes : List (Note W M)} {outcome : Option PlanOutcome}
  {a : Agent W M} {due : Due}

/-- Handing on before planning. -/
theorem prepend (hhanded : HandedOn ⟨s.agent.blackboard, .nothing⟩ earlier
      ⟨t.agent.blackboard, due⟩) (hseeded : t.seeded = s.seeded)
    (hcontinues : t.agent.Continues s.agent) (h : Plans t notes outcome a) :
    Plans s (earlier ++ notes) outcome a := by
  cases h with
  | idle houtcome hrest =>
      obtain ⟨_, hrest⟩ := hrest.of_nothing due
      exact .idle houtcome (hhanded.append hrest)
  | begins hrest hseeded' hcontinues' hqueue hfound =>
      obtain ⟨_, hrest⟩ := hrest.of_nothing due
      rw [← List.append_assoc]
      exact .begins (hhanded.append hrest) (hseeded'.trans hseeded)
        (hcontinues'.trans hcontinues) hqueue hfound

/-- A part of a call before planning. -/
theorem after (hhands : Hands s.desk .nothing earlier t.desk)
    (hcontinues : t.agent.Continues s.agent) (h : Plans t notes outcome a) :
    Plans s (earlier ++ notes) outcome a := by
  obtain ⟨_, hhanded⟩ := hhands.handed
  exact h.prepend hhanded hhands.seeded hcontinues

/-- A part of a call that leaves a plan as it is, where none has been found. -/
theorem of_hands (h : Hands t.desk .nothing notes u.desk)
    (hnone : t.agent.plan.outcome ≠ .found) :
    Plans t notes (some u.agent.plan.outcome) u.agent := by
  obtain ⟨_, hhanded⟩ := h.handed
  have hplan : u.agent.plan = t.agent.plan := h.plan
  refine .idle ?_ hhanded
  rwa [hplan, Ne, Option.some_inj]

/-- Where no plan is found the blackboard is handed on to the end. -/
theorem handedOn (h : Plans t notes outcome a) (houtcome : outcome ≠ some .found) :
    ∃ due, HandedOn ⟨t.agent.blackboard, .nothing⟩ notes ⟨a.blackboard, due⟩ := by
  cases h with
  | idle _ hhanded => exact ⟨_, hhanded⟩
  | begins => exact absurd rfl houtcome

/-- Where a plan is found it is begun. -/
theorem exists_begins (h : Plans t notes outcome a) (houtcome : outcome = some .found) :
    ∃ (u : Turn W M) (earlier : List (Note W M)) (due : Due),
      HandedOn ⟨t.agent.blackboard, .nothing⟩ earlier ⟨u.agent.blackboard, due⟩ ∧
      u.seeded = t.seeded ∧ u.agent.Continues t.agent ∧ u.agent.queue = [] ∧
      u.agent.plan.outcome = .found ∧ notes = earlier ++ u.beginNotes ∧
      a = u.beginPlan.agent := by
  cases h with
  | idle hne => exact absurd houtcome hne
  | begins hhanded hseeded hcontinues hqueue hfound =>
      exact ⟨_, _, _, hhanded, hseeded, hcontinues, hqueue, hfound, rfl, rfl⟩

/-- What is kept for comparison is no part of it. -/
theorem remember (h : Plans t notes outcome a) :
    Plans t notes outcome { a with cached := a.current } := by
  cases h with
  | idle houtcome hhanded => exact .idle houtcome hhanded
  | @begins u _ _ hhanded hseeded hcontinues hqueue hfound =>
      have hsame : { u.beginPlan.agent with cached := u.beginPlan.agent.current } =
          u.beginPlan.agent := u.agent_beginPlan_cached
      rw [hsame]
      exact .begins hhanded hseeded hcontinues hqueue hfound

end Plans

namespace Turn

variable {t u : Turn W M}

theorem plans_beginPlan (hqueue : u.agent.queue = []) (hfound : u.agent.plan.outcome = .found) :
    Plans u u.beginNotes (some u.beginPlan.agent.plan.outcome) u.beginPlan.agent := by
  have hbegins : Plans u ([] ++ u.beginNotes) (some .found) u.beginPlan.agent :=
    .begins (.nil _) rfl (.refl _) hqueue hfound
  rw [plan_beginPlan, hfound]
  exact hbegins

/-- **Another attempt** begins the plan that it finds, and gives up the goal where there is none. -/
theorem plans_attempt (hqueue : u.agent.queue = []) :
    let v := match u.agent.plan.outcome with
      | .found => u.beginPlan
      | .atGoal => u
      | .notFound | .truncated =>
        (u.record .planFailed u.agent.describeGoal [("reason", "fallback_failed")]).mapAgent
          ({ · with goal := .empty })
    Plans u
      (match u.agent.plan.outcome with
        | .found => u.beginNotes
        | .atGoal | .notFound | .truncated => [])
      (some v.agent.plan.outcome) v.agent := by
  intro v
  have hidle {v : Turn W M} (hsame : v.desk = u.desk) (hnone : u.agent.plan.outcome ≠ .found) :
      Plans u [] (some v.agent.plan.outcome) v.agent :=
    .of_hands (hsame ▸ .refl _ _) hnone
  cases houtcome : u.agent.plan.outcome with
  | found => simpa only [v, houtcome] using plans_beginPlan hqueue houtcome
  | atGoal => simpa only [v, houtcome] using hidle (v := u) rfl (by simp [houtcome])
  | notFound =>
      simp only [v, houtcome]
      exact hidle rfl (by simp [houtcome])
  | truncated =>
      simp only [v, houtcome]
      exact hidle rfl (by simp [houtcome])

/-- **Without a usable plan** another attempt may find one. -/
theorem plans_handleNoPlan (t : Turn W M) (hqueue : t.agent.queue = [])
    (hnone : t.agent.plan.outcome ≠ .found) (reason : String) :
    Plans t (t.noPlanNotes reason) (some (t.handleNoPlan reason).agent.plan.outcome)
      (t.handleNoPlan reason).agent := by
  simp only [handleNoPlan, noPlanNotes]
  generalize hnoted : t.record .planFailed t.agent.describeGoal
    [("reason", reason), ("state", t.agent.describeState)] = u
  have hempty : u.agent.queue = [] := hnoted ▸ hqueue
  have hnone : u.agent.plan.outcome ≠ .found := hnoted ▸ hnone
  have hsame : Hands t.desk .nothing ([] : List (Note W M)) u.desk := hnoted ▸ .refl _ _
  have hcontinues : u.agent.Continues t.agent := hnoted ▸ ⟨rfl, .refl _⟩
  refine Plans.after hsame hcontinues ?_
  cases u.agent.definition.bindings.noPlan with
  | none => exact .of_hands (.refl _ _) hnone
  | some h =>
      simp only
      cases hcall : u.call h with
      | mk r v =>
          have hrest : v.agent.queue = [] :=
            (congrArg Agent.queue (kept_of_call hcall)).trans hempty
          have hnote : Hands u.desk .nothing [u.note h (fun _ => .noPlan)] v.desk :=
            .cons hcall (by simp) (by simp) (.refl _ _)
          cases r with
          | error e => exact .of_hands hnote hnone
          | ok again =>
              cases again with
              | false => exact .of_hands hnote hnone
              | true =>
                  -- The other attempt makes a new plan, so this is no longer handing on.
                  obtain ⟨_, hhanded⟩ := hnote.handed
                  simp only
                  generalize hagain : v.makePlan.mapAgent (·.markDirty) = w
                  have hsecond : w.agent.queue = [] := hagain ▸ hrest
                  have hboard : w.desk.blackboard = v.desk.blackboard := hagain ▸ rfl
                  have hseeded : w.seeded = v.seeded := hagain ▸ rfl
                  have hfrom : w.agent.Continues v.agent :=
                    hagain ▸ (Agent.Continues.refl v.agent).planned _ _ _ _ _
                  rw [← hboard] at hhanded
                  exact (plans_attempt hsecond).prepend hhanded (hseeded.trans hnote.seeded)
                    (hfrom.trans (continues_of_call hcall))

/-- **Planning** begins the plan that it finds. -/
theorem plans_planAnew (t : Turn W M) :
    Plans t t.planNotes (some t.planAnew.1) t.planAnew.2.agent := by
  have houtcome : t.planAnew.1 = t.planAnew.2.agent.plan.outcome := rfl
  have hqueue := t.queue_freshPlan
  have hcontinues := t.continues_freshPlan
  have hboard : t.freshPlan.agent.blackboard = t.agent.blackboard := rfl
  have hseeded : t.freshPlan.seeded = t.seeded := rfl
  rw [houtcome, planAnew_eq, planNotes]
  generalize t.freshPlan = u at hqueue hcontinues hboard hseeded ⊢
  have hhanded : HandedOn ⟨t.agent.blackboard, .nothing⟩ ([] : List (Note W M))
    ⟨u.agent.blackboard, .nothing⟩ := hboard ▸ .nil _
  refine Plans.prepend hhanded hseeded hcontinues ?_
  cases hplan : u.agent.plan.outcome with
  | atGoal => exact .of_hands (.refl _ _) (by simp [hplan])
  | found => exact plans_beginPlan hqueue hplan
  | notFound => exact plans_handleNoPlan u hqueue (by simp [hplan]) _
  | truncated => exact plans_handleNoPlan u hqueue (by simp [hplan]) _

/-- **Choosing a goal**, and planning for it. -/
theorem plans_selectGoal (t : Turn W M) :
    Plans t t.selectNotes t.selectGoal.1 t.selectGoal.2.agent := by
  rw [selectGoal_eq, selectGoal, selectNotes]
  cases t.bindingFor t.agent.definition.bindings.goalSelectors with
  | none => exact plans_planAnew t
  | some h =>
      have hcontinues := t.continues_call h
      have hnote : Hands t.desk .nothing [t.note h (fun _ => .selectGoal)] (t.call h).2.desk :=
        .cons rfl (by simp) (by simp) (.refl _ _)
      rw [call] at hcontinues hnote
      simp only
      cases hrun : h.run t.context with
      | mk r c =>
          rw [hrun] at hcontinues hnote
          cases r with
          | error e =>
              obtain ⟨_, hhanded⟩ := hnote.handed
              exact .idle (by simp) hhanded
          | ok done =>
              have hchosen : (t.choose c).desk = (t.absorb c).desk ∧
                  (t.choose c).agent.Continues (t.absorb c).agent := by
                rw [choose]
                split
                · exact ⟨rfl, .refl _⟩
                · exact ⟨rfl, rfl, .refl _⟩
              exact (plans_planAnew (t.choose c)).after (hchosen.1 ▸ hnote)
                (hchosen.2.trans hcontinues)

/-! ## whole calls -/

/-- What the planning in the response to a change comes to, if there is any. -/
def respondOutcome (t : Turn W M) (result : StepResult) (changed : UInt64) : Option PlanOutcome :=
  let watched := ((t.agent.queue.head?.map (·.watchMask)).getD 0) &&& changed
  if watched ≠ 0 then (t.dropChanged watched).selectGoal.1
  else match result with
    | .needsPlan | .retriesExhausted => t.selectGoal.1
    | .running | .succeeded | .retrying => none

/-- What the planning in a call comes to, if there is any. -/
def planned (t : Turn W M) : Call → Option PlanOutcome
  | .launch => t.launch.1
  | .step =>
    let (result, u) := t.stepFront
    let (changed, v) := u.refresh (t.agent.current.changed t.agent.cached)
    v.respondOutcome result changed
  | .replan => some t.replan.1
  | .replanTo goal merge => some (t.replanTo goal merge).1
  | .interrupt => t.interrupt.1

/-- **The response** hands the blackboard on, or plans. -/
theorem plans_respond (t : Turn W M) (result : StepResult) (changed : UInt64) :
    Plans t (t.respondNotes result changed) (t.respondOutcome result changed)
      (t.respond result changed).2.agent := by
  simp only [respond, respondNotes, respondOutcome]
  split
  · generalize ((t.agent.queue.head?.map (·.watchMask)).getD 0) &&& changed = watched
    have haborted := t.continues_abortFront .worldStateChanged
    have hcontinues : (t.dropChanged watched).agent.Continues t.agent := { haborted with }
    have hhands : Hands t.desk .nothing (t.abortNotes .worldStateChanged)
        (t.dropChanged watched).desk := t.hands_abortFront .worldStateChanged
    exact (plans_selectGoal (t.dropChanged watched)).after hhands hcontinues
  · cases result with
    | needsPlan => exact plans_selectGoal t
    | retriesExhausted => exact plans_selectGoal t
    | running => exact .idle (by simp) (.nil _)
    | succeeded => exact .idle (by simp) (.nil _)
    | retrying => exact .idle (by simp) (.nil _)

/-- **A tick** hands the blackboard on, or plans. -/
theorem plans_step (hrunning : ∀ r ∈ t.agent.queue.head?, r.isRunning = true) :
    Plans t (t.journal .step) (t.planned .step) t.step.2.agent := by
  have hrespond := plans_respond
    (t.stepFront.2.refresh (t.agent.current.changed t.agent.cached)).2 t.stepFront.1
    (t.stepFront.2.refresh (t.agent.current.changed t.agent.cached)).1
  rw [journal_step]
  exact (hrespond.after ((hands_stepFront hrunning).trans (hands_refresh _ _))
    ((continues_refresh _ _).trans t.continues_stepFront)).remember

/-- **Every call** that does not seed the blackboard at once hands it on, or plans. -/
theorem plans_journal (hrunning : ∀ r ∈ t.agent.queue.head?, r.isRunning = true) {call : Call}
    (hlaunch : call ≠ .launch) (hinterrupt : call ≠ .interrupt) :
    Plans t (t.journal call) (t.planned call) (t.after call).agent := by
  cases call with
  | launch => exact absurd rfl hlaunch
  | interrupt => exact absurd rfl hinterrupt
  | step => exact plans_step hrunning
  | replan =>
      rw [journal_eq]
      exact (plans_planAnew _).after (t.hands_abortFront .replan) (t.continues_abortFront .replan)
  | replanTo goal merge =>
      have haborted := (t.changeGoal goal merge).continues_abortFront .replan
      have hcontinues : ((t.changeGoal goal merge).abortFront .replan).dropQueue.agent.Continues
          t.agent := { haborted with }
      have hhands : Hands t.desk .nothing ((t.changeGoal goal merge).abortNotes .replan)
          ((t.changeGoal goal merge).abortFront .replan).dropQueue.desk :=
        (t.changeGoal goal merge).hands_abortFront .replan
      rw [journal_eq]
      exact (plans_planAnew _).after hhands hcontinues

/-! ## seeding -/

/-- **A seeding** clears the blackboard, and runs the handler that the type of the agent has for
this, if it has one. -/
def Seeding (t : Turn W M) (notes : List (Note W M)) (b : Blackboard) : Prop :=
  match t.bindingFor t.agent.definition.bindings.blackboardInit with
  | none => notes = [] ∧ b = .empty
  | some h => ∃ u : Turn W M, u.agent.blackboard = .empty ∧
      notes = [u.note h (fun _ => .seed)] ∧ b = (u.call h).2.agent.blackboard

/-- What is bound to the type of an agent stays so. -/
theorem bindingFor_of_continues (h : u.agent.Continues t.agent) (bindings : SortedMap String α) :
    u.bindingFor bindings = t.bindingFor bindings := by
  have htype : u.agent.entityType = t.agent.entityType :=
    (congrArg Agent.entityType h.settings :)
  rw [bindingFor, bindingFor, htype]

theorem seeding_seedBlackboard (h : u.agent.Continues t.agent) :
    t.Seeding u.seedNotes u.seedBlackboard.agent.blackboard := by
  rw [Seeding, seedNotes, seedBlackboard_eq, ← bindingFor_of_continues h, h.definition]
  cases u.bindingFor t.agent.definition.bindings.blackboardInit with
  | none => exact ⟨rfl, rfl⟩
  | some h => exact ⟨u.clearBlackboard, rfl, rfl, rfl⟩

/-- **After a seeding** the blackboard is handed on to the end of the call.  If a plan is begun, it
is so after the seeding, and its first action is due then. -/
def GoesOn (t : Turn W M) (call : Call) (b : Blackboard) (notes : List (Note W M)) : Prop :=
  if t.planned call = some .found then
    ∃ (u : Turn W M) (choosing : List (Note W M)) (due due' : Due),
      u.agent.queue = [] ∧ u.agent.plan.outcome = .found ∧
      (t.after call).agent = u.beginPlan.agent ∧ notes = choosing ++ u.firstNotes ∧
      HandedOn ⟨b, .nothing⟩ choosing ⟨u.queuePlan.agent.blackboard, due⟩ ∧
      HandedOn ⟨u.queuePlan.agent.blackboard, .next⟩ u.firstNotes
        ⟨(t.after call).agent.blackboard, due'⟩
  else ∃ due, HandedOn ⟨b, .nothing⟩ notes ⟨(t.after call).agent.blackboard, due⟩

/-- **A call seeds the blackboard once**: before the seeding and after it the blackboard is handed
on, and a plan is only begun after it. -/
def SeedsOnce (t : Turn W M) (call : Call) : Prop :=
  ∃ (earlier seeding later : List (Note W M)) (b b' : Blackboard) (due : Due),
    t.journal call = earlier ++ (seeding ++ later) ∧
    HandedOn ⟨t.agent.blackboard, .nothing⟩ earlier ⟨b, due⟩ ∧
    t.Seeding seeding b' ∧ t.GoesOn call b' later

/-- Where the blackboard has been seeded, planning goes on from there. -/
theorem goesOn_of_plans {call : Call} {notes : List (Note W M)}
    (h : Plans u notes (t.planned call) (t.after call).agent) (hseeded : u.seeded = true) :
    t.GoesOn call u.agent.blackboard notes := by
  rw [GoesOn]
  split
  · next hfound =>
      obtain ⟨v, choosing, due, hhanded, hsame, -, hqueue, hplan, rfl, hagent⟩ :=
        h.exists_begins hfound
      obtain ⟨due', hfirst⟩ := v.hands_firstNotes.handed
      -- Nothing is seeded a second time: the plan is queued on the blackboard as it is.
      have hboard := v.blackboard_queuePlan
      have hnotes : v.beginNotes = v.firstNotes := by
        rw [beginNotes, hsame, hseeded, if_pos rfl, List.nil_append]
        rfl
      rw [hsame, hseeded, if_pos rfl] at hboard
      rw [← hboard] at hhanded
      rw [hnotes, hagent]
      exact ⟨v, choosing, due, due', hqueue, hplan, rfl, rfl, hhanded, hfirst⟩
  · next hfound => exact h.handedOn hfound

/-- Launches and interrupts seed the blackboard before a goal is chosen. -/
theorem seedsOnce_of_select {call : Call} {earlier : List (Note W M)}
    (hhands : Hands t.desk .nothing earlier u.desk) (hcontinues : u.agent.Continues t.agent)
    (hjournal : t.journal call = earlier ++ (u.seedNotes ++ u.seedBlackboard.selectNotes))
    (hplanned : t.planned call = u.seedBlackboard.selectGoal.1)
    (hafter : (t.after call).agent = u.seedBlackboard.selectGoal.2.agent) : t.SeedsOnce call := by
  obtain ⟨due, hhanded⟩ := hhands.handed
  have hplans := plans_selectGoal u.seedBlackboard
  have hseeded : u.seedBlackboard.seeded = true := by
    rw [seedBlackboard_eq]
    split
    · rfl
    · rfl
  rw [← hplanned, ← hafter] at hplans
  exact ⟨earlier, u.seedNotes, u.seedBlackboard.selectNotes, u.agent.blackboard,
    u.seedBlackboard.agent.blackboard, due, hjournal, hhanded, seeding_seedBlackboard hcontinues,
    goesOn_of_plans hplans hseeded⟩

/-- A plan that is begun seeds the blackboard where this has not been done. -/
theorem seedsOnce_of_plans {call : Call}
    (h : Plans t (t.journal call) (t.planned call) (t.after call).agent) (hbegin : t.seeded = false)
    (hfound : t.planned call = some .found) : t.SeedsOnce call := by
  obtain ⟨u, earlier, due, hhanded, hsame, hcontinues, hqueue, hplan, hjournal, hagent⟩ :=
    h.exists_begins hfound
  obtain ⟨due', hfirst⟩ := u.hands_firstNotes.handed
  -- Nothing has been seeded so far: this comes first when the plan is begun, whichever way it has
  -- been found.
  have hboard := u.blackboard_queuePlan
  rw [hsame, hbegin, if_neg Bool.false_ne_true] at hboard
  have hnotes : u.beginNotes = u.seedNotes ++ u.firstNotes := by
    rw [beginNotes, hsame, hbegin, if_neg Bool.false_ne_true]
    rfl
  have hseeding := seeding_seedBlackboard hcontinues
  have hgoes : t.GoesOn call u.queuePlan.agent.blackboard u.firstNotes := by
    rw [GoesOn, if_pos hfound, hagent]
    exact ⟨u, [], .nothing, due', hqueue, hplan, rfl, rfl, .nil _, hfirst⟩
  rw [← hboard] at hseeding
  rw [hnotes] at hjournal
  exact ⟨earlier, u.seedNotes, u.firstNotes, u.agent.blackboard, u.queuePlan.agent.blackboard, due,
    hjournal, hhanded, hseeding, hgoes⟩

/-- The call seeds the blackboard in any case, or it begins a plan. -/
def Reseeds (t : Turn W M) (call : Call) : Prop :=
  call = .launch ∨ call = .interrupt ∨ t.planned call = some .found

instance (t : Turn W M) (call : Call) : Decidable (t.Reseeds call) :=
  inferInstanceAs (Decidable (_ ∨ _ ∨ _))

/-- **Whether a call seeds the blackboard** depends on the call, and on whether a plan is begun. -/
theorem seedsOnce_or_handedOn (hrunning : ∀ r ∈ t.agent.queue.head?, r.isRunning = true)
    (hbegin : t.seeded = false) (call : Call) :
    (t.Reseeds call → t.SeedsOnce call) ∧
      (¬t.Reseeds call → ∃ due, HandedOn ⟨t.agent.blackboard, .nothing⟩ (t.journal call)
        ⟨(t.after call).agent.blackboard, due⟩) := by
  refine ⟨fun hreseeds => ?_, fun hkept => ?_⟩
  · by_cases hlaunch : call = .launch
    · subst hlaunch
      exact seedsOnce_of_select (.refl _ _) (.refl _) (t.journal_eq .launch) rfl rfl
    by_cases hinterrupt : call = .interrupt
    · subst hinterrupt
      have haborted := t.noteInterrupt.continues_abortFront .interrupt
      have hcontinues : (t.noteInterrupt.abortFront .interrupt).dropQueue.agent.Continues t.agent :=
        { haborted with }
      have hhands : Hands t.desk .nothing (t.noteInterrupt.abortNotes .interrupt)
          (t.noteInterrupt.abortFront .interrupt).dropQueue.desk :=
        t.noteInterrupt.hands_abortFront .interrupt
      exact seedsOnce_of_select hhands hcontinues (t.journal_eq .interrupt) rfl rfl
    have hfound := (hreseeds.resolve_left hlaunch).resolve_left hinterrupt
    exact seedsOnce_of_plans (plans_journal hrunning hlaunch hinterrupt) hbegin hfound
  · simp only [Reseeds, not_or] at hkept
    obtain ⟨hlaunch, hinterrupt, hfound⟩ := hkept
    exact (plans_journal hrunning hlaunch hinterrupt).handedOn hfound

end Turn

namespace Agent

/-! ## calls in a row -/

/-- **A stretch of calls** in a row, none of which seeds the blackboard.  What is written in between
leaves the blackboard alone. -/
inductive Stretch (a : Agent W M) : List (Note W M) → Agent W M → Prop
  | nil : Stretch a [] a
  | call {notes : List (Note W M)} {t : Turn W M} (h : Stretch a notes t.agent)
      (hbegin : t.seeded = false) {call : Call} (hcall : ¬t.Reseeds call) :
      Stretch a (notes ++ t.journal call) (t.after call).agent
  | write {notes : List (Note W M)} {b : Agent W M} (h : Stretch a notes b) (w : Write)
      (hboard : (b.write w).blackboard = b.blackboard) : Stretch a notes (b.write w)

variable {a b : Agent W M} {notes : List (Note W M)}

theorem Stretch.reachable (h : a.Stretch notes b) (ha : a.Reachable) : b.Reachable := by
  induction h with
  | nil => exact ha
  | call _ hbegin _ ih => exact ih.after hbegin _
  | write _ w _ ih => exact ih.write w

/-- At the beginning of a call the front is under way. -/
theorem Reachable.running (h : a.Reachable) : ∀ r ∈ a.queue.head?, r.isRunning = true :=
  fun r hr => (h.atRest.front r hr).2.1

/-- From call to call the blackboard is handed on too. -/
theorem Stretch.handedOn (h : a.Stretch notes b) (ha : a.Reachable) :
    ∃ due, HandedOn ⟨a.blackboard, .nothing⟩ notes ⟨b.blackboard, due⟩ := by
  induction h with
  | nil => exact ⟨.nothing, .nil _⟩
  | @call notes t h hbegin call hcall ih =>
      obtain ⟨due, hhanded⟩ := ih
      have hcalls := Turn.seedsOnce_or_handedOn (h.reachable ha).running hbegin call
      obtain ⟨_, hrest⟩ := hcalls.2 hcall
      obtain ⟨due', hrest⟩ := hrest.of_nothing due
      exact ⟨due', hhanded.append hrest⟩
  | write _ w hboard ih =>
      rw [hboard]
      exact ih

/-- **The blackboard is seeded once per plan**, and kept as long as the plan lasts.  A call that
launches or interrupts the agent, or begins a plan, seeds the blackboard once, and before the first
action of the plan is started; any other call hands it on.  In a stretch of such calls every start
is right behind the failure of the same action, or else behind the end of the one before it, and
sees the blackboard that was left there. -/
theorem Reachable.seeds_once (h : a.Reachable) :
    (∀ (t : Turn W M) (call : Call), t.agent = a → t.seeded = false →
      (t.Reseeds call → t.SeedsOnce call) ∧
      (¬t.Reseeds call → ∃ due, HandedOn ⟨a.blackboard, .nothing⟩ (t.journal call)
        ⟨(t.after call).agent.blackboard, due⟩)) ∧
    ∀ (notes : List (Note W M)) (b : Agent W M), a.Stretch notes b →
      (∃ due, HandedOn ⟨a.blackboard, .nothing⟩ notes ⟨b.blackboard, due⟩) ∧
      ∀ (earlier later : List (Note W M)) (n : Note W M) (action : String)
        (result : Except HandlerError Unit),
        notes = earlier ++ n :: later → n.run = .start action result →
          ∃ before m, earlier = before ++ [m] ∧ m.run.due.Allows action ∧
            n.before.blackboard = m.after.blackboard := by
  refine ⟨?_, fun notes b hstretch => ⟨hstretch.handedOn h, ?_⟩⟩
  · rintro t call rfl hbegin
    exact Turn.seedsOnce_or_handedOn h.running hbegin call
  · rintro earlier later n action result rfl hstart
    obtain ⟨due, hhanded⟩ := hstretch.handedOn h
    exact hhanded.exists_behind hstart

/-! ## a traveller who keeps count -/

/-- Counts one more attempt on the blackboard. -/
def countAttempt : Handler Unit Unit := do
  let v ← Handler.view
  Handler.perform (.changeBlackboard fun b => b.set "attempts" <|
    match v.blackboard.get Int64 "attempts" with
    | .ok n => n + 1
    | .error _ => 1)

/-- The behaviour of an action that fails, and counts how often it has been started. -/
def counted : ActionHandlers Unit Bool where
  start := countAttempt
  fresh := false
  resume _ := .done (.returned .failure)

/-- The river with behaviour that counts. -/
def countingDefinition : Definition Unit Bool :=
  { riverDefinition with
    bindings :=
      { actions := .ofList (["build_raft", "row", "walk_home"].map (·, counted))
        blackboardInit := .ofList
          [("traveller", Handler.perform (.changeBlackboard (·.set "attempts" (0 : Int64))))] } }

/-- A traveller who has set to work, and counts. -/
def countingTraveller : Agent Unit Bool :=
  (idleTurn (ofDefinition "traveller" countingDefinition {}).loadDefinition.2).launch.2.agent

theorem reachable_countingTraveller : countingTraveller.Reachable := by
  rw [countingTraveller]
  exact (Reachable.ofDefinition _ _ _).loadDefinition.launch_idle

/-- In a tick in which the work on the raft fails, the traveller goes on counting.  If the plan is
made again, the count begins anew. -/
theorem seeds_once_countingTraveller :
    (∃ due, HandedOn ⟨countingTraveller.blackboard, .nothing⟩
      ((idleTurn countingTraveller).journal .step)
      ⟨((idleTurn countingTraveller).after .step).agent.blackboard, due⟩) ∧
    (countingTraveller.blackboard.get Int64 "attempts").toOption = some 1 ∧
    (((idleTurn countingTraveller).after .step).agent.blackboard.get Int64
      "attempts").toOption = some 2 ∧
    (idleTurn countingTraveller).SeedsOnce .replan ∧
    (((idleTurn countingTraveller).after .replan).agent.blackboard.get Int64
      "attempts").toOption = some 1 := by
  have hagent (a : Agent Unit Bool) : (idleTurn a).agent = a := rfl
  have hkept : ¬(idleTurn countingTraveller).Reseeds .step := by decide +kernel
  have hbegins : (idleTurn countingTraveller).Reseeds .replan := by decide +kernel
  obtain ⟨hcalls, -⟩ := reachable_countingTraveller.seeds_once
  obtain ⟨-, hstep⟩ := hcalls (idleTurn countingTraveller) .step (hagent _) rfl
  obtain ⟨hreplan, -⟩ := hcalls (idleTurn countingTraveller) .replan (hagent _) rfl
  exact ⟨hstep hkept, by decide +kernel, by decide +kernel, hreplan hbegins, by decide +kernel⟩

end Agent

end PlanningAgents
