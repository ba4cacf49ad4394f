import PlanningAgents.Proofs.Agent.Retries
import PlanningAgents.Proofs.Trace.Window

/-!
# PlanningAgents.Proofs.Agent.Attempts

The number that a start is recorded under.  It is one more than the retries that are counted, and so
one more than the starts that the front has had before.  Retries never exceed their bound, which may
be as great as a machine number can be; one more than that is no machine number any more.

Main statements:

* `Turn.trace_readyFront` — what a start is recorded as;
* `Agent.Moves.exists_start` — every start is made while the front is due;
* `Turn.exists_last_start` — where a front fails whenever it is started, the last retry is a start;
* `Turn.exists_start_of_full` — the last start of such a front finds all of its retries counted;
* `Chronicle.attempts_exact` — which starts have a number of their own.
-/

namespace PlanningAgents

variable {W M : Type}

/-! ## the number of a start -/

namespace Turn

variable {t u : Turn W M} {front : ActionRecord W M} {rest : List (ActionRecord W M)}

/-- The number that a start of the front is recorded under. -/
def attempt (t : Turn W M) : UInt32 := t.agent.retries + 1

/-- What a start of the front is recorded as. -/
def startEvent (t : Turn W M) (front : ActionRecord W M) : TraceEvent :=
  (t.event .actionStart front.name).withExtra "attempt" (toString t.attempt.toNat)

/-- A start is recorded before its handler is run. -/
theorem trace_readyFront (t : Turn W M) (front : ActionRecord W M) :
    (t.readyFront front).agent.trace = t.agent.trace.push (t.startEvent front) := rfl

/-- A number that fits is the number of retries and one. -/
theorem toNat_attempt (hfits : t.agent.retries.toNat + 1 < UInt32.size) :
    t.attempt.toNat = t.agent.retries.toNat + 1 := by
  rw [attempt, UInt32.toNat_add, UInt32.toNat_one]
  exact Nat.mod_eq_of_lt hfits

end Turn

namespace Agent

variable {a b : Agent W M} {events before after : List (Event W M)} {note : Note W M}

/-- A note has been made by the event that tells of it. -/
theorem ran_mem_of_mem_notes (h : note ∈ events.filterMap Event.note?) : .ran note ∈ events := by
  obtain ⟨e, he, hran⟩ := List.mem_filterMap.mp h
  cases e with
  | ran _ =>
      obtain rfl := Option.some.inj hran
      exact he
  | newFront => cases hran

/-- A move that is told by a start is the start of a front that is due. -/
theorem Move.of_start (h : Move a events b) (hmem : .ran note ∈ events)
    (hstart : note.run.isStart = true) :
    events = [.ran note] ∧
      ∃ (u : Turn W M) (front : ActionRecord W M) (rest : List (ActionRecord W M)),
        u.agent = a ∧ u.agent.queue = front :: rest ∧ front.phase = .created ∧
          note = u.note front.handlers.start (.start front.name) := by
  cases h with
  | run t h hlabel =>
      obtain rfl := Event.ran.inj (List.mem_singleton.mp hmem)
      exact absurd hstart (by simp [Turn.note, hlabel])
  | @start t front rest hcons hdue =>
      obtain rfl := Event.ran.inj (List.mem_singleton.mp hmem)
      exact ⟨rfl, t, front, rest, rfl, hcons, hdue, rfl⟩
  | _ => simp at hmem

/-- **Every start is made while the front is due.** -/
theorem Moves.exists_start (h : Moves a events b) (hevents : events = before ++ .ran note :: after)
    (hstart : note.run.isStart = true) :
    ∃ (u : Turn W M) (front : ActionRecord W M) (rest : List (ActionRecord W M)),
      Moves a before u.agent ∧ u.agent.queue = front :: rest ∧ front.phase = .created ∧
        note = u.note front.handlers.start (.start front.name) := by
  induction h generalizing after with
  | nil => simp at hevents
  | @snoc b c events events' h hmove ih =>
      have hlast {between} (hbefore : before = events ++ between)
          (hevents : events' = between ++ .ran note :: after) :
          ∃ (u : Turn W M) (front : ActionRecord W M) (rest : List (ActionRecord W M)),
            Moves a before u.agent ∧ u.agent.queue = front :: rest ∧ front.phase = .created ∧
              note = u.note front.handlers.start (.start front.name) := by
        obtain ⟨hsingle, u, front, rest, rfl, hmoment⟩ :=
          hmove.of_start (by rw [hevents]; simp) hstart
        obtain rfl : between = [] := by
          have hlength := congrArg List.length (hevents.symm.trans hsingle)
          simp only [List.length_append, List.length_cons, List.length_nil] at hlength
          exact List.length_eq_zero_iff.mp (by omega)
        rw [List.append_nil] at hbefore
        exact ⟨u, front, rest, hbefore ▸ h, hmoment⟩
      -- The start is told by the last move, or by one before it.
      obtain ⟨between, hbefore, hevents⟩ | ⟨between, hevents, hafter⟩ :=
        List.append_eq_append_iff.mp hevents
      · exact hlast hbefore hevents
      · cases between with
        | nil => exact @hlast [] (by simpa using hevents.symm) hafter.symm
        | cons e between =>
            obtain ⟨rfl, -⟩ := List.cons.inj hafter
            exact ih hevents

end Agent

/-! ## a front that never starts -/

namespace Turn

open Agent

variable {t u : Turn W M} {front : ActionRecord W M} {rest : List (ActionRecord W M)}
  {e : HandlerError}

/-- Starting a front whose handler fails at once is recorded, and so is its failure. -/
theorem startFront_of_fail (hcons : t.agent.queue = front :: rest)
    (hfail : front.handlers.start = .fail e) :
    t.startFront = (false, ((t.readyFront front).mapFront ({ · with phase := .failed })).record
      .actionResult front.name [("status", ActionStatus.failure.name), ("error", e.message)]) := by
  rw [startFront_eq hcons, hfail]
  rfl

/-- A start that fails leaves the trace with as much room as it had. -/
theorem exists_startFront_of_fail (hcons : t.agent.queue = front :: rest)
    (hfail : front.handlers.start = .fail e) :
    ∃ u, t.startFront = (false, u) ∧ u.agent.trace.capacity = t.agent.trace.capacity :=
  ⟨_, startFront_of_fail hcons hfail, rfl⟩

/-- **The last retry is a start too.**  A front that fails whenever it is started is started once
for every retry that is left. -/
theorem exists_last_start (name : String) (n : Nat) (hcons : t.agent.queue = front :: rest)
    (hfail : front.handlers.start = .fail e) (hbegun : front.phase ≠ .created)
    (hleft : t.agent.retries.toNat + (n + 1) ≤ t.agent.maxRetries.toNat) :
    ∃ (u : Turn W M) (last : ActionRecord W M) (notes : List (Note W M)),
      u.agent.queue = last :: rest ∧ last.name = front.name ∧ last.handlers = front.handlers ∧
      t.agent.Does notes (u.readyFront last).agent ∧
      u.agent.retries.toNat = t.agent.retries.toNat + (n + 1) ∧
      u.agent.trace.capacity = t.agent.trace.capacity ∧
      (retryFront name (n + 1) t).2 = u.startFront.2.giveUpFront name := by
  induction n generalizing t front with
  | zero =>
      have hless : t.agent.retries < t.agent.maxRetries := UInt32.lt_iff_toNat_lt.mpr hleft
      have hcount : t.countRetry.agent.queue = { front with task := none } :: rest :=
        queue_mapFront hcons _
      have hready := does_countRetry hcons hbegun hless
      refine ⟨t.countRetry, _, [], hcount, rfl, rfl, hready, toNat_retries_succ hless, rfl, ?_⟩
      rw [retryFront, ← countRetry.eq_def, startFront_of_fail hcount hfail]
      rfl
  | succ n ih =>
      have hless : t.agent.retries < t.agent.maxRetries := by
        rw [UInt32.lt_iff_toNat_lt]
        omega
      have hcount : t.countRetry.agent.queue = { front with task := none } :: rest :=
        queue_mapFront hcons _
      obtain ⟨v, hstart, hcapacity⟩ := exists_startFront_of_fail hcount hfail
      obtain ⟨hqueue, hretries, hmax⟩ := of_countRetry_startFront hcons hless hstart
      have hstarted := does_startFront hcount (does_countRetry hcons hbegun hless)
      rw [hstart] at hstarted
      obtain ⟨u, last, notes, hlast, hname, hhandlers, hdoes, hcounted, hkept, hloop⟩ :=
        ih hqueue hfail (by simp) (by rw [hretries, hmax]; omega)
      refine ⟨u, last, _, hlast, hname, hhandlers, hstarted.trans hdoes, ?_,
        hkept.trans hcapacity, ?_⟩
      · rw [hcounted, hretries]
        omega
      · rw [retryFront, ← countRetry.eq_def, hstart]
        exact hloop

/-- A front that is due, and never starts, is started for a last time when as many retries are
counted as there may be. -/
theorem exists_start_of_full (hcons : t.agent.queue = front :: rest)
    (hdue : front.phase = .created) (hfail : front.handlers.start = .fail e)
    (hzero : t.agent.retries = 0) (hmax : t.agent.maxRetries ≠ 0) (result : StepResult) :
    ∃ (u : Turn W M) (last : ActionRecord W M) (notes : List (Note W M)),
      u.agent.queue = last :: rest ∧ last.name = front.name ∧ last.handlers = front.handlers ∧
      t.agent.Does notes (u.readyFront last).agent ∧ u.agent.retries = t.agent.maxRetries ∧
      u.agent.trace.capacity = t.agent.trace.capacity ∧
      (t.startOrFail result).2 = u.startFront.2.giveUpFront front.name := by
  have hfirst := does_startFront hcons (does_readyFront hcons hdue)
  obtain ⟨v, hstart, hcapacity⟩ := exists_startFront_of_fail hcons hfail
  obtain ⟨hqueue, hretries, hsame⟩ := of_startFront_eq_false hcons hstart
  rw [hstart] at hfirst
  obtain ⟨n, hn⟩ : ∃ n, t.agent.maxRetries.toNat = n + 1 :=
    Nat.exists_eq_add_one_of_ne_zero fun h => hmax (UInt32.toNat_inj.mp h)
  have hnone : v.agent.retries.toNat = 0 := by rw [hretries, hzero, UInt32.toNat_zero]
  have hleft : v.agent.maxRetries.toNat - v.agent.retries.toNat = n + 1 := by
    rw [hsame, hn, hnone, Nat.sub_zero]
  obtain ⟨u, last, notes, hlast, hname, hhandlers, hdoes, hcounted, hkept, hloop⟩ :=
    exists_last_start front.name n hqueue hfail (by simp) (by omega)
  refine ⟨u, last, _, hlast, hname, hhandlers, hfirst.trans hdoes, ?_, hkept.trans hcapacity, ?_⟩
  · rw [← UInt32.toNat_inj, hcounted, hnone, hn, Nat.zero_add]
  · rw [startOrFail, hstart, ← hloop]
    simp only [failFront, hqueue, hleft]

/-- The last start is still on record when the front has been given up. -/
theorem startEvent_mem_giveUpFront (hcons : u.agent.queue = front :: rest)
    (hfail : front.handlers.start = .fail e) (hroom : 3 ≤ u.agent.trace.capacity.toNat)
    (name : String) :
    u.startEvent front ∈ (u.startFront.2.giveUpFront name).agent.trace.events := by
  obtain ⟨failure, replan, htrace⟩ : ∃ failure replan : TraceEvent,
      (u.startFront.2.giveUpFront name).agent.trace =
        u.agent.trace.pushAll [u.startEvent front, failure, replan] := by
    rw [startFront_of_fail hcons hfail]
    exact ⟨_, _, rfl⟩
  rw [htrace]
  exact TraceBuffer.mem_events_pushAll hroom List.mem_cons_self

/-- Where a plan is found without a choice of goals, launching means starting its first action. -/
theorem trace_launch
    (hselectors : t.seedBlackboard.bindingFor
      t.seedBlackboard.agent.definition.bindings.goalSelectors = none)
    (hfound : t.seedBlackboard.freshPlan.agent.plan.outcome = .found)
    (hbusy : t.seedBlackboard.freshPlan.queuePlan.agent.queue.isEmpty = false) :
    t.launch.2.agent.trace =
      (t.seedBlackboard.freshPlan.queuePlan.startOrFail .running).2.agent.trace := by
  rw [launch, selectGoal_eq, hselectors, planAnew_eq, hfound]
  simp only
  rw [beginPlan_eq_startOrFail, hbusy]
  rfl

end Turn

/-! ## whole runs -/

/-- **Which starts have a number of their own.**  Every start of every call is recorded under one
more than the number of starts that its front has had before, and that is at most one more than
there may be retries.  It fits a machine number, except for the last start of a front that may be
tried again as often as a machine number can say, and has been. -/
theorem Chronicle.attempts_exact {t : Turn W M} {events : List (Event W M)}
    (h : Chronicle events t.agent) (call : Call) :
    (t.opening call).agent.Does (t.journal call) (t.after call).agent ∧
    ∀ (during before after : List (Event W M)) (note : Note W M) (b : Agent W M),
      (t.opening call).agent.Moves during b → during = before ++ .ran note :: after →
      note.run.isStart = true →
        ∃ (u : Turn W M) (front : ActionRecord W M) (rest : List (ActionRecord W M)),
          (t.opening call).agent.Moves before u.agent ∧ u.agent.queue = front :: rest ∧
          note = u.note front.handlers.start (.start front.name) ∧
          u.agent.retries.toNat = starts (events ++ before) ∧
          u.agent.retries ≤ t.agent.maxRetries ∧
          (u.agent.retries.toNat + 1 < UInt32.size ↔
            ¬(t.agent.maxRetries.toNat + 1 = UInt32.size ∧
              starts (events ++ before) = t.agent.maxRetries.toNat)) ∧
          (u.agent.retries.toNat + 1 < UInt32.size →
            u.attempt.toNat = starts (events ++ before) + 1) := by
  refine ⟨Turn.does_after h.reachable.atRest call, ?_⟩
  intro during before after note b hmoves hduring hstart
  obtain ⟨u, front, rest, hbefore, hcons, hdue, hnote⟩ := hmoves.exists_start hduring hstart
  have hcounted := hbefore.counted (h.counted.opening call)
  have hmax : u.agent.maxRetries = t.agent.maxRetries := by
    rw [hbefore.continues.maxRetries, Turn.maxRetries_opening]
  have hle : u.agent.retries ≤ t.agent.maxRetries := hmax ▸ hcounted.le
  have hretries := hcounted.front_eq hcons
  rw [if_pos hdue, Nat.add_zero, ← starts_append] at hretries
  refine ⟨u, front, rest, hbefore, hcons, hnote, hretries.symm, hle, ?_, ?_⟩
  · have hbound := UInt32.le_iff_toNat_le.mp hle
    have hlt : t.agent.maxRetries.toNat < UInt32.size := t.agent.maxRetries.toNat_lt
    rw [hretries]
    omega
  · intro hfits
    rw [Turn.toNat_attempt hfits, hretries]

namespace Agent

/-- A traveller who is launched starts to build a raft, and that is recorded under a number that is
one more than the starts before. -/
theorem attempts_exact_traveller :
    ∃ (before : List (Event Unit Bool)) (u : Turn Unit Bool) (front : ActionRecord Unit Bool)
      (rest : List (ActionRecord Unit Bool)),
      u.agent.queue = front :: rest ∧ u.attempt.toNat = starts before + 1 := by
  obtain ⟨a, ha⟩ : ∃ a : Agent Unit Bool,
      a = (ofDefinition "traveller" riverDefinition {}).loadDefinition.2 := ⟨_, rfl⟩
  have hchronicle : Chronicle [] a := ha ▸ (Chronicle.ofDefinition _ _ _).loadDefinition
  have hstarts : ((idleTurn a).journal .launch).any (·.run.isStart) = true := by
    rw [ha]
    decide +kernel
  have hbound : a.maxRetries = 3 := by
    rw [ha]
    decide +kernel
  obtain ⟨⟨during, hmoves, hnotes⟩, hexact⟩ :=
    Chronicle.attempts_exact (t := idleTurn a) hchronicle .launch
  obtain ⟨note, hnote, hstart⟩ := List.any_eq_true.mp hstarts
  rw [← hnotes] at hnote
  obtain ⟨before, after, hduring⟩ := List.append_of_mem (ran_mem_of_mem_notes hnote)
  obtain ⟨u, front, rest, -, hcons, -, hretries, -, hfits, hnumber⟩ :=
    hexact during before after note _ hmoves hduring hstart
  refine ⟨before, u, front, rest, hcons, hnumber (hfits.mpr fun hmax => ?_)⟩
  exact absurd hmax.1 (by rw [show (idleTurn a).agent.maxRetries = 3 from hbound]; decide)

/-! ## a hopeless kobold -/

/-- The behaviour of an action that never starts. -/
def hopeless : ActionHandlers Unit Bool where
  start := .fail ⟨"no"⟩
  fresh := false
  resume _ := .done (.returned .success)

/-- Kobolds have one thing to do, may try it as often as can be said, and never get to it. -/
def hopelessDefinition : Definition Unit Bool :=
  Definition.withAction
    { data :=
        { actions := [({ name := "work" } : ActionSpec).withPost "done" true]
          entityTypes := .ofList
            [("kobold", (({} : EntityTypeSpec).withInitial "done" false).withGoal "done" true)]
          maxRetries := some 4294967295 } }
    "work" hopeless

/-- A kobold before it is launched, whose trace has room for three events. -/
def hopelessKobold : Agent Unit Bool :=
  (ofDefinition "kobold" hopelessDefinition { traceCapacity := 3 }).loadDefinition.2

/-- The launch of the kobold, up to where it is about to start to work. -/
def setOutKobold : Turn Unit Bool := (idleTurn hopelessKobold).seedBlackboard.freshPlan.queuePlan

theorem chronicle_hopelessKobold : Chronicle [] hopelessKobold :=
  (Chronicle.ofDefinition _ _ _).loadDefinition

/-- The kobold comes to where it is about to start to work. -/
theorem does_setOutKobold : ∃ notes, hopelessKobold.Does notes setOutKobold.agent := by
  have hunfailed : (idleTurn hopelessKobold).seedBlackboard.agent.Unfailed := by
    refine unfailed_of_queue_eq_nil (List.isEmpty_iff.mp ?_)
    decide +kernel
  exact ⟨_, ((idleTurn hopelessKobold).does_seedBlackboard.quiet
    (Turn.does_freshPlan hunfailed)).trans (Turn.does_queuePlan rfl rfl)⟩

/-- What it is about to start is its work, which never starts. -/
theorem front_setOutKobold : ∃ front rest, setOutKobold.agent.queue = front :: rest ∧
    front.name = "work" ∧ front.handlers = hopeless ∧ front.phase = .created := by
  have hbusy : setOutKobold.agent.queue.isEmpty = false := by decide +kernel
  obtain ⟨front, rest, hcons⟩ := List.exists_cons_of_ne_nil (List.isEmpty_eq_false_iff.mp hbusy)
  have hmem : front ∈ setOutKobold.agent.queue := hcons ▸ List.mem_cons_self
  have hdue := Turn.phase_queuePlan (t := (idleTurn hopelessKobold).seedBlackboard.freshPlan) rfl
    front hmem
  rw [setOutKobold, (Turn.queued_queuePlan rfl rfl).1] at hmem
  obtain ⟨place, -, hplace⟩ := List.mem_filterMap.mp hmem
  obtain ⟨rfl, hbound, -⟩ := of_recordAt?_eq_some hplace
  have hbindings : (idleTurn hopelessKobold).seedBlackboard.freshPlan.agent.definition.bindings =
      hopelessDefinition.bindings := rfl
  rw [hbindings, hopelessDefinition, Definition.withAction, SortedMap.getElem?_insert] at hbound
  by_cases hname : front.place.1 = "work"
  · rw [if_pos hname] at hbound
    exact ⟨front, rest, hcons, hname, (Option.some.inj hbound).symm, hdue⟩
  · rw [if_neg hname] at hbound
    cases hbound

/-- Launching the kobold means starting its work. -/
theorem trace_launch_hopelessKobold : (idleTurn hopelessKobold).launch.2.agent.trace =
    (setOutKobold.startOrFail .running).2.agent.trace :=
  Turn.trace_launch rfl (by decide +kernel) (by decide +kernel)

/-- **A start without a number.**  The last time that the kobold is told to work is recorded as the
attempt with the number zero. -/
theorem attempts_overflow_hopelessKobold :
    hopelessKobold.Reachable ∧ hopelessKobold.maxRetries = 4294967295 ∧
    (∃ (during : List (Event Unit Bool)) (u : Turn Unit Bool) (front : ActionRecord Unit Bool)
        (rest : List (ActionRecord Unit Bool)),
      u.agent.queue = front :: rest ∧
        ((idleTurn hopelessKobold).opening .launch).agent.Moves during (u.readyFront front).agent ∧
        ¬u.agent.retries.toNat + 1 < UInt32.size) ∧
    ∃ e ∈ (idleTurn hopelessKobold).launch.2.agent.trace.events,
      e.kind = .actionStart ∧ e.message = "work" ∧ e.extra["attempt"]? = some "0" := by
  refine ⟨chronicle_hopelessKobold.reachable, by decide +kernel, ?_⟩
  obtain ⟨front, rest, hcons, hname, hhandlers, hdue⟩ := front_setOutKobold
  have hfail : front.handlers.start = .fail ⟨"no"⟩ := by rw [hhandlers, hopeless]
  have hzero : setOutKobold.agent.retries = 0 := by decide +kernel
  have hbound : setOutKobold.agent.maxRetries = 4294967295 := by decide +kernel
  have hroom : setOutKobold.agent.trace.capacity = 3 := by decide +kernel
  obtain ⟨u, last, notes, hlast, hsame, hkept, hdoes, hfull, hcapacity, htold⟩ :=
    Turn.exists_start_of_full hcons hdue hfail hzero (by rw [hbound]; decide) .running
  rw [hbound] at hfull
  obtain ⟨first, hsetOut⟩ := does_setOutKobold
  obtain ⟨during, hmoves, -⟩ := hsetOut.trans hdoes
  refine ⟨⟨during, u, last, rest, hlast, hmoves, by rw [hfull]; decide⟩, u.startEvent last, ?_, ?_⟩
  · rw [trace_launch_hopelessKobold, htold]
    refine Turn.startEvent_mem_giveUpFront hlast (e := ⟨"no"⟩) (by rw [hkept, hfail]) ?_ _
    rw [hcapacity, hroom]
    decide
  · have hattempt : u.attempt = 0 := by
      rw [Turn.attempt, hfull]
      rfl
    rw [Turn.startEvent, hattempt]
    exact ⟨rfl, hsame.trans hname, rfl⟩

end Agent

end PlanningAgents
