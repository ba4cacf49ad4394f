import PlanningAgents.Proofs.Agent.Refinement
import PlanningAgents.Proofs.Agent.Retries

/-!
# PlanningAgents.Proofs.Agent.Trials

What becomes of an action that fails.  A start that fails, an update that answers failure and an
update that fails itself are all met in the same way: the front is started again at once, and again,
until it is under way or has been started once more than there may be retries (`Tried`).  Only then
does it leave the queue for its failure, and all of the queue leaves with it.

What is said of a call is said of the handlers that are run in it, as its journal lists them, and of
the agent as the parts of the call leave it: the step of the front (`Turn.Stepped`), and what comes
behind it, where the plan stays or gives way to another one (`Agent.Renewed`).

Main statements:

* `Turn.tried_failFront`, `Turn.tried_startOrFail` — how the front is tried;
* `Turn.stepped_stepFront` — the step of the front tries what has failed;
* `Turn.renewed_planAnew`, `Turn.renewed_selectGoal` — planning tries the first action of a plan;
* `Turn.serves_journal` — so does every call, and nothing else is started in it;
* `Chronicle.retries_exact` — the bound on retries holds throughout every run, and is exact.
-/

namespace PlanningAgents

variable {W M : Type}

/-! ## trials -/

/-- **How the front is tried** when it has been started `n` times before.  One start follows another
as long as they fail.  If one of them does not, the front is under way, with as many retries counted
as there have been starts before that one; and if there has been one more than the `limit` of
retries, all of the queue is dropped, and the agent marked as dirty. -/
inductive Tried (front : ActionRecord W M) (rest : List (ActionRecord W M)) (limit n : Nat) :
    List (Run M) → Agent W M → Prop
  | underWay {b : Agent W M} (errors : List HandlerError) (hleft : n + errors.length ≤ limit)
      (hqueue : b.queue = { front with task := none, phase := .running } :: rest)
      (hretries : b.retries.toNat = n + errors.length) :
      Tried front rest limit n
        (errors.map (fun e => .start front.name (.error e)) ++ [.start front.name (.ok ())]) b
  | givenUp {b : Agent W M} (errors : List HandlerError) (hall : n + errors.length = limit + 1)
      (hqueue : b.queue = []) (hdirty : b.dirty = true) :
      Tried front rest limit n (errors.map fun e => .start front.name (.error e)) b

/-- What a run of a task says of its action. -/
inductive Verdict where
  | goesOn | succeeded | failed

/-- What a run of a task says of its action, which fails where the task does. -/
def verdict : Except HandlerError (TaskProgress M) → Verdict
  | .ok (.yielded _) | .ok (.returned .running) => .goesOn
  | .ok (.returned .success) => .succeeded
  | .ok (.returned .failure) | .error _ => .failed

namespace Turn

/-- The front is resumed, from what its task remembers. -/
def resumeFront (t : Turn W M) (front : ActionRecord W M) :
    Except HandlerError (TaskProgress M) × Turn W M :=
  (t.mapFront ({ · with task := none })).call
    (front.handlers.resume (front.task.getD front.handlers.fresh))

/-- **How a step serves the front** when it has been started `n` times.  After a failure it is tried
again; after a success the record behind it is tried, of which no start and no retry is counted. -/
inductive Stepped (t : Turn W M) (n : Nat) : List (Run M) → Agent W M → Prop
  | idle (hqueue : t.agent.queue = []) : Stepped t n [] t.agent
  | goesOn {front : ActionRecord W M} {rest : List (ActionRecord W M)}
      {result : Except HandlerError (TaskProgress M)} {u : Turn W M} {b : Agent W M}
      (hcons : t.agent.queue = front :: rest) (hresume : t.resumeFront front = (result, u))
      (hverdict : verdict result = .goesOn)
      (hqueue : b.queue.map ActionRecord.place = t.agent.queue.map ActionRecord.place)
      (hretries : b.retries = t.agent.retries) :
      Stepped t n [.resume front.name front.task result] b
  | fails {front : ActionRecord W M} {rest : List (ActionRecord W M)}
      {result : Except HandlerError (TaskProgress M)} {u : Turn W M} {runs : List (Run M)}
      {b : Agent W M} (hcons : t.agent.queue = front :: rest)
      (hresume : t.resumeFront front = (result, u)) (hverdict : verdict result = .failed)
      (htried : Tried front rest t.agent.maxRetries.toNat n runs b) :
      Stepped t n (.resume front.name front.task result :: runs) b
  | ends {front : ActionRecord W M} {result : Except HandlerError (TaskProgress M)} {u : Turn W M}
      {b : Agent W M} (hcons : t.agent.queue = [front])
      (hresume : t.resumeFront front = (result, u)) (hverdict : verdict result = .succeeded)
      (hqueue : b.queue = []) :
      Stepped t n [.resume front.name front.task result, .finish front.name] b
  | proceeds {front next : ActionRecord W M} {rest : List (ActionRecord W M)}
      {result : Except HandlerError (TaskProgress M)} {u : Turn W M} {runs : List (Run M)}
      {b : Agent W M} (hcons : t.agent.queue = front :: next :: rest)
      (hresume : t.resumeFront front = (result, u)) (hverdict : verdict result = .succeeded)
      (hzero : (u.popFront front (next :: rest)).agent.retries = 0)
      (htried : Tried next rest t.agent.maxRetries.toNat 0 runs b) :
      Stepped t n (.resume front.name front.task result :: .finish front.name :: runs) b

end Turn

namespace Agent

/-- The handler that aborts the front, if there is a front. -/
def aborts (a : Agent W M) (reason : AbortReason) : List (Run M) :=
  a.queue.head?.toList.map fun front => .abort front.name reason

/-- **How the plan stays, or gives way to another one.**  Where it stays, no handler of an action is
run.  Where it does not, the handlers that abort the front are, and then nothing is left to do, or
the first record of a plan is tried, of which no start and no retry is counted. -/
inductive Renewed (a : Agent W M) (aborts : List (Run M)) : List (Run M) → Agent W M → Prop
  | stays {runs : List (Run M)} {b : Agent W M} (hquiet : ∀ run ∈ runs, run.action? = none)
      (hqueue : b.queue = a.queue) (hretries : b.retries = a.retries) : Renewed a aborts runs b
  | idle {runs : List (Run M)} {b : Agent W M}
      (hdropped : runs.filter (·.action?.isSome) = aborts) (hqueue : b.queue = []) :
      Renewed a aborts runs b
  | begins {w : Turn W M} {front : ActionRecord W M} {rest : List (ActionRecord W M)}
      {earlier runs : List (Run M)} (hdropped : earlier.filter (·.action?.isSome) = aborts)
      (hcons : w.queuePlan.agent.queue = front :: rest) (hzero : w.queuePlan.agent.retries = 0)
      (htried : Tried front rest a.maxRetries.toNat 0 runs w.beginPlan.agent) :
      Renewed a aborts (earlier ++ runs) w.beginPlan.agent

end Agent

/-- **How a call serves the front** when it has been started `n` times.  A tick steps it first; and
every call but a launch aborts it before it drops it. -/
def Turn.Serves (t : Turn W M) (n : Nat) (call : Call) : Prop :=
  let runs := (t.journal call).map (·.run)
  let after := (t.after call).agent
  match call with
  | .launch => t.agent.Renewed [] runs after
  | .step => ∃ stepped behind, runs = stepped ++ behind ∧
      t.Stepped n stepped t.stepFront.2.agent ∧
      t.stepFront.2.agent.Renewed (t.stepFront.2.agent.aborts .worldStateChanged) behind after
  | .replan | .replanTo _ _ => t.agent.Renewed (t.agent.aborts .replan) runs after
  | .interrupt => t.agent.Renewed (t.agent.aborts .interrupt) runs after

namespace Tried

variable {front : ActionRecord W M} {rest : List (ActionRecord W M)} {limit n : Nat}
  {runs : List (Run M)} {b : Agent W M}

/-- One more start that fails comes before the others. -/
theorem again (h : Tried front rest limit (n + 1) runs b) (e : HandlerError) :
    Tried front rest limit n (.start front.name (.error e) :: runs) b := by
  have hlength (errors : List HandlerError) :
      n + (e :: errors).length = n + 1 + errors.length := by
    rw [List.length_cons]
    omega
  cases h with
  | underWay errors hleft hqueue hretries =>
      exact .underWay (e :: errors) (hlength errors ▸ hleft) hqueue (hlength errors ▸ hretries)
  | givenUp errors hall hqueue hdirty =>
      exact .givenUp (e :: errors) ((hlength errors).trans hall) hqueue hdirty

/-- How far the front has come before does not matter. -/
theorem of_front {task : Option M} {phase : ActionPhase}
    (h : Tried { front with task, phase } rest limit n runs b) :
    Tried front rest limit n runs b := by
  cases h with
  | underWay errors hleft hqueue hretries => exact .underWay errors hleft hqueue hretries
  | givenUp errors hall hqueue hdirty => exact .givenUp errors hall hqueue hdirty

/-- Where the plan starts is no part of it. -/
theorem depart (h : Tried front rest limit n runs b) :
    Tried front rest limit n runs { b with planStart := b.current, cached := b.current } := by
  cases h with
  | underWay errors hleft hqueue hretries => exact .underWay errors hleft hqueue hretries
  | givenUp errors hall hqueue hdirty => exact .givenUp errors hall hqueue hdirty

end Tried

namespace Turn

variable {t u : Turn W M} {front : ActionRecord W M} {rest : List (ActionRecord W M)} {n : Nat}

/-! ## the front action -/

/-- The front starts, and is under way; or it does not, and has failed. -/
theorem startFront_cases (hcons : t.agent.queue = front :: rest) :
    (∃ u, t.startFront = (true, u) ∧
      t.startNotes.map (·.run) = [.start front.name (.ok ())] ∧
      u.agent.queue = { front with task := none, phase := .running } :: rest ∧
      u.agent.retries = t.agent.retries) ∨
    ∃ e u, t.startFront = (false, u) ∧
      t.startNotes.map (·.run) = [.start front.name (.error e)] := by
  rw [startFront_eq hcons, startNotes, hcons]
  cases hcall : (t.readyFront front).call front.handlers.start with
  | mk r v =>
      have hrun : ((t.readyFront front).note front.handlers.start (.start front.name)).run =
          .start front.name r := run_note (M := M) hcall
      have hkept := kept_of_call hcall
      have hqueue := (congrArg Agent.queue hkept).trans (queue_readyFront hcons)
      have hretries : v.agent.retries = t.agent.retries :=
        (congrArg Agent.retries hkept).trans (by rw [agent_readyFront]; rfl)
      cases r with
      | ok done => exact .inl ⟨_, rfl, congrArg ([·]) hrun, queue_mapFront hqueue _, hretries⟩
      | error e => exact .inr ⟨e, _, rfl, congrArg ([·]) hrun⟩

/-- **The front is tried again** as often as retries are left. -/
theorem tried_retryFront (name : String) (left : Nat) (hcons : t.agent.queue = front :: rest)
    (hleft : t.agent.retries.toNat + left = t.agent.maxRetries.toNat) :
    Tried front rest t.agent.maxRetries.toNat (t.agent.retries.toNat + 1)
      ((retryNotes left t).map (·.run)) (retryFront name left t).2.agent := by
  induction left generalizing t front with
  | zero =>
      have hall : t.agent.retries.toNat + 1 + ([] : List HandlerError).length =
          t.agent.maxRetries.toNat + 1 := by
        rw [List.length_nil]
        omega
      exact .givenUp [] hall rfl rfl
  | succ left ih =>
      have hless : t.agent.retries < t.agent.maxRetries := by
        rw [UInt32.lt_iff_toNat_lt]
        omega
      have hcount : t.countRetry.agent.queue = { front with task := none } :: rest :=
        queue_mapFront hcons _
      have hcounted : t.countRetry.agent.retries.toNat = t.agent.retries.toNat + 1 :=
        Agent.toNat_retries_succ hless
      rw [retryFront, retryNotes, ← countRetry.eq_def, List.map_append]
      obtain ⟨u, hstart, hrun, hqueue, hretries⟩ | ⟨e, u, hstart, hrun⟩ := startFront_cases hcount
      · simp only [hstart, hrun, List.map_nil, List.append_nil]
        refine .underWay [] ?_ hqueue ?_
        · rw [List.length_nil]
          omega
        · rw [hretries, hcounted]
          rfl
      · obtain ⟨hqueue, hretries, hmax⟩ := of_countRetry_startFront hcons hless hstart
        have hrest := ih hqueue (by rw [hretries, hmax]; omega)
        rw [hretries, hmax] at hrest
        simp only [hstart, hrun, List.singleton_append]
        exact hrest.of_front.again e

/-- **After a failure** the front is tried again. -/
theorem tried_failFront (hcons : t.agent.queue = front :: rest)
    (hle : t.agent.retries ≤ t.agent.maxRetries) :
    Tried front rest t.agent.maxRetries.toNat (t.agent.retries.toNat + 1)
      (t.failNotes.map (·.run)) t.failFront.2.agent := by
  rw [UInt32.le_iff_toNat_le] at hle
  rw [failFront, failNotes, hcons]
  exact tried_retryFront front.name _ hcons (by omega)

/-- So it is after a failure that is recorded, however far the front has come. -/
theorem tried_failFront_record {task : Option M} {phase : ActionPhase}
    (hqueue : u.agent.queue = { front with task, phase } :: rest)
    (hle : u.agent.retries ≤ u.agent.maxRetries) (kind : TraceKind) (message : String)
    (extra : List (String × String)) :
    Tried front rest u.agent.maxRetries.toNat (u.agent.retries.toNat + 1)
      ((u.record kind message extra).failNotes.map (·.run))
      (u.record kind message extra).failFront.2.agent :=
  (tried_failFront (t := u.record kind message extra) hqueue hle).of_front

/-- **A front that is due** is tried. -/
theorem tried_startOrFail (hcons : t.agent.queue = front :: rest)
    (hle : t.agent.retries ≤ t.agent.maxRetries) (result : StepResult) :
    Tried front rest t.agent.maxRetries.toNat t.agent.retries.toNat
      (t.startOrFailNotes.map (·.run)) (t.startOrFail result).2.agent := by
  rw [startOrFail, startOrFailNotes, List.map_append]
  obtain ⟨u, hstart, hrun, hqueue, hretries⟩ | ⟨e, u, hstart, hrun⟩ := startFront_cases hcons
  · simp only [hstart, hrun, List.map_nil, List.append_nil]
    exact .underWay [] (UInt32.le_iff_toNat_le.mp hle) hqueue (by rw [hretries]; rfl)
  · obtain ⟨hqueue, hretries, hmax⟩ := of_startFront_eq_false hcons hstart
    have hfail := tried_failFront hqueue (by rw [hretries, hmax]; exact hle)
    rw [hretries, hmax] at hfail
    simp only [hstart, hrun, List.singleton_append]
    exact hfail.of_front.again e

/-- The record behind a front that has succeeded begins with no retries counted, and is tried. -/
theorem tried_popFront {next : ActionRecord W M}
    (hcons : t.agent.queue = front :: next :: rest) (result : StepResult) :
    Tried next rest t.agent.maxRetries.toNat 0
      ((t.popFront front (next :: rest)).startOrFailNotes.map (·.run))
      ((t.popFront front (next :: rest)).startOrFail result).2.agent :=
  tried_startOrFail (t := t.popFront front (next :: rest)) (queue_popFront hcons)
    (Agent.zero_le_maxRetries _) result

/-- A front that goes on stays where it is. -/
theorem map_place_of_goesOn {b : Agent W M} {task : Option M} {phase : ActionPhase}
    (hcons : t.agent.queue = front :: rest)
    (hqueue : b.queue = { front with task, phase } :: rest) :
    b.queue.map ActionRecord.place = t.agent.queue.map ActionRecord.place := by
  rw [hqueue, hcons]
  rfl

/-- **The step of the front** tries again what has failed. -/
theorem stepped_stepFront (hrunning : ∀ r ∈ t.agent.queue.head?, r.isRunning = true)
    (hle : t.agent.retries ≤ t.agent.maxRetries)
    (hn : t.agent.queue ≠ [] → n = t.agent.retries.toNat + 1) :
    t.Stepped n (t.stepNotes.map (·.run)) t.stepFront.2.agent := by
  cases hcons : t.agent.queue with
  | nil =>
      rw [stepFront, stepNotes, hcons]
      exact .idle hcons
  | cons front rest =>
      obtain rfl := hn (by simp [hcons])
      have hfront : front.isRunning = true := hrunning front (by rw [hcons]; rfl)
      rw [stepFront_eq hcons, stepNotes, hcons]
      simp only [hfront, Bool.not_true, Bool.false_eq_true, if_false, List.map_cons]
      cases hcall : (t.mapFront ({ · with task := none })).call
          (front.handlers.resume (front.task.getD front.handlers.fresh)) with
      | mk result u =>
          have hresume : t.resumeFront front = (result, u) := hcall
          have hkept := kept_of_call hcall
          have hqueue : u.agent.queue = { front with task := none } :: rest :=
            (congrArg Agent.queue hkept).trans (queue_mapFront hcons _)
          have hretries : u.agent.retries = t.agent.retries := (congrArg Agent.retries hkept :)
          have hmax : u.agent.maxRetries = t.agent.maxRetries := (congrArg Agent.maxRetries hkept :)
          have hgoesOn (task : ActionRecord W M → Option M) (phase : ActionPhase) :
              (u.mapFront fun r => { r with task := task r, phase }).agent.queue.map
                ActionRecord.place = t.agent.queue.map ActionRecord.place :=
            map_place_of_goesOn hcons (queue_mapFront hqueue _)
          have hfail := tried_failFront_record hqueue (by rw [hretries, hmax]; exact hle)
          rw [hretries, hmax] at hfail
          rw [run_note hcall]
          cases result with
          | error e => exact .fails hcons hresume rfl (hfail _ _ _)
          | ok progress =>
              cases progress with
              | yielded memory =>
                  exact .goesOn hcons hresume rfl (hgoesOn (fun _ => some memory) _) hretries
              | returned status =>
                  cases status with
                  | running => exact .goesOn hcons hresume rfl (hgoesOn (·.task) _) hretries
                  | failure => exact .fails hcons hresume rfl (hfail _ _ _)
                  | success =>
                      simp only
                      rw [completeFront_eq_startOrFail hqueue, completeNotes, hqueue]
                      cases rest with
                      | nil => exact .ends hcons hresume rfl (queue_popFront hqueue)
                      | cons next rest =>
                          have htried := tried_popFront hqueue .succeeded
                          rw [hmax] at htried
                          exact .proceeds hcons hresume rfl rfl htried

end Turn

/-! ## the plan -/

namespace Agent.Renewed

variable {a b c : Agent W M} {aborts earlier runs : List (Run M)}

/-- What is left of runs when those of actions are, if there are none. -/
theorem filter_eq_nil (hquiet : ∀ run ∈ earlier, run.action? = none) :
    earlier.filter (·.action?.isSome) = [] :=
  List.filter_eq_nil_iff.mpr fun run hrun => by simp [hquiet run hrun]

/-- Handlers that serve no action may be run before. -/
theorem prepend (h : a.Renewed aborts runs b) (hquiet : ∀ run ∈ earlier, run.action? = none) :
    a.Renewed aborts (earlier ++ runs) b := by
  have hnone := filter_eq_nil hquiet
  cases h with
  | stays hrest hqueue hretries =>
      exact .stays (List.forall_mem_append.mpr ⟨hquiet, hrest⟩) hqueue hretries
  | idle hdropped hqueue =>
      refine .idle ?_ hqueue
      rw [List.filter_append, hnone, List.nil_append, hdropped]
  | begins hdropped hcons hzero htried =>
      rw [← List.append_assoc]
      refine .begins ?_ hcons hzero htried
      rw [List.filter_append, hnone, List.nil_append, hdropped]

/-- What handlers and notes can reach does not matter. -/
theorem of_kept_eq (h : b.Renewed aborts runs c) (hkept : b.kept = a.kept) :
    a.Renewed aborts runs c := by
  have hmax : b.maxRetries = a.maxRetries := (congrArg Agent.maxRetries hkept :)
  cases h with
  | stays hquiet hqueue hretries =>
      exact .stays hquiet (hqueue.trans (congrArg Agent.queue hkept :))
        (hretries.trans (congrArg Agent.retries hkept :))
  | idle hdropped hqueue => exact .idle hdropped hqueue
  | begins hdropped hcons hzero htried => exact .begins hdropped hcons hzero (hmax ▸ htried)

/-- The plan is dropped before, with its front aborted. -/
theorem drop (h : b.Renewed [] runs c) (hqueue : b.queue = []) (hmax : b.maxRetries = a.maxRetries)
    (hdropped : earlier.filter (·.action?.isSome) = aborts) :
    a.Renewed aborts (earlier ++ runs) c := by
  cases h with
  | stays hquiet hsame hretries =>
      refine .idle ?_ (hsame.trans hqueue)
      rw [List.filter_append, filter_eq_nil hquiet, List.append_nil, hdropped]
  | idle hnone hempty =>
      refine .idle ?_ hempty
      rw [List.filter_append, hnone, List.append_nil, hdropped]
  | begins hnone hcons hzero htried =>
      rw [← List.append_assoc]
      refine .begins ?_ hcons hzero (hmax ▸ htried)
      rw [List.filter_append, hnone, List.append_nil, hdropped]

/-- What is kept for comparison does not matter behind it. -/
theorem remember (h : a.Renewed aborts runs b) :
    a.Renewed aborts runs { b with cached := b.current } := by
  cases h with
  | stays hquiet hqueue hretries => exact .stays hquiet hqueue hretries
  | idle hdropped hqueue => exact .idle hdropped hqueue
  | @begins w _ _ _ _ hdropped hcons hzero htried =>
      have hsame : { w.beginPlan.agent with cached := w.beginPlan.agent.current } =
          w.beginPlan.agent := w.agent_beginPlan_cached
      rw [hsame]
      exact .begins hdropped hcons hzero htried

end Agent.Renewed

namespace Turn

open Agent

variable {t u : Turn W M} {front : ActionRecord W M} {rest : List (ActionRecord W M)}

theorem action?_seedNotes (t : Turn W M) :
    ∀ run ∈ t.seedNotes.map (·.run), run.action? = none := by
  rw [seedNotes]
  split
  · exact List.forall_mem_nil _
  · exact List.forall_mem_singleton.mpr rfl

theorem action?_updateNotes (updaters : List (String × Handler W Unit)) (t : Turn W M) :
    ∀ run ∈ (t.updateNotes updaters).map (·.run), run.action? = none := by
  induction updaters generalizing t with
  | nil => exact List.forall_mem_nil _
  | cons updater rest ih =>
      obtain ⟨name, h⟩ := updater
      rw [updateNotes, List.map_cons]
      refine List.forall_mem_cons.mpr ⟨rfl, ?_⟩
      split
      · exact ih _
      · exact ih _

/-- Queueing a plan leaves the retries alone. -/
theorem retries_queuePlan (w : Turn W M) : w.queuePlan.agent.retries = w.agent.retries := by
  have hseeded : (if w.seeded then w else w.seedBlackboard).agent.retries = w.agent.retries := by
    split
    · rfl
    · exact (congrArg Agent.retries w.kept_seedBlackboard :)
  exact (congrArg Agent.retries (agent_enqueueFrom _ 0 _) :).trans hseeded

/-- **Beginning a plan** tries its first action. -/
theorem renewed_beginPlan {w : Turn W M} (hzero : w.agent.retries = 0) :
    w.agent.Renewed [] (w.beginNotes.map (·.run)) w.beginPlan.agent := by
  have hseed : ∀ run ∈ (if w.seeded then [] else w.seedNotes).map (·.run), run.action? = none := by
    split
    · exact List.forall_mem_nil _
    · exact w.action?_seedNotes
  have hnone := Renewed.filter_eq_nil hseed
  have hqueued : w.queuePlan.agent.retries = 0 := w.retries_queuePlan.trans hzero
  rw [beginNotes, List.map_append]
  cases hcons : w.queuePlan.agent.queue with
  | nil =>
      refine .idle ?_ ?_
      · rw [List.isEmpty_nil, if_pos rfl, List.map_nil, List.append_nil, hnone]
      · rw [beginPlan_eq_startOrFail, hcons]
        exact hcons
  | cons front rest =>
      have htried := tried_startOrFail hcons (hqueued ▸ zero_le_maxRetries _) .running
      rw [hqueued, w.continues_queuePlan.maxRetries] at htried
      have hbegin : w.beginPlan.agent = { (w.queuePlan.startOrFail .running).2.agent with
          planStart := (w.queuePlan.startOrFail .running).2.agent.current
          cached := (w.queuePlan.startOrFail .running).2.agent.current } := by
        rw [beginPlan_eq_startOrFail, hcons]
        rfl
      exact .begins hnone hcons hqueued (hbegin ▸ htried.depart)

/-- **Without a usable plan** the first action of another one may be tried. -/
theorem renewed_handleNoPlan (t : Turn W M) (hqueue : t.agent.queue = [])
    (hzero : t.agent.retries = 0) (reason : String) :
    t.agent.Renewed [] ((t.noPlanNotes reason).map (·.run)) (t.handleNoPlan reason).agent := by
  simp only [handleNoPlan, noPlanNotes]
  generalize hnoted : t.record .planFailed t.agent.describeGoal
    [("reason", reason), ("state", t.agent.describeState)] = u
  have hkept : u.agent.kept = t.agent.kept := hnoted ▸ rfl
  have hempty : u.agent.queue = [] := (congrArg Agent.queue hkept).trans hqueue
  have hnone : u.agent.retries = 0 := (congrArg Agent.retries hkept).trans hzero
  refine Renewed.of_kept_eq ?_ hkept
  cases u.agent.definition.bindings.noPlan with
  | none => exact .idle rfl hempty
  | some h =>
      simp only [List.map_cons]
      cases hcall : u.call h with
      | mk r v =>
          have hsame := kept_of_call hcall
          have hrest : v.agent.queue = [] := (congrArg Agent.queue hsame).trans hempty
          have hquiet : ∀ run ∈ [(u.note h (fun _ => (.noPlan : Run M))).run],
              run.action? = none := List.forall_mem_singleton.mpr rfl
          refine Renewed.prepend (Renewed.of_kept_eq ?_ hsame) hquiet
          cases r with
          | error e => exact .idle rfl hrest
          | ok again =>
              cases again with
              | false => exact .idle rfl hrest
              | true =>
                  simp only
                  generalize hagain : v.makePlan.mapAgent (·.markDirty) = w
                  have hsecond : w.agent.queue = [] := hagain ▸ hrest
                  have hcount : w.agent.retries = 0 :=
                    hagain ▸ (congrArg Agent.retries hsame).trans hnone
                  have hmax : w.agent.maxRetries = v.agent.maxRetries := hagain ▸ rfl
                  have hnothing : ([] : List (Run M)).filter (·.action?.isSome) = [] := rfl
                  refine Renewed.drop (b := w.agent) ?_ hsecond hmax hnothing
                  cases w.agent.plan.outcome with
                  | found => exact renewed_beginPlan hcount
                  | atGoal => exact .idle rfl hsecond
                  | notFound => exact .idle rfl hsecond
                  | truncated => exact .idle rfl hsecond

/-- **Planning** drops the plan, and tries the first action of another one. -/
theorem renewed_planAnew {a : Agent W M} {aborts earlier : List (Run M)} (t : Turn W M)
    (hmax : t.agent.maxRetries = a.maxRetries)
    (hdropped : earlier.filter (·.action?.isSome) = aborts) :
    a.Renewed aborts (earlier ++ t.planNotes.map (·.run)) t.planAnew.2.agent := by
  have hqueue := t.queue_freshPlan
  have hzero : t.freshPlan.agent.retries = 0 := rfl
  have hsame : t.freshPlan.agent.maxRetries = a.maxRetries := hmax
  rw [planAnew_eq, planNotes]
  generalize t.freshPlan = u at hqueue hzero hsame ⊢
  refine Renewed.drop (b := u.agent) ?_ hqueue hsame hdropped
  cases u.agent.plan.outcome with
  | atGoal => exact .idle rfl hqueue
  | found => exact renewed_beginPlan hzero
  | notFound => exact renewed_handleNoPlan u hqueue hzero _
  | truncated => exact renewed_handleNoPlan u hqueue hzero _

/-- **Choosing a goal** does so too, unless it fails. -/
theorem renewed_selectGoal (t : Turn W M) :
    t.agent.Renewed [] (t.selectNotes.map (·.run)) t.selectGoal.2.agent := by
  rw [selectGoal_eq, selectNotes]
  cases t.bindingFor t.agent.definition.bindings.goalSelectors with
  | none => exact renewed_planAnew t rfl (Renewed.filter_eq_nil (List.forall_mem_nil _))
  | some selector =>
      have hquiet : ∀ run ∈ [(t.note selector (fun _ => (.selectGoal : Run M))).run],
          run.action? = none := List.forall_mem_singleton.mpr rfl
      simp only [List.map_cons]
      cases selector.run t.context with
      | mk r c =>
          cases r with
          | error e => exact .stays hquiet rfl rfl
          | ok done =>
              have hmax : (t.choose c).agent.maxRetries = t.agent.maxRetries := by
                rw [choose]
                split
                · rfl
                · rfl
              exact renewed_planAnew (t.choose c) hmax (Renewed.filter_eq_nil hquiet)

/-! ## whole calls -/

/-- At rest the front is under way. -/
theorem isRunning_front (h : t.agent.AtRest) : ∀ r ∈ t.agent.queue.head?, r.isRunning = true :=
  fun r hr => (h.front r hr).2.1

/-- A front that is under way is aborted by its handler. -/
theorem runs_abortNotes (hrunning : ∀ r ∈ t.agent.queue.head?, r.isRunning = true)
    (reason : AbortReason) : (t.abortNotes reason).map (·.run) = t.agent.aborts reason := by
  rw [abortNotes, aborts]
  cases hcons : t.agent.queue with
  | nil => rfl
  | cons front rest =>
      have hfront : front.isRunning = true := hrunning front (by rw [hcons]; rfl)
      simp only [hfront, Bool.not_true, Bool.false_eq_true, if_false]
      rfl

/-- Runs that abort the front all serve an action. -/
theorem filter_aborts (a : Agent W M) (reason : AbortReason) :
    (a.aborts reason).filter (·.action?.isSome) = a.aborts reason := by
  rw [List.filter_eq_self, aborts]
  intro run hrun
  obtain ⟨front, -, rfl⟩ := List.mem_map.mp hrun
  rfl

/-- Seeding the blackboard and choosing a goal, which drops the plan unless it fails. -/
theorem renewed_launch (t : Turn W M) :
    t.agent.Renewed [] ((t.seedNotes ++ t.seedBlackboard.selectNotes).map (·.run))
      t.launch.2.agent := by
  rw [List.map_append]
  exact (t.seedBlackboard.renewed_selectGoal.of_kept_eq t.kept_seedBlackboard).prepend
    t.action?_seedNotes

/-- **The response** to what has changed. -/
theorem renewed_respond (h : t.agent.AtRest) (result : StepResult) (changed : UInt64)
    (hresult : result.goesOn = true ∨ t.agent.queue = []) :
    t.agent.Renewed (t.agent.aborts .worldStateChanged)
      ((t.respondNotes result changed).map (·.run)) (t.respond result changed).2.agent := by
  have hrunning := isRunning_front h
  have hselect (hqueue : t.agent.queue = []) :
      t.agent.Renewed (t.agent.aborts .worldStateChanged) (t.selectNotes.map (·.run))
        t.selectGoal.2.agent := by
    rw [aborts, hqueue]
    exact t.renewed_selectGoal
  have hstays : t.agent.Renewed (t.agent.aborts .worldStateChanged) [] t.agent :=
    .stays (List.forall_mem_nil _) rfl rfl
  simp only [respond, respondNotes]
  split
  · have hmax := (t.continues_abortFront .worldStateChanged).maxRetries
    rw [List.map_append, runs_abortNotes hrunning]
    exact (renewed_selectGoal _).drop rfl hmax (filter_aborts _ _)
  · cases result with
    | needsPlan => exact hselect (hresult.resolve_left Bool.false_ne_true)
    | retriesExhausted => exact hselect (hresult.resolve_left Bool.false_ne_true)
    | running => exact hstays
    | succeeded => exact hstays
    | retrying => exact hstays

/-- **A tick** steps the front, and the plan stays or gives way to another one. -/
theorem serves_step {n : Nat} (h : t.agent.AtRest) (hle : t.agent.retries ≤ t.agent.maxRetries)
    (hn : t.agent.queue ≠ [] → n = t.agent.retries.toNat + 1) : t.Serves n .step := by
  have hrunning := isRunning_front h
  have hkept := t.stepFront.2.kept_refresh (t.agent.current.changed t.agent.cached)
  have hrest := (atRest_stepFront h).of_kept_eq hkept
  have hgoes := goesOn_stepFront t
  rw [← t.stepFront.2.queue_refresh (t.agent.current.changed t.agent.cached)] at hgoes
  have hrespond := renewed_respond hrest t.stepFront.1
    (t.stepFront.2.refresh (t.agent.current.changed t.agent.cached)).1 hgoes
  have haborts : (t.stepFront.2.refresh (t.agent.current.changed t.agent.cached)).2.agent.aborts
      .worldStateChanged = t.stepFront.2.agent.aborts .worldStateChanged := by
    rw [aborts, queue_refresh, aborts]
  rw [haborts] at hrespond
  have hbehind := (hrespond.of_kept_eq hkept).prepend
    (action?_updateNotes t.stepFront.2.agent.definition.bindings.updaters t.stepFront.2)
  refine ⟨_, _, ?_, stepped_stepFront hrunning hle hn, hbehind.remember⟩
  rw [journal_step, List.map_append, List.map_append, List.append_assoc]

/-- **Every call serves the front** so, if it finds the starts of the front counted. -/
theorem serves_journal {n : Nat} (h : t.agent.AtRest)
    (hle : t.agent.retries ≤ t.agent.maxRetries)
    (hn : t.agent.queue ≠ [] → n = t.agent.retries.toNat + 1) (call : Call) : t.Serves n call := by
  have hrunning := isRunning_front h
  cases call with
  | step => exact serves_step h hle hn
  | launch =>
      rw [Serves, journal_eq]
      exact t.renewed_launch
  | replan =>
      rw [Serves, journal_eq, notesOf, List.map_append, runs_abortNotes hrunning]
      exact renewed_planAnew _ (t.continues_abortFront .replan).maxRetries (filter_aborts _ _)
  | replanTo goal merge =>
      have hopened : ∀ r ∈ (t.changeGoal goal merge).agent.queue.head?, r.isRunning = true :=
        hrunning
      have hmax := ((t.changeGoal goal merge).continues_abortFront .replan).maxRetries
      rw [Serves, journal_eq, notesOf, List.map_append, runs_abortNotes hopened]
      exact renewed_planAnew _ hmax (filter_aborts _ _)
  | interrupt =>
      have hopened : ∀ r ∈ t.noteInterrupt.agent.queue.head?, r.isRunning = true := hrunning
      have hmax := (t.noteInterrupt.continues_abortFront .interrupt).maxRetries
      rw [Serves, journal_eq, notesOf, List.map_append, runs_abortNotes hopened]
      exact (renewed_launch _).drop rfl hmax (filter_aborts _ _)

end Turn

/-! ## whole runs -/

/-- **The bound on retries is exact.**  No more retries are counted than there may be, at no moment
of any call, and after a call the front has been started once more than retries are counted.  In
every call what fails is started again at once, until it is under way or has been started once more
than there may be retries; only then does it leave the queue for its failure, and all of the queue
leaves with it.  Every record that comes to the front finds no retries counted.  And the loop that
tries the front again ends. -/
theorem Chronicle.retries_exact {events : List (Event W M)} {a : Agent W M}
    (h : Chronicle events a) :
    a.retries ≤ a.maxRetries ∧
    (a.queue ≠ [] → starts events = a.retries.toNat + 1) ∧
    (∀ (t : Turn W M) (call : Call), t.agent = a →
      t.Serves (starts events) call ∧
      (t.opening call).agent.Does (t.journal call) (t.after call).agent ∧
      ∀ (during : List (Event W M)) (b : Agent W M), (t.opening call).agent.Moves during b →
        b.retries ≤ a.maxRetries ∧
        ∀ (told : List (Event W M)) (c : Agent W M), b.Move told c → c.queue ≠ [] →
          c.queue.map ActionRecord.place ≠ b.queue.map ActionRecord.place →
            told = [.newFront] ∧ c.retries = 0) ∧
    (∀ (t : Turn W M) (front : ActionRecord W M) (rest : List (ActionRecord W M)),
      t.agent.queue = front :: rest → t.failFront =
        if t.agent.maxRetries ≤ t.agent.retries then (.retriesExhausted, t.giveUpFront front.name)
        else match t.countRetry.startFront with
          | (true, u) => (.retrying, u)
          | (false, u) => u.failFront) ∧
    WellFounded (Turn.RetriedAs (W := W) (M := M)) := by
  have hcounted := h.counted
  have hrest := h.reachable.atRest
  have hstarts : a.queue ≠ [] → starts events = a.retries.toNat + 1 := by
    intro hqueue
    obtain ⟨front, rest, hcons⟩ := List.exists_cons_of_ne_nil hqueue
    have hrunning := (hrest.front front (by rw [hcons]; rfl)).2.1
    have hfront := hcounted.front_eq hcons
    rwa [if_neg (ActionRecord.phase_ne_created_of_isRunning hrunning)] at hfront
  refine ⟨hcounted.le, hstarts, ?_, fun t front rest hcons => Turn.failFront_eq_loop hcons,
    Turn.wellFounded_retriedAs⟩
  rintro t call rfl
  refine ⟨Turn.serves_journal hrest hcounted.le hstarts call, Turn.does_after hrest call, ?_⟩
  intro during b hmoves
  have hb := hmoves.counted (hcounted.opening call)
  have hmax : b.maxRetries = t.agent.maxRetries := by
    rw [hmoves.continues.maxRetries, Turn.maxRetries_opening]
  exact ⟨hmax ▸ hb.le, fun told c hmove => hmove.of_front_ne⟩

namespace Agent

/-! ## a clumsy traveller -/

/-- The behaviour of an action that fails whenever it is resumed. -/
def clumsy : ActionHandlers Unit Bool where
  fresh := false
  resume _ := .done (.returned .failure)

/-- The river with behaviour that fails. -/
def clumsyDefinition : Definition Unit Bool :=
  { riverDefinition with
    bindings := { actions := .ofList (["build_raft", "row", "walk_home"].map (·, clumsy)) } }

/-- A clumsy traveller who has set to work. -/
def clumsyBeginner : Agent Unit Bool :=
  (idleTurn (ofDefinition "traveller" clumsyDefinition {}).loadDefinition.2).launch.2.agent

/-- The traveller after three ticks, in each of which the work has failed. -/
def clumsyTraveller : Agent Unit Bool :=
  (idleTurn (idleTurn (idleTurn clumsyBeginner).step.2.agent).step.2.agent).step.2.agent

theorem reachable_clumsyTraveller : clumsyTraveller.Reachable := by
  rw [clumsyTraveller, clumsyBeginner]
  exact (Reachable.ofDefinition _ _ _).loadDefinition.launch_idle.step_idle.step_idle.step_idle

/-- The clumsy traveller has started the work on the raft four times, and when it fails once more
the plan is dropped. -/
theorem retries_exact_clumsyTraveller :
    ∃ events, Chronicle events clumsyTraveller ∧ clumsyTraveller.retries = 3 ∧
      starts events = 4 ∧ (idleTurn clumsyTraveller).Serves 4 .step ∧
      (idleTurn clumsyTraveller).stepFront.2.agent.queue = [] ∧
      (idleTurn clumsyTraveller).stepFront.2.agent.dirty = true := by
  obtain ⟨events, h⟩ := Chronicle.exists_of_reachable reachable_clumsyTraveller
  have hqueue : clumsyTraveller.queue ≠ [] := by
    rw [← List.isEmpty_eq_false_iff]
    decide +kernel
  have hretries : clumsyTraveller.retries = 3 := by decide +kernel
  have hstarts : starts events = 4 := by rw [h.retries_exact.2.1 hqueue, hretries]; rfl
  have hagent (a : Agent Unit Bool) : (idleTurn a).agent = a := rfl
  have hserves := (h.retries_exact.2.2.1 (idleTurn clumsyTraveller) .step (hagent _)).1
  rw [hstarts] at hserves
  refine ⟨events, h, hretries, hstarts, hserves, ?_, by decide +kernel⟩
  rw [← List.isEmpty_iff]
  decide +kernel

end Agent

end PlanningAgents
