import PlanningAgents.Proofs.Agent.Reachable
import PlanningAgents.Proofs.Planner.Soundness

/-!
# PlanningAgents.Proofs.Agent.Course

How the queue of an agent follows its plan while a call is under way.  The queue holds the records
of the last actions of the plan, as far as they have handlers, and only its front may have been
touched (`Agent.OnCourse`).  This is kept by every part of a call, since all that a part does to the
queue is to change its front, to drop its front or to drop it all.  Between the parts the front is
under way as well (`Agent.AtRest`).

Main statements:

* `Agent.OnCourse.of_kept_eq` — handlers and notes leave the queue on course;
* `Turn.onCourse_startFront` — starting the front, which may fail, leaves the queue on course;
* `Turn.atRest_failFront`, `Turn.atRest_completeFront`, `Turn.atRest_stepFront` — a step of the
  front leaves the agent at rest.
-/

namespace PlanningAgents

variable {W M α : Type}

namespace Agent

/-- The actions of the plan that have handlers, each with its place in the plan. -/
def steps (a : Agent W M) : List (String × Nat) :=
  a.plan.actions.zipIdx.filter fun place => a.definition.bindings.actions[place.1]?.isSome

/-- A record carries what its name stands for: the handlers that are bound to it, and the effects of
the action. -/
def Describes (a : Agent W M) (r : ActionRecord W M) : Prop :=
  a.definition.bindings.actions[r.name]? = some r.handlers ∧
    ∃ x, a.planner.action? r.name = some x ∧ x.post = r.post

/-- The queue follows the plan, while the front of the queue may be in any phase. -/
structure OnCourse (a : Agent W M) : Prop where
  built : a.planner.Built
  /-- The plan is made of the planner's actions. -/
  known : ∀ name ∈ a.plan.actions, ∃ x, a.planner.action? name = some x
  index_le : a.actionIndex ≤ a.plan.length
  usable : a.dirty = false → a.plan.outcome = .found
  found : a.queue ≠ [] → a.plan.outcome = .found
  /-- The queue holds the last steps of the plan. -/
  suffix : a.queue.map ActionRecord.place <:+ a.steps
  describes : ∀ r ∈ a.queue, a.Describes r
  /-- Behind the front nothing has been started. -/
  waiting : ∀ r ∈ a.queue.tail, r.phase = .created ∧ r.task = none

/-- The queue follows the plan, and its front is under way. -/
structure AtRest (a : Agent W M) : Prop extends OnCourse a where
  front : ∀ r ∈ a.queue.head?, a.actionIndex = r.planIndex ∧ r.isRunning = true ∧
    (r.task.isSome ↔ r.phase = .suspended)

variable {a b : Agent W M}

/-- **With nothing in its queue** an agent is at rest, if its plan is in order. -/
theorem atRest_of_queue_eq_nil (hqueue : a.queue = []) (hbuilt : a.planner.Built)
    (hknown : ∀ name ∈ a.plan.actions, ∃ x, a.planner.action? name = some x)
    (hindex : a.actionIndex ≤ a.plan.length)
    (husable : a.dirty = false → a.plan.outcome = .found) : a.AtRest := by
  refine ⟨⟨hbuilt, hknown, hindex, husable, fun hne => absurd hqueue hne, ?_, ?_, ?_⟩, ?_⟩
  · rw [hqueue]
    exact List.nil_suffix
  · simp [hqueue]
  · simp [hqueue]
  · simp [hqueue]

namespace OnCourse

/-- On course with nothing in its queue, an agent is at rest. -/
theorem atRest (h : a.OnCourse) (hqueue : a.queue = []) : a.AtRest :=
  atRest_of_queue_eq_nil hqueue h.built h.known h.index_le h.usable

/-- Handlers and notes leave the queue on course. -/
theorem of_kept_eq (h : a.OnCourse) (hkept : b.kept = a.kept) : b.OnCourse := by
  rw [eq_of_kept_eq hkept]
  exact { h with built := h.built.withAtoms _ }

/-- A queued action is one of the plan. -/
theorem planIndex_lt (h : a.OnCourse) {r : ActionRecord W M} (hr : r ∈ a.queue) :
    r.planIndex < a.plan.length := by
  have hmem : r.place ∈ a.steps := h.suffix.subset (List.mem_map_of_mem hr)
  have hplan := (List.mem_zipIdx (List.mem_of_mem_filter hmem)).2.1
  simpa [ActionRecord.place, Plan.length] using hplan

/-- Changing the front otherwise than by what it stands for leaves the queue on course. -/
theorem modifyHead (h : a.OnCourse) {f : ActionRecord W M → ActionRecord W M}
    (hplace : ∀ r, (f r).place = r.place) (hdescribes : ∀ r, a.Describes r → a.Describes (f r)) :
    OnCourse { a with queue := a.queue.modifyHead f } := by
  obtain ⟨hbuilt, hknown, hindex, husable, hfound, hsuffix, hall, hwaiting⟩ := h
  cases hqueue : a.queue with
  | nil => exact ⟨hbuilt, hknown, hindex, husable, by simp, by simp, by simp, by simp⟩
  | cons r rest =>
      rw [hqueue] at hfound hsuffix hall hwaiting
      refine ⟨hbuilt, hknown, hindex, husable, fun _ => hfound (List.cons_ne_nil _ _), ?_, ?_, ?_⟩
      · show (f r :: rest).map ActionRecord.place <:+ a.steps
        rw [List.map_cons, hplace]
        exact hsuffix
      · intro x hx
        obtain rfl | hx := List.mem_cons.mp hx
        · exact hdescribes r (hall r List.mem_cons_self)
        · exact hall x (List.mem_cons_of_mem _ hx)
      · exact hwaiting

/-- Any place within the plan may count as the current one. -/
theorem setIndex (h : a.OnCourse) {i : Nat} (hi : i ≤ a.plan.length) :
    OnCourse { a with actionIndex := i } :=
  { h with index_le := hi }

/-- Dropping the front leaves the queue on course. -/
theorem tail (h : a.OnCourse) {i : Nat} (hi : i ≤ a.plan.length) (retries : UInt32) :
    OnCourse { a with queue := a.queue.tail, retries, actionIndex := i } := by
  refine { h with index_le := hi, found := ?_, suffix := ?_, describes := ?_, waiting := ?_ }
  · intro htail
    exact h.found (List.ne_nil_of_tail_ne_nil htail)
  · show a.queue.tail.map ActionRecord.place <:+ a.steps
    rw [List.map_tail]
    exact (List.tail_suffix _).trans h.suffix
  · intro r hr
    exact h.describes r (List.mem_of_mem_tail hr)
  · intro r hr
    exact h.waiting r (List.mem_of_mem_tail hr)

end OnCourse

/-- Handlers and notes leave an agent at rest. -/
theorem AtRest.of_kept_eq (h : a.AtRest) (hkept : b.kept = a.kept) : b.AtRest := by
  have hcourse := h.toOnCourse.of_kept_eq hkept
  rw [eq_of_kept_eq hkept] at hcourse ⊢
  exact ⟨hcourse, h.front⟩

end Agent

namespace Turn

variable {t t' : Turn W M} {front : ActionRecord W M} {rest : List (ActionRecord W M)}

/-- Changing the phase and the task of the front leaves the queue on course. -/
theorem onCourse_mapFront (h : t.agent.OnCourse) (task : ActionRecord W M → Option M)
    (phase : ActionRecord W M → ActionPhase) :
    (t.mapFront fun r => { r with task := task r, phase := phase r }).agent.OnCourse :=
  h.modifyHead (fun _ => rfl) fun _ hr => hr

theorem queue_mapFront (h : t.agent.queue = front :: rest)
    (f : ActionRecord W M → ActionRecord W M) : (t.mapFront f).agent.queue = f front :: rest := by
  simp [mapFront, mapAgent, h]

/-- A front that is put under way, with a task just where it is suspended, leaves the agent at
rest. -/
theorem atRest_mapFront (h : t.agent.OnCourse) (hcons : t.agent.queue = front :: rest)
    (hindex : t.agent.actionIndex = front.planIndex) {task : ActionRecord W M → Option M}
    {phase : ActionRecord W M → ActionPhase}
    (hphase : phase front = .running ∨ phase front = .suspended)
    (htask : (task front).isSome ↔ phase front = .suspended) :
    (t.mapFront fun r => { r with task := task r, phase := phase r }).agent.AtRest := by
  refine ⟨onCourse_mapFront h task phase, fun r hr => ?_⟩
  rw [queue_mapFront hcons, List.head?_cons, Option.mem_some_iff] at hr
  subst hr
  exact ⟨hindex, by simpa [ActionRecord.isRunning] using hphase, htask⟩

/-! ## starting the front -/

theorem onCourse_readyFront (h : t.agent.OnCourse) (hcons : t.agent.queue = front :: rest) :
    (t.readyFront front).agent.OnCourse := by
  have hmem : front ∈ t.agent.queue := hcons ▸ List.mem_cons_self
  have hfront : (t.mapFront ({ · with task := none, phase := .created })).agent.OnCourse :=
    onCourse_mapFront h _ _
  exact (hfront.setIndex (Nat.le_of_lt (h.planIndex_lt hmem))).of_kept_eq rfl

theorem queue_readyFront (hcons : t.agent.queue = front :: rest) :
    (t.readyFront front).agent.queue =
      { front with task := none, phase := .created } :: rest :=
  queue_mapFront hcons _

/-- **Starting the front** leaves the queue on course, and the agent at rest where it succeeds. -/
theorem onCourse_startFront (h : t.agent.OnCourse) (hqueue : t.agent.queue ≠ []) {started : Bool}
    (hstart : t.startFront = (started, t')) :
    t'.agent.OnCourse ∧ t'.agent.queue ≠ [] ∧ (started = true → t'.agent.AtRest) := by
  obtain ⟨front, rest, hcons⟩ := List.exists_cons_of_ne_nil hqueue
  rw [startFront_eq hcons] at hstart
  cases hcall : (t.readyFront front).call front.handlers.start with
  | mk r u =>
      have hkept := kept_of_call hcall
      have hu : u.agent.OnCourse := (onCourse_readyFront h hcons).of_kept_eq hkept
      have hready : u.agent.queue = { front with task := none, phase := .created } :: rest :=
        (congrArg Agent.queue hkept).trans (queue_readyFront hcons)
      have hindex : u.agent.actionIndex = front.planIndex := congrArg Agent.actionIndex hkept
      rw [hcall] at hstart
      cases r with
      | ok done =>
          obtain ⟨rfl, rfl⟩ := Prod.mk.inj hstart
          have hrest : (u.mapFront ({ · with phase := .running })).agent.AtRest :=
            atRest_mapFront hu hready hindex (.inl rfl) (by simp)
          have hrunning := queue_mapFront hready ({ · with phase := .running })
          exact ⟨hrest.toOnCourse, ne_of_eq_of_ne hrunning (List.cons_ne_nil _ _), fun _ => hrest⟩
      | error e =>
          obtain ⟨rfl, rfl⟩ := Prod.mk.inj hstart
          have hcourse : (u.mapFront ({ · with phase := .failed })).agent.OnCourse :=
            onCourse_mapFront hu _ _
          have hfailed := queue_mapFront hready ({ · with phase := .failed })
          exact ⟨hcourse.of_kept_eq rfl, ne_of_eq_of_ne hfailed (List.cons_ne_nil _ _), nofun⟩

/-! ## failure and success of the front -/

/-- Dropping what is queued leaves the agent at rest. -/
theorem atRest_dropQueue (h : t.agent.OnCourse) : t.dropQueue.agent.AtRest :=
  Agent.atRest_of_queue_eq_nil rfl h.built h.known h.index_le nofun

/-- Giving up the front leaves the agent at rest. -/
theorem atRest_giveUpFront (h : t.agent.OnCourse) (name : String) :
    (t.giveUpFront name).agent.AtRest := by
  have hfront : (t.mapFront ({ · with task := none, phase := .failed })).agent.OnCourse :=
    onCourse_mapFront h _ _
  exact atRest_dropQueue (hfront.of_kept_eq rfl)

/-- However often the front fails to start, it ends under way or dropped. -/
theorem atRest_retryFront (name : String) (left : Nat) (h : t.agent.OnCourse)
    (hqueue : t.agent.queue ≠ []) : (retryFront name left t).2.agent.AtRest := by
  induction left generalizing t with
  | zero => exact atRest_giveUpFront h name
  | succ left ih =>
      obtain ⟨front, rest, hcons⟩ := List.exists_cons_of_ne_nil hqueue
      have hfront : (t.mapFront ({ · with task := none })).agent.OnCourse := onCourse_mapFront h _ _
      have hcourse : ((t.mapFront ({ · with task := none })).mapAgent fun a =>
          { a with retries := a.retries + 1 }).agent.OnCourse := { hfront with }
      have hne := ne_of_eq_of_ne (queue_mapFront hcons ({ · with task := none }))
        (List.cons_ne_nil _ _)
      rw [retryFront]
      split
      · next u hstart => exact (onCourse_startFront hcourse hne hstart).2.2 rfl
      · next u hstart =>
          obtain ⟨hu, hagain, -⟩ := onCourse_startFront hcourse hne hstart
          exact ih hu hagain

/-- **After a failure** the front is under way again, or the queue is dropped. -/
theorem atRest_failFront (h : t.agent.OnCourse) : t.failFront.2.agent.AtRest := by
  rw [failFront]
  split
  · next hnil => exact h.atRest hnil
  · next front rest hcons => exact atRest_retryFront _ _ h (hcons ▸ List.cons_ne_nil _ _)

theorem queue_popFront (hcons : t.agent.queue = front :: rest) :
    (t.popFront front rest).agent.queue = rest :=
  congrArg List.tail (queue_mapFront hcons _)

/-- The action behind the front is one of the plan, and so is the end of the plan. -/
theorem nextIndex_le (h : t.agent.OnCourse) (hcons : t.agent.queue = front :: rest) :
    (rest.head?.map (·.planIndex)).getD t.agent.plan.length ≤ t.agent.plan.length := by
  cases rest with
  | nil => exact Nat.le_refl _
  | cons next rest =>
      have hmem : next ∈ t.agent.queue := hcons ▸ List.mem_cons_of_mem _ List.mem_cons_self
      exact Nat.le_of_lt (h.planIndex_lt hmem)

theorem onCourse_popFront (h : t.agent.OnCourse) (hcons : t.agent.queue = front :: rest) :
    (t.popFront front rest).agent.OnCourse := by
  have hfront : (t.mapFront ({ · with phase := .succeeded, task := none })).agent.OnCourse :=
    onCourse_mapFront h _ _
  have hindex := nextIndex_le h hcons
  exact (hfront.tail hindex 0).of_kept_eq rfl

/-- **After a success** the next action is under way, or nothing is left in the queue. -/
theorem atRest_completeFront (h : t.agent.OnCourse) : t.completeFront.2.agent.AtRest := by
  cases hcons : t.agent.queue with
  | nil =>
      rw [completeFront, hcons]
      exact h.atRest hcons
  | cons front rest =>
      have hpop := onCourse_popFront h hcons
      have hqueue := queue_popFront hcons
      rw [completeFront_eq hcons]
      split
      · next hempty => exact hpop.atRest (hqueue.trans (List.isEmpty_iff.mp hempty))
      · next hne =>
          rw [List.isEmpty_iff, ← hqueue] at hne
          split
          · next u hstart => exact (onCourse_startFront hpop hne hstart).2.2 rfl
          · next u hstart => exact atRest_failFront (onCourse_startFront hpop hne hstart).1

/-- **A step of the front** leaves the agent at rest. -/
theorem atRest_stepFront (h : t.agent.AtRest) : t.stepFront.2.agent.AtRest := by
  cases hcons : t.agent.queue with
  | nil =>
      rw [stepFront, hcons]
      exact h
  | cons front rest =>
      obtain ⟨hindex, hrunning, -⟩ := h.front front (by rw [hcons]; rfl)
      have hfront : (t.mapFront ({ · with task := none })).agent.OnCourse :=
        onCourse_mapFront h.toOnCourse _ _
      have hqueue := queue_mapFront hcons ({ · with task := none })
      simp only [stepFront, hcons, hrunning, Bool.not_true, Bool.false_eq_true, if_false]
      cases hcall : (t.mapFront ({ · with task := none })).call
          (front.handlers.resume (front.task.getD front.handlers.fresh)) with
      | mk r u =>
          have hkept := kept_of_call hcall
          have hu : u.agent.OnCourse := hfront.of_kept_eq hkept
          have hresumed := (congrArg Agent.queue hkept).trans hqueue
          have hplace : u.agent.actionIndex = front.planIndex :=
            (congrArg Agent.actionIndex hkept).trans hindex
          cases r with
          | error e => exact atRest_failFront (hu.of_kept_eq rfl)
          | ok progress =>
              cases progress with
              | yielded memory => exact atRest_mapFront hu hresumed hplace (.inr rfl) (by simp)
              | returned status =>
                  cases status with
                  | running => exact atRest_mapFront hu hresumed hplace (.inl rfl) (by simp)
                  | success => exact atRest_completeFront hu
                  | failure => exact atRest_failFront (hu.of_kept_eq rfl)

/-- Aborting the front leaves the queue on course. -/
theorem onCourse_abortFront (h : t.agent.OnCourse) (reason : AbortReason) :
    (t.abortFront reason).agent.OnCourse := by
  rw [abortFront]
  split
  · exact h
  · split
    · exact h
    · have hfront : (t.mapFront ({ · with phase := .aborted, task := none })).agent.OnCourse :=
        onCourse_mapFront h _ _
      exact hfront.of_kept_eq rfl

end Turn

end PlanningAgents
