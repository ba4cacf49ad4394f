import PlanningAgents.CommandLine.Commands
import PlanningAgents.Proofs.Agent.Refinement

/-!
# PlanningAgents.Proofs.Agent.Timing

Plans in time.  Where every action takes the same number of ticks and then succeeds, it is settled
what an agent does in every tick.  The action under way is worked at until its ticks are over; in
the tick after that it ends, and the next one is started.  Once all actions of the plan are done the
goal is met, and nothing is started any more.

So after any number of ticks one knows how many actions are done, for how many ticks the next one
has been worked at, and which actions have been started (`Agent.Worked`).

Main statements:

* `Definition.Timed` — every action takes the same number of ticks, and nothing else has handlers;
* `Agent.Clocked` — how far an agent has come with its plan;
* `Turn.worked_launch`, `Turn.worked_step` — the beginning of a plan, and every tick;
* `Agent.Worked.progress` — how far an agent has come after any number of ticks;
* `Agent.Worked.finished` — what an agent has done when the ticks are enough for its plan.
-/

namespace PlanningAgents

open CommandLine

variable {W M : Type}

/-! ## what is started -/

/-- The action that a handler starts. -/
def Note.started? (n : Note W M) : Option String :=
  match n.run with
  | .start action _ => some action
  | _ => none

/-- The actions that handlers start, in order. -/
def started (notes : List (Note W M)) : List String := notes.filterMap Note.started?

/-- A found plan has actions. -/
theorem Plan.actions_ne_nil_of_found {plan : Plan} (h : plan.outcome = .found) :
    plan.actions ≠ [] := by
  intro hnil
  rw [Plan.outcome, hnil] at h
  split at h
  · cases h
  · cases h

/-! ## actions that take their time -/

/-- **Every action takes the same number of ticks**, and nothing else has handlers. -/
structure Definition.Timed (ticks : Nat) (d : Definition Void Nat) : Prop where
  actions {name : String} {h : ActionHandlers Void Nat}
    (hbound : d.bindings.actions[name]? = some h) : h = timedAction ticks
  goalSelectors : d.bindings.goalSelectors = .empty
  updaters : d.bindings.updaters = []
  blackboardInit : d.bindings.blackboardInit = .empty
  noPlan : d.bindings.noPlan = none

namespace Definition

variable {d : Definition Void Nat} {ticks : Nat}

/-- Binding an action that takes its time. -/
theorem Timed.withAction (h : d.Timed ticks) (name : String) :
    (d.withAction name (timedAction ticks)).Timed ticks where
  actions {name' x} hbound := by
    rw [Definition.withAction, SortedMap.getElem?_insert] at hbound
    split at hbound
    · exact (Option.some.inj hbound).symm
    · exact h.actions hbound
  goalSelectors := h.goalSelectors
  updaters := h.updaters
  blackboardInit := h.blackboardInit
  noPlan := h.noPlan

/-- Binding actions one after the other binds all of them, and leaves the data alone. -/
theorem Timed.foldl_withAction (h : d.Timed ticks) (specs : List ActionSpec) :
    let bound := specs.foldl (fun d a => d.withAction a.name (timedAction ticks)) d
    bound.Timed ticks ∧ bound.data = d.data ∧
      ∀ name, d.bindings.actions[name]?.isSome = true ∨ name ∈ specs.map (·.name) →
        bound.bindings.actions[name]?.isSome = true := by
  induction specs generalizing d with
  | nil => exact ⟨h, rfl, fun name hname => hname.resolve_right List.not_mem_nil⟩
  | cons spec rest ih =>
      obtain ⟨htimed, hdata, hbound⟩ := ih (h.withAction spec.name)
      refine ⟨htimed, hdata, fun name hname => hbound name ?_⟩
      rw [Definition.withAction, SortedMap.getElem?_insert]
      by_cases hname' : name = spec.name
      · rw [if_pos hname']
        exact .inl rfl
      · rw [if_neg hname']
        refine hname.imp_right fun hmem => ?_
        exact (List.mem_cons.mp hmem).resolve_left hname'

/-- **In the definition for a simulation** every action takes the same number of ticks. -/
theorem timed_timedDefinition (data : DefinitionData) (ticks : Nat) :
    (timedDefinition data ticks).Timed ticks ∧ (timedDefinition data ticks).data = data ∧
      ∀ name ∈ data.actions.map (·.name),
        (timedDefinition data ticks).bindings.actions[name]?.isSome = true := by
  have hblank : ({ data } : Definition Void Nat).Timed ticks :=
    ⟨fun hbound => (nomatch hbound), rfl, rfl, rfl, rfl⟩
  obtain ⟨htimed, hdata, hbound⟩ := hblank.foldl_withAction data.actions
  exact ⟨htimed, hdata, fun name hname => hbound name (.inr hname)⟩

end Definition

/-! ## how far an agent has come -/

namespace Agent

/-- **An agent goes by its plan**, of which `done` actions are finished, in actions that take their
time. -/
structure Paced (planned : Agent Void Nat) (ticks done : Nat) (a : Agent Void Nat) : Prop where
  track : planned.OnTrack done a
  handlers (r : ActionRecord Void Nat) (hr : r ∈ a.queue) : r.handlers = timedAction ticks
  definition : a.definition.Timed ticks

/-- **How far an agent has come**: `done` actions of the plan are finished, and the next one is
under way and has been worked at for `spent` ticks. -/
structure Clocked (planned : Agent Void Nat) (ticks done spent : Nat) (a : Agent Void Nat) : Prop
    extends Paced planned ticks done a where
  front (r : ActionRecord Void Nat) (hr : r ∈ a.queue.head?) :
    r.isRunning = true ∧ r.task.getD ticks + spent = ticks
  cached : a.cached = a.current

variable {planned a b : Agent Void Nat} {ticks done total : Nat} {names : List String}

/-- With nothing queued all actions of the plan are done. -/
theorem OnTrack.length_le {planned a : Agent W M} {k : Nat} (h : planned.OnTrack k a)
    (hqueue : a.queue = []) : planned.plan.length ≤ k := by
  have hdone := h.queue
  rw [hqueue, deedsFrom, List.map_nil, eq_comm, List.map_eq_nil_iff, List.drop_eq_nil_iff] at hdone
  exact hdone

theorem Paced.of_eq (h : planned.Paced ticks done a) (hcurrent : b.current = a.current)
    (hgoal : b.goal = a.goal) (hqueue : b.queue = a.queue)
    (hdefinition : b.definition = a.definition) : planned.Paced ticks done b where
  track := h.track.of_eq hcurrent hgoal (by rw [hqueue])
  handlers r hr := h.handlers r (hqueue ▸ hr)
  definition := hdefinition ▸ h.definition

/-- **An agent has worked** at what has been planned for a number of ticks, and has started these
actions: those that are done, and the one that is under way. -/
def Worked (planned : Agent Void Nat) (ticks total : Nat) (names : List String)
    (a : Agent Void Nat) : Prop :=
  ∃ done spent, planned.Clocked ticks done spent a ∧
    names = planned.plan.actions.take (done + 1) ∧
    (a.queue ≠ [] → total = done * (ticks + 1) + spent) ∧
    (a.queue = [] → planned.plan.length * (ticks + 1) ≤ total)

/-- The last state of a plan is the one that is expected when all of its actions are done. -/
theorem PlanReady.expected_length {planned : Agent W M} (h : planned.PlanReady) :
    planned.expected planned.plan.length = planned.plan.states.getLast? := by
  have hlength := h.solves.length_states
  have hnonempty : planned.plan.states ≠ [] := by
    rw [← List.length_pos_iff, hlength]
    exact List.length_pos_iff.mpr (Plan.actions_ne_nil_of_found h.found)
  obtain ⟨init, last, hstates⟩ := (List.eq_nil_or_concat _).resolve_left hnonempty
  rw [expected, ← hlength, hstates]
  simp

/-- **After any number of ticks** it is known how many actions are done, as long as there are any,
and which ones have been started. -/
theorem Worked.progress (hready : planned.PlanReady) (h : planned.Worked ticks total names a) :
    planned.expected (min (total / (ticks + 1)) planned.plan.length) = some a.current ∧
      a.goal = planned.goal ∧ names = planned.plan.actions.take (total / (ticks + 1) + 1) := by
  obtain ⟨done, spent, hclocked, rfl, hbusy, hidle⟩ := h
  have hcurrent := hclocked.track.current
  have hgoal := hclocked.track.goal
  by_cases hqueue : a.queue = []
  · have hdone := hclocked.track.length_le hqueue
    have henough : planned.plan.length ≤ total / (ticks + 1) :=
      (Nat.le_div_iff_mul_le (Nat.succ_pos ticks)).mpr (hidle hqueue)
    have hlt := (List.getElem?_eq_some_iff.mp hcurrent).1
    rw [List.length_cons, hready.solves.length_states] at hlt
    have hall : done = planned.plan.length := Nat.le_antisymm (Nat.le_of_lt_succ hlt) hdone
    rw [Nat.min_eq_right henough, ← hall]
    refine ⟨hcurrent, hgoal, ?_⟩
    rw [List.take_of_length_le (Nat.le_succ_of_le hdone),
      List.take_of_length_le (Nat.le_succ_of_le henough)]
  · obtain ⟨front, rest, hcons⟩ := List.exists_cons_of_ne_nil hqueue
    have hfront := (hclocked.front front (by simp [hcons])).2
    have hnext : done < planned.plan.length :=
      (List.getElem?_eq_some_iff.mp (hclocked.track.next hcons).1).1
    have hspent : spent < ticks + 1 := by omega
    have hdone : total / (ticks + 1) = done := by
      rw [hbusy hqueue, Nat.add_comm, Nat.add_mul_div_right _ _ (Nat.succ_pos ticks),
        Nat.div_eq_of_lt hspent, Nat.zero_add]
    rw [hdone, Nat.min_eq_left (Nat.le_of_lt hnext)]
    exact ⟨hcurrent, hgoal, rfl⟩

/-- **When the ticks are enough for its plan** an agent has carried it out: its state is the last
one that the plan expects, its goal is met, and it has started the actions of the plan, in order
and each of them once. -/
theorem Worked.finished (hready : planned.PlanReady) (h : planned.Worked ticks total names a)
    (henough : planned.plan.length * (ticks + 1) ≤ total) :
    planned.plan.states.getLast? = some a.current ∧ a.goal = planned.goal ∧
      a.current.meets a.goal = true ∧ names = planned.plan.actions := by
  obtain ⟨hexpected, hgoal, hnames⟩ := h.progress hready
  have hdone : planned.plan.length ≤ total / (ticks + 1) :=
    (Nat.le_div_iff_mul_le (Nat.succ_pos ticks)).mpr henough
  rw [Nat.min_eq_right hdone] at hexpected
  refine ⟨hready.expected_length.symm.trans hexpected, hgoal, ?_, ?_⟩
  · rw [hgoal]
    exact hready.meets_goal (Nat.le_refl _) hexpected
  · rw [hnames, List.take_of_length_le (Nat.le_succ_of_le hdone)]

end Agent

namespace Turn

variable {planned : Agent Void Nat} {t : Turn Void Nat} {ticks done spent : Nat}
  {front : ActionRecord Void Nat} {rest : List (ActionRecord Void Nat)}

/-- A handler that does nothing changes nothing. -/
theorem call_done {α : Type} (t : Turn W M) (x : α) :
    t.call (.done x : Handler W α) = (.ok x, t) := rfl

/-- The phase and the task of the front are no part of the plan. -/
theorem paced_mapFront (h : planned.Paced ticks done t.agent)
    {f : ActionRecord Void Nat → ActionRecord Void Nat} (hdeed : ∀ r, (f r).deed = r.deed)
    (hhandlers : ∀ r, (f r).handlers = r.handlers) :
    planned.Paced ticks done (t.mapFront f).agent where
  track := onTrack_mapFront h.track hdeed
  handlers r hr := by
    cases hcons : t.agent.queue with
    | nil => simp [mapFront, mapAgent, hcons] at hr
    | cons front rest =>
        rw [queue_mapFront hcons] at hr
        obtain rfl | hr := List.mem_cons.mp hr
        · rw [hhandlers]
          exact h.handlers front (by simp [hcons])
        · exact h.handlers r (by simp [hcons, hr])
  definition := h.definition

/-! ## starting and ending actions -/

/-- An action that takes its time starts at once. -/
theorem startFront_of_timed (hcons : t.agent.queue = front :: rest)
    (hfront : front.handlers = timedAction ticks) :
    t.startFront = (true, (t.readyFront front).mapFront ({ · with phase := .running })) := by
  rw [startFront_eq hcons, hfront]
  rfl

/-- **Starting the front** of a paced queue. -/
theorem startOrFail_of_paced (h : planned.Paced ticks done t.agent)
    (hcons : t.agent.queue = front :: rest) (result : StepResult) :
    (t.startOrFail result).1 = result ∧
      planned.Paced ticks done (t.startOrFail result).2.agent ∧
      (∀ r ∈ (t.startOrFail result).2.agent.queue.head?,
        r.isRunning = true ∧ r.task.getD ticks + 0 = ticks) ∧
      (t.startOrFail result).2.agent.queue ≠ [] ∧
      started t.startOrFailNotes = [front.name] := by
  have hstart := startFront_of_timed hcons (h.handlers front (by simp [hcons]))
  have hqueue := queue_mapFront (queue_readyFront hcons) ({ · with phase := .running })
  have hready : planned.Paced ticks done (t.readyFront front).agent :=
    (paced_mapFront h (f := ({ · with task := none, phase := .created })) (fun _ => rfl)
      fun _ => rfl).of_eq rfl rfl rfl rfl
  rw [startOrFail, startOrFailNotes, hstart]
  refine ⟨rfl, paced_mapFront hready (fun _ => rfl) fun _ => rfl, fun r hr => ?_, ?_, ?_⟩
  · simp only [hqueue, List.head?_cons, Option.mem_some_iff] at hr
    subst hr
    exact ⟨rfl, rfl⟩
  · simp only [hqueue]
    exact List.cons_ne_nil _ _
  · simp only [startNotes, hcons]
    rfl

/-- **Ending the front** takes the agent one action further. -/
theorem paced_popFront (hready : planned.PlanReady) (h : planned.Paced ticks done t.agent)
    (hcons : t.agent.queue = front :: rest) :
    planned.Paced ticks (done + 1) (t.popFront front rest).agent := by
  obtain ⟨hname, hpost, hrest⟩ := h.track.next hcons
  have hfinish : front.handlers.finish = .done () :=
    congrArg ActionHandlers.finish (h.handlers front (by simp [hcons]))
  have hcall : ((t.mapFront ({ · with phase := .succeeded, task := none })).call
      front.handlers.finish).2.agent =
        (t.mapFront ({ · with phase := .succeeded, task := none })).agent := by
    rw [hfinish, call_done]
  have hcurrent : (t.popFront front rest).agent.current = t.agent.current.apply front.post :=
    congrArg (fun a => a.current.apply front.post) hcall
  have hgoal : (t.popFront front rest).agent.goal = t.agent.goal := congrArg (·.goal) hcall
  refine ⟨⟨?_, hgoal.trans h.track.goal, ?_⟩, fun r hr => ?_, h.definition⟩
  · rw [hcurrent, ← hpost]
    exact (hready.next hname h.track.current).2
  · rw [queue_popFront hcons]
    exact hrest
  · rw [queue_popFront hcons] at hr
    exact h.handlers r (by simp [hcons, hr])

/-- **Once its ticks are over** the front ends, and the action behind it is started. -/
theorem completeFront_of_paced (hready : planned.PlanReady)
    (h : planned.Paced ticks done t.agent) (hcons : t.agent.queue = front :: rest) :
    t.completeFront.1 = .succeeded ∧
      planned.Paced ticks (done + 1) t.completeFront.2.agent ∧
      (∀ r ∈ t.completeFront.2.agent.queue.head?,
        r.isRunning = true ∧ r.task.getD ticks + 0 = ticks) ∧
      started t.completeNotes = planned.plan.actions[done + 1]?.toList := by
  have hpop := paced_popFront hready h hcons
  have hqueue := queue_popFront hcons
  rw [completeFront_eq_startOrFail hcons, completeNotes, hcons]
  cases rest with
  | nil =>
      refine ⟨rfl, hpop, fun r hr => ?_, ?_⟩
      · rw [List.isEmpty_nil, if_pos rfl, hqueue] at hr
        cases hr
      · rw [List.getElem?_eq_none (hpop.track.length_le hqueue)]
        rfl
  | cons next rest =>
      obtain ⟨hresult, hpaced, hfront, -, hnotes⟩ :=
        startOrFail_of_paced hpop hqueue .succeeded
      refine ⟨hresult, hpaced, hfront, ?_⟩
      rw [(hpop.track.next hqueue).1]
      exact hnotes

/-! ## ticks -/

/-- Where nothing has been changed from outside, and there are no updaters, a tick is the step of
the front and the response to it. -/
theorem step_of_calm (hcached : t.agent.cached = t.agent.current)
    (hupdaters : t.stepFront.2.agent.definition.bindings.updaters = []) :
    t.step.2 = (t.stepFront.2.respond t.stepFront.1 0).2.mapAgent
        (fun a => { a with cached := a.current }) ∧
      t.journal .step = t.stepNotes ++ t.stepFront.2.respondNotes t.stepFront.1 0 := by
  have hrefresh : t.stepFront.2.refresh (t.agent.current.changed t.agent.cached) =
      (0, t.stepFront.2) := by
    simp [refresh, hupdaters, runUpdaters, hcached, WorldState.changed]
  rw [step_eq, journal_step, hrefresh, hupdaters, updateNotes, List.append_nil]
  simp only [hrefresh, and_self]

/-- Then the step of the front is all, unless it asks for a plan. -/
theorem step_of_goesOn (hcached : t.agent.cached = t.agent.current)
    (hupdaters : t.stepFront.2.agent.definition.bindings.updaters = [])
    (hgoes : t.stepFront.1.goesOn = true) :
    t.step.2 = t.stepFront.2.mapAgent (fun a => { a with cached := a.current }) ∧
      t.journal .step = t.stepNotes := by
  obtain ⟨hafter, hjournal⟩ := step_of_calm hcached hupdaters
  rw [hafter, hjournal]
  simp only [respond, respondNotes, UInt64.and_zero, ne_eq, not_true_eq_false, if_false]
  cases hresult : t.stepFront.1 with
  | needsPlan => rw [hresult] at hgoes; cases hgoes
  | retriesExhausted => rw [hresult] at hgoes; cases hgoes
  | running => exact ⟨rfl, List.append_nil _⟩
  | succeeded => exact ⟨rfl, List.append_nil _⟩
  | retrying => exact ⟨rfl, List.append_nil _⟩

/-- **An action under way is worked at** in a tick. -/
theorem clocked_step_of_lt (h : planned.Clocked ticks done spent t.agent)
    (hcons : t.agent.queue = front :: rest) (hspent : spent < ticks) :
    planned.Clocked ticks done (spent + 1) t.step.2.agent ∧ t.step.2.agent.queue ≠ [] ∧
      started (t.journal .step) = [] := by
  obtain ⟨hrunning, htask⟩ := h.front front (by simp [hcons])
  have hfront := h.handlers front (by simp [hcons])
  obtain ⟨left, hleft⟩ : ∃ left, front.task.getD ticks = left + 1 :=
    Nat.exists_eq_add_one.mpr (by omega)
  have hresume : front.handlers.resume (front.task.getD front.handlers.fresh) =
      .done (.yielded left) := by
    rw [hfront]
    change (timedAction ticks).resume (front.task.getD ticks) = _
    rw [hleft]
    rfl
  have hstep : t.stepFront = (.running, (t.mapFront ({ · with task := none })).mapFront
      ({ · with task := some left, phase := .suspended })) := by
    rw [stepFront_eq hcons, hrunning, hresume]
    rfl
  have hnotes : started t.stepNotes = [] := by
    rw [stepNotes, hcons]
    simp only [hrunning, hresume, call_done]
    rfl
  have hpaced : planned.Paced ticks done t.stepFront.2.agent := by
    have hempty := paced_mapFront h.toPaced (f := ({ · with task := none })) (fun _ => rfl)
      fun _ => rfl
    rw [hstep]
    exact paced_mapFront hempty (fun _ => rfl) fun _ => rfl
  have hqueue : t.stepFront.2.agent.queue =
      { front with task := some left, phase := .suspended } :: rest := by
    rw [hstep]
    exact queue_mapFront (queue_mapFront hcons _) _
  obtain ⟨hafter, hjournal⟩ := step_of_goesOn h.cached hpaced.definition.updaters
    (by rw [hstep]; rfl)
  rw [hafter, hjournal]
  refine ⟨⟨hpaced.of_eq rfl rfl rfl rfl, fun r hr => ?_, rfl⟩, ?_, hnotes⟩
  · have hhead : t.stepFront.2.agent.queue.head? = some r := hr
    rw [hqueue, List.head?_cons, Option.some.injEq] at hhead
    subst hhead
    refine ⟨rfl, ?_⟩
    change left + (spent + 1) = ticks
    omega
  · exact ne_of_eq_of_ne hqueue (List.cons_ne_nil _ _)

/-- **In the tick after its last one** an action ends, and the next one is started. -/
theorem clocked_step_of_eq (hready : planned.PlanReady)
    (h : planned.Clocked ticks done ticks t.agent) (hcons : t.agent.queue = front :: rest) :
    planned.Clocked ticks (done + 1) 0 t.step.2.agent ∧
      started (t.journal .step) = planned.plan.actions[done + 1]?.toList := by
  obtain ⟨hrunning, htask⟩ := h.front front (by simp [hcons])
  have hfront := h.handlers front (by simp [hcons])
  have hresume : front.handlers.resume (front.task.getD front.handlers.fresh) =
      .done (.returned .success) := by
    have hleft : front.task.getD ticks = 0 := by omega
    rw [hfront]
    change (timedAction ticks).resume (front.task.getD ticks) = _
    rw [hleft]
    rfl
  have hempty := paced_mapFront h.toPaced (f := ({ · with task := none })) (fun _ => rfl)
    fun _ => rfl
  obtain ⟨hresult, hpaced, hnext, hnotes⟩ :=
    completeFront_of_paced hready hempty (queue_mapFront hcons _)
  have hstep : t.stepFront = (t.mapFront ({ · with task := none })).completeFront := by
    rw [stepFront_eq hcons, hrunning, hresume]
    rfl
  have hjournal : started t.stepNotes =
      started (t.mapFront ({ · with task := none })).completeNotes := by
    rw [stepNotes, hcons]
    simp only [hrunning, hresume, call_done]
    rfl
  rw [← hstep] at hresult hpaced hnext
  obtain ⟨hafter, hsteps⟩ := step_of_goesOn h.cached hpaced.definition.updaters
    (by rw [hresult]; rfl)
  rw [hafter, hsteps]
  exact ⟨⟨hpaced.of_eq rfl rfl rfl rfl, hnext, rfl⟩, hjournal.trans hnotes⟩

/-- **With the plan done** the goal is met, so that a tick finds nothing to do. -/
theorem clocked_step_of_nil (hready : planned.PlanReady)
    (h : planned.Clocked ticks done spent t.agent) (hqueue : t.agent.queue = []) :
    planned.Clocked ticks done spent t.step.2.agent ∧ t.step.2.agent.queue = [] ∧
      started (t.journal .step) = [] := by
  have hstep : t.stepFront = (.needsPlan, t) := by rw [stepFront, hqueue]
  have hnotes : t.stepNotes = [] := by rw [stepNotes, hqueue]
  have hmeets := h.track.meets_goal hready hqueue
  rw [← h.track.goal] at hmeets
  have houtcome := t.agent.planner.outcome_plan_of_meets hmeets
  rw [← plan_freshPlan] at houtcome
  have hselectors : t.bindingFor t.agent.definition.bindings.goalSelectors = none := by
    rw [h.definition.goalSelectors]
    rfl
  have hselect : t.selectGoal.2 = t.freshPlan := by
    rw [selectGoal_eq, hselectors, planAnew_eq, houtcome]
  have hselects : t.selectNotes = [] := by
    rw [selectNotes, hselectors, planNotes, houtcome]
  obtain ⟨hafter, hjournal⟩ := step_of_calm h.cached (by rw [hstep]; exact h.definition.updaters)
  rw [hstep] at hafter hjournal
  simp only [respond, respondNotes, UInt64.and_zero, ne_eq, not_true_eq_false, if_false, hselect,
    hselects, hnotes] at hafter hjournal
  have hdefinition : t.freshPlan.agent.definition = t.agent.definition := by
    simp only [freshPlan, makePlan, mapAgent, Agent.markDirty]
  have hpaced : planned.Paced ticks done t.freshPlan.agent :=
    h.toPaced.of_eq t.current_freshPlan t.goal_freshPlan (by rw [queue_freshPlan, hqueue])
      hdefinition
  rw [hafter, hjournal]
  refine ⟨⟨hpaced.of_eq rfl rfl rfl rfl, fun r hr => ?_, rfl⟩, rfl, rfl⟩
  cases hr

/-- **Every tick** takes the agent one tick further. -/
theorem worked_step {total : Nat} {names : List String} (hready : planned.PlanReady)
    (h : planned.Worked ticks total names t.agent) :
    planned.Worked ticks (total + 1) (names ++ started (t.journal .step)) t.step.2.agent := by
  obtain ⟨done, spent, hclocked, rfl, hbusy, hidle⟩ := h
  cases hcons : t.agent.queue with
  | nil =>
      obtain ⟨hnext, hqueue, hnotes⟩ := clocked_step_of_nil hready hclocked hcons
      refine ⟨done, spent, hnext, by rw [hnotes, List.append_nil], fun hne => absurd hqueue hne, ?_⟩
      exact fun _ => Nat.le_succ_of_le (hidle hcons)
  | cons front rest =>
      have htotal := hbusy (by rw [hcons]; exact List.cons_ne_nil _ _)
      have hspent := (hclocked.front front (by simp [hcons])).2
      obtain hlt | rfl : spent < ticks ∨ spent = ticks := by omega
      · obtain ⟨hnext, hqueue, hnotes⟩ := clocked_step_of_lt hclocked hcons hlt
        refine ⟨done, spent + 1, hnext, by rw [hnotes, List.append_nil], fun _ => ?_,
          fun hnil => absurd hnil hqueue⟩
        omega
      · obtain ⟨hnext, hnotes⟩ := clocked_step_of_eq hready hclocked hcons
        have hsum : total + 1 = (done + 1) * (spent + 1) := by
          rw [Nat.succ_mul]
          omega
        refine ⟨done + 1, 0, hnext, by rw [hnotes, ← List.take_add_one], fun _ => hsum, ?_⟩
        intro hnil
        rw [hsum]
        exact Nat.mul_le_mul_right _ (hnext.track.length_le hnil)

end Turn

/-! ## beginning a plan -/

/-- The agent with an empty blackboard and a new plan, as it sets out. -/
def Agent.setOut (a : Agent W M) : Agent W M :=
  ({ a with
    blackboard := .empty
    queue := []
    plan := a.planner.plan a.current a.goal
    actionIndex := 0
    retries := 0 } : Agent W M).markDirty

namespace Turn

variable {t : Turn Void Nat} {ticks : Nat}

/-- **When it is launched** an agent sets out on its plan, and starts the first action. -/
theorem worked_launch (htimed : t.agent.definition.Timed ticks)
    (hready : t.agent.setOut.PlanReady)
    (hbound : ∀ name ∈ t.agent.setOut.plan.actions,
      t.agent.definition.bindings.actions[name]?.isSome = true) :
    t.agent.setOut.Worked ticks 0 (started (t.journal .launch)) (t.after .launch).agent := by
  have hinit : t.bindingFor t.agent.definition.bindings.blackboardInit = none := by
    rw [htimed.blackboardInit]
    rfl
  have hselectors : t.clearBlackboard.bindingFor
      t.clearBlackboard.agent.definition.bindings.goalSelectors = none := by
    change t.clearBlackboard.bindingFor t.agent.definition.bindings.goalSelectors = none
    rw [htimed.goalSelectors]
    rfl
  have hseed : t.seedBlackboard = t.clearBlackboard := by rw [seedBlackboard_eq, hinit]
  obtain ⟨u, hu⟩ : ∃ u, t.clearBlackboard.freshPlan = u := ⟨_, rfl⟩
  have hagent : u.agent = t.agent.setOut := by
    rw [← hu]
    simp only [freshPlan, makePlan, clearBlackboard, mapAgent, Agent.setOut]
  have hseeded : u.seeded = true := hu ▸ rfl
  have houtcome : u.agent.plan.outcome = .found := hagent ▸ hready.found
  have hlaunch : t.after .launch = u.beginPlan := by
    change t.seedBlackboard.selectGoal.2 = _
    rw [hseed, selectGoal_eq, hselectors, planAnew_eq, hu, houtcome]
  have hjournal : t.journal .launch = u.beginNotes := by
    rw [journal_eq, notesOf, seedNotes, hinit, hseed, selectNotes, hselectors, planNotes, hu,
      houtcome]
    rfl
  rw [← hagent] at hready hbound ⊢
  have hdefinition : u.agent.definition = t.agent.definition := by rw [hagent]; rfl
  rw [← hdefinition] at htimed hbound
  have hquiet : ∀ n ∈ if u.seeded then [] else u.seedNotes, n.Quiet := by
    rw [hseeded]
    exact fun n hn => absurd hn List.not_mem_nil
  have htrack := (onTrack_queuePlan hready.queue hbound hquiet).2
  obtain ⟨hqueued, hsame⟩ := queued_queuePlan hready.queue hseeded
  have hpaced : u.agent.Paced ticks 0 u.queuePlan.agent := by
    refine ⟨htrack, fun r hr => ?_, hsame ▸ htimed⟩
    rw [hqueued] at hr
    obtain ⟨place, -, hplace⟩ := List.mem_filterMap.mp hr
    exact htimed.actions (Agent.of_recordAt?_eq_some hplace).2.1
  cases hcons : u.queuePlan.agent.queue with
  | nil =>
      have hlength := htrack.length_le hcons
      exact absurd (List.length_eq_zero_iff.mp (Nat.le_zero.mp hlength))
        (Plan.actions_ne_nil_of_found hready.found)
  | cons front rest =>
      obtain ⟨-, hstarted, hfront, hbusy, hnotes⟩ := startOrFail_of_paced hpaced hcons .running
      have hbegin : u.beginPlan.agent =
          { (u.queuePlan.startOrFail .running).2.agent with
            planStart := (u.queuePlan.startOrFail .running).2.agent.current
            cached := (u.queuePlan.startOrFail .running).2.agent.current } := by
        rw [beginPlan_eq_startOrFail, hcons]
        rfl
      rw [hlaunch, hjournal, hbegin, beginNotes, hseeded, hcons]
      refine ⟨0, 0, ⟨hstarted.of_eq rfl rfl rfl rfl, hfront, rfl⟩, ?_, fun _ => ?_,
        fun hnil => absurd hnil hbusy⟩
      swap
      · rw [Nat.zero_mul]
      rw [List.take_add_one, (htrack.next hcons).1]
      exact hnotes

end Turn

end PlanningAgents
