import PlanningAgents.Proofs.Agent.Beginning
import PlanningAgents.Proofs.Planner.Soundness

/-!
# PlanningAgents.Proofs.Agent.Refinement

A plan comes out as it was found.  As long as nothing but finished actions changes the state or the
goal, an agent that has begun a plan of which every action has handlers goes through the states that
the plan records: after as many actions as have been finished, the state is the one recorded for
them (`Agent.OnTrack`), and every handler that is run sees it (`Agent.Along`).  Tasks may be parked
and may fail meanwhile, and actions may be tried again.

Main statements:

* `Planner.Executes.step?_of_getElem?` — the states of a plan are one step apart;
* `Turn.carried_stepFront`, `Turn.carried_step` — a step of the front and a tick keep to the plan;
* `Undisturbed.keeps_to_plan` — a run without disturbance goes through the states of the plan, and
  reaches the goal.
-/

namespace PlanningAgents

variable {W M α : Type}

/-! ## the states of a plan -/

/-- The actions of an execution lead from each of its states to the next. -/
theorem Planner.Executes.step?_of_getElem? {p : Planner} {s : WorldState} {names : List String}
    {states : List WorldState} (h : p.Executes s names states) {k : Nat} {name : String}
    (hname : names[k]? = some name) :
    ∃ t t', (s :: states)[k]? = some t ∧ (s :: states)[k + 1]? = some t' ∧
      p.step? t name = some t' := by
  induction h generalizing k with
  | nil => cases hname
  | @cons s t first names states hstep _ ih =>
      cases k with
      | zero =>
          rw [List.getElem?_cons_zero, Option.some.injEq] at hname
          exact ⟨s, t, rfl, rfl, hname ▸ hstep⟩
      | succ k =>
          rw [List.getElem?_cons_succ] at hname
          exact ih hname

/-- A found plan costs something. -/
theorem Plan.cost_nonneg_of_found {plan : Plan} (h : plan.outcome = .found) : 0 ≤ plan.cost := by
  by_contra hcost
  rw [Plan.outcome, if_pos (Int.not_le.mp hcost)] at h
  cases h

/-- There is nothing to plan where the goal is met. -/
theorem Planner.outcome_plan_of_meets (p : Planner) {s goal : WorldState}
    (h : s.meets goal = true) : (p.plan s goal).outcome = .atGoal := by
  rw [plan, planWithCap, if_pos h]
  rfl

namespace Agent

/-- The state that is expected after the first `k` actions of the plan. -/
def expected (a : Agent W M) (k : Nat) : Option WorldState := (a.current :: a.plan.states)[k]?

variable {planned a b : Agent W M} {k : Nat} {s : WorldState} {name : String}

theorem PlanReady.solves (h : planned.PlanReady) :
    planned.plan.Solves planned.planner planned.current planned.goal
      planned.planner.maxPlanLen := by
  have hcost := Plan.cost_nonneg_of_found h.found
  rw [h.plan] at hcost ⊢
  exact Planner.solves_of_cost_nonneg h.built hcost

/-- In the state expected before it an action applies, and leads to the state expected after it. -/
theorem PlanReady.next (h : planned.PlanReady) (hname : planned.plan.actions[k]? = some name)
    (hexpected : planned.expected k = some s) :
    (∃ x, planned.planner.action? name = some x ∧ s.meets x.pre = true) ∧
      planned.expected (k + 1) = some (s.apply (planned.effects name)) := by
  obtain ⟨t, t', ht, ht', hstep⟩ := h.solves.executes.step?_of_getElem? hname
  obtain ⟨x, hx, hpre, hpost⟩ := Planner.step?_eq_some_iff.mp hstep
  obtain rfl : s = t := Option.some.inj (hexpected.symm.trans ht)
  refine ⟨⟨x, hx, hpre⟩, ?_⟩
  rw [expected, ht', effects, hx, ← hpost]
  rfl

/-- With no action left the goal is met. -/
theorem PlanReady.meets_goal (h : planned.PlanReady) (hdone : planned.plan.actions.length ≤ k)
    (hexpected : planned.expected k = some s) : s.meets planned.goal = true := by
  have hlength := h.solves.length_states
  have hlt := (List.getElem?_eq_some_iff.mp hexpected).1
  rw [List.length_cons] at hlt
  have hk : k = planned.plan.states.length := by
    rw [Plan.length] at hlength
    omega
  have hlast : planned.expected k = some (planned.plan.states.getLastD planned.current) := by
    rw [List.getLastD_eq_getLast?, ← List.getLast?_cons, List.getLast?_eq_getElem?, hk]
    rfl
  obtain rfl := Option.some.inj (hexpected.symm.trans hlast)
  exact h.solves.meets_goal

end Agent

/-! ## agents that carry out a plan -/

/-- What a queued action is to do: its name and its effects. -/
def ActionRecord.deed (r : ActionRecord W M) : String × WorldState := (r.name, r.post)

namespace Agent

/-- What is still to do after the first `k` actions of the plan. -/
def deedsFrom (a : Agent W M) (k : Nat) : List (String × WorldState) :=
  (a.plan.actions.drop k).map fun name => (name, a.effects name)

/-- **An agent is on track** after `k` actions of what has been planned: the state is the one that
is expected then, the goal is the same, and the actions that follow are queued. -/
structure OnTrack (planned : Agent W M) (k : Nat) (a : Agent W M) : Prop where
  current : planned.expected k = some a.current
  goal : a.goal = planned.goal
  queue : a.queue.map ActionRecord.deed = planned.deedsFrom k

variable {planned a b : Agent W M} {k : Nat} {front : ActionRecord W M}
  {rest : List (ActionRecord W M)}

/-- An agent stays on track as long as state, goal and what is queued stay. -/
theorem OnTrack.of_eq (h : OnTrack planned k a) (hcurrent : b.current = a.current)
    (hgoal : b.goal = a.goal)
    (hqueue : b.queue.map ActionRecord.deed = a.queue.map ActionRecord.deed) :
    OnTrack planned k b :=
  ⟨hcurrent ▸ h.current, hgoal.trans h.goal, hqueue.trans h.queue⟩

/-- The front action is the next one of the plan. -/
theorem OnTrack.next (h : OnTrack planned k a) (hcons : a.queue = front :: rest) :
    planned.plan.actions[k]? = some front.name ∧ planned.effects front.name = front.post ∧
      rest.map ActionRecord.deed = planned.deedsFrom (k + 1) := by
  have hqueue := h.queue
  rw [hcons, List.map_cons, deedsFrom, List.drop_eq_getElem?_toList_append] at hqueue
  cases hname : planned.plan.actions[k]? with
  | none =>
      have hend := List.getElem?_eq_none_iff.mp hname
      rw [hname, List.drop_of_length_le (Nat.le_succ_of_le hend)] at hqueue
      cases hqueue
  | some name =>
      rw [hname] at hqueue
      obtain ⟨hfront, hrest⟩ := List.cons.inj hqueue
      obtain ⟨rfl, hpost⟩ := Prod.mk.inj hfront
      exact ⟨rfl, hpost.symm, hrest⟩

/-- With nothing queued the goal is met. -/
theorem OnTrack.meets_goal (h : OnTrack planned k a) (hready : planned.PlanReady)
    (hqueue : a.queue = []) : a.current.meets planned.goal = true := by
  have hdone := h.queue
  rw [hqueue, deedsFrom, List.map_nil, eq_comm, List.map_eq_nil_iff, List.drop_eq_nil_iff] at hdone
  exact hready.meets_goal hdone h.current

end Agent

/-! ## handlers that keep to the plan -/

/-- The handler leaves the state and the goal as they are. -/
def Note.Quiet (n : Note W M) : Prop :=
  n.after.current = n.before.current ∧ n.after.goal = n.before.goal

instance (n : Note W M) : Decidable n.Quiet := inferInstanceAs (Decidable (_ ∧ _))

/-- The action that a handler serves. -/
def Run.action? : Run M → Option String
  | .start action _ | .resume action _ _ | .finish action | .abort action _ => some action
  | .update _ | .seed | .selectGoal | .noPlan => none

def Run.isFinish : Run M → Bool
  | .finish _ => true
  | _ => false

/-- **Handlers keep to the plan**, from `k` actions that have been finished on.  Each of them sees
the state that is expected after the actions finished before it; and whatever is started, resumed or
finished is the next action of the plan, in a state that meets its preconditions. -/
inductive Agent.Along (planned : Agent W M) : Nat → List (Note W M) → Nat → Prop
  | nil (k : Nat) : Along planned k [] k
  | cons {k k' : Nat} {n : Note W M} {notes : List (Note W M)}
      (hsees : planned.expected k = some n.before.current)
      (hnext : ∀ action, n.run.action? = some action →
        planned.plan.actions[k]? = some action ∧
          ∃ x, planned.planner.action? action = some x ∧ n.before.current.meets x.pre = true)
      (rest : Along planned (if n.run.isFinish then k + 1 else k) notes k') :
      Along planned k (n :: notes) k'

namespace Agent.Along

variable {planned : Agent W M} {k k' k'' : Nat} {notes notes' : List (Note W M)}

theorem append (h : planned.Along k notes k') (h' : planned.Along k' notes' k'') :
    planned.Along k (notes ++ notes') k'' := by
  induction h with
  | nil k => exact h'
  | cons hsees hnext _ ih => exact .cons hsees hnext (ih h')

/-- The actions that are done are those that have been finished. -/
theorem eq_add_countP (h : planned.Along k notes k') :
    k' = k + notes.countP (·.run.isFinish) := by
  induction h with
  | nil k => rfl
  | @cons k k' n notes _ _ _ ih =>
      rw [ih, List.countP_cons]
      split
      · omega
      · omega

end Agent.Along

namespace Turn

variable {planned : Agent W M} {t u v : Turn W M} {notes notes' : List (Note W M)}
  {front : ActionRecord W M} {rest : List (ActionRecord W M)}

/-- **A part of a call carries on with the plan**, if no handler in it disturbs it. -/
def Carried (planned : Agent W M) (t : Turn W M) (notes : List (Note W M)) (u : Turn W M) : Prop :=
  (∀ n ∈ notes, n.Quiet) → ∀ k, Agent.OnTrack planned k t.agent →
    ∃ k', planned.Along k notes k' ∧ Agent.OnTrack planned k' u.agent

namespace Carried

/-- Without handlers it is enough to stay on track. -/
theorem nil (h : ∀ k, Agent.OnTrack planned k t.agent → Agent.OnTrack planned k u.agent) :
    Carried planned t [] u :=
  fun _ k hk => ⟨k, .nil k, h k hk⟩

theorem refl (t : Turn W M) : Carried planned t [] t := nil fun _ hk => hk

theorem trans (h : Carried planned t notes u) (h' : Carried planned u notes' v) :
    Carried planned t (notes ++ notes') v := by
  intro hquiet k hk
  obtain ⟨hfirst, hsecond⟩ := List.forall_mem_append.mp hquiet
  obtain ⟨k', halong, hk'⟩ := h hfirst k hk
  obtain ⟨k'', halong', hk''⟩ := h' hsecond k' hk'
  exact ⟨k'', halong.append halong', hk''⟩

/-- What is changed besides may come first. -/
theorem after (h : Carried planned u notes v)
    (htrack : ∀ k, Agent.OnTrack planned k t.agent → Agent.OnTrack planned k u.agent) :
    Carried planned t notes v :=
  fun hquiet k hk => h hquiet k (htrack k hk)

/-- Or last. -/
theorem before (h : Carried planned t notes u)
    (htrack : ∀ k, Agent.OnTrack planned k u.agent → Agent.OnTrack planned k v.agent) :
    Carried planned t notes v := by
  intro hquiet k hk
  obtain ⟨k', halong, hk'⟩ := h hquiet k hk
  exact ⟨k', halong, htrack k' hk'⟩

end Carried

/-- Notes in the trace do not matter. -/
theorem onTrack_record {k : Nat} (h : Agent.OnTrack planned k t.agent) (kind : TraceKind)
    (message : String) (extra : List (String × String)) :
    Agent.OnTrack planned k (t.record kind message extra).agent :=
  h.of_eq rfl rfl rfl

/-- The phase and the task of the front do not matter. -/
theorem onTrack_mapFront {k : Nat} (h : Agent.OnTrack planned k t.agent)
    {f : ActionRecord W M → ActionRecord W M} (hf : ∀ r, (f r).deed = r.deed) :
    Agent.OnTrack planned k (t.mapFront f).agent := by
  refine h.of_eq rfl rfl ?_
  cases hqueue : t.agent.queue with
  | nil => simp [mapFront, mapAgent, hqueue]
  | cons front rest => simp [mapFront, mapAgent, hqueue, hf]

/-- **A handler that finishes nothing** leaves the agent on track, if it is quiet. -/
theorem carried_note {h : Handler W α} {label : Except HandlerError α → Run M}
    {r : Except HandlerError α} (hready : planned.PlanReady) (hcall : t.call h = (r, u))
    (hplain : (label r).isFinish = false)
    (haction : ∀ action, (label r).action? = some action →
      t.agent.queue.head?.map (·.name) = some action) :
    Carried planned t [t.note h label] u := by
  obtain ⟨rfl, rfl⟩ := Prod.mk.inj hcall
  intro hquiet k hk
  obtain ⟨hcurrent, hgoal⟩ := hquiet _ (List.mem_singleton_self _)
  refine ⟨k, .cons hk.current ?_ ?_, hk.of_eq hcurrent hgoal rfl⟩
  · intro action hrun
    obtain ⟨front, hhead, rfl⟩ := Option.map_eq_some_iff.mp (haction action hrun)
    obtain ⟨rest, hcons⟩ := List.head?_eq_some_iff.mp hhead
    have hname := (hk.next hcons).1
    exact ⟨hname, (hready.next hname hk.current).1⟩
  · have hsame : (t.note h label).run.isFinish = false := hplain
    rw [hsame]
    exact .nil k

/-! ## the front action -/

/-- **Starting the front** keeps to the plan, whether or not it starts. -/
theorem carried_startFront (hready : planned.PlanReady) (t : Turn W M) :
    Carried planned t t.startNotes t.startFront.2 := by
  cases hcons : t.agent.queue with
  | nil =>
      simp only [startFront, startNotes, hcons]
      exact .refl t
  | cons front rest =>
      rw [startFront_eq hcons, startNotes, hcons]
      cases hcall : (t.readyFront front).call front.handlers.start with
      | mk r u =>
          have hhead : (t.readyFront front).agent.queue.head?.map (·.name) = some front.name := by
            rw [queue_readyFront hcons]
            rfl
          have hstart : Carried planned t
              [(t.readyFront front).note front.handlers.start (.start front.name)] u := by
            refine (carried_note hready hcall rfl fun action hrun => ?_).after fun k hk => ?_
            · exact hhead.trans hrun
            · have hfront : Agent.OnTrack planned k
                  (t.mapFront ({ · with task := none, phase := .created })).agent :=
                onTrack_mapFront hk fun _ => rfl
              exact hfront.of_eq rfl rfl rfl
          cases r with
          | ok done => exact hstart.before fun k hk => onTrack_mapFront hk fun _ => rfl
          | error e =>
              refine hstart.before fun k hk => ?_
              have hfailed : Agent.OnTrack planned k
                  (u.mapFront ({ · with phase := .failed })).agent :=
                onTrack_mapFront hk fun _ => rfl
              exact onTrack_record hfailed _ _ _

theorem onTrack_countRetry {k : Nat} (h : Agent.OnTrack planned k t.agent) :
    Agent.OnTrack planned k t.countRetry.agent := by
  have hfront : Agent.OnTrack planned k (t.mapFront ({ · with task := none })).agent :=
    onTrack_mapFront h fun _ => rfl
  exact hfront.of_eq rfl rfl rfl

/-- However often the front fails to start, the agent keeps to the plan until it gives up. -/
theorem carried_retryFront (hready : planned.PlanReady) (name : String) (left : Nat)
    (t : Turn W M) (hbudget : (retryFront name left t).1 ≠ .retriesExhausted) :
    Carried planned t (retryNotes left t) (retryFront name left t).2 := by
  induction left generalizing t with
  | zero => exact absurd rfl hbudget
  | succ left ih =>
      have hstart : Carried planned t _ _ :=
        (carried_startFront hready t.countRetry).after fun k hk => onTrack_countRetry hk
      rw [retryFront] at hbudget ⊢
      rw [retryNotes]
      simp only [← countRetry.eq_def] at hbudget ⊢
      cases hstarted : t.countRetry.startFront with
      | mk started u =>
          rw [hstarted] at hstart hbudget
          cases started with
          | true =>
              rw [List.append_nil]
              exact hstart
          | false => exact hstart.trans (ih u hbudget)

/-- **After a failure** the agent keeps to the plan, unless it gives up. -/
theorem carried_failFront (hready : planned.PlanReady) (t : Turn W M)
    (hbudget : t.failFront.1 ≠ .retriesExhausted) :
    Carried planned t t.failNotes t.failFront.2 := by
  cases hcons : t.agent.queue with
  | nil =>
      simp only [failFront, failNotes, hcons]
      exact .refl t
  | cons front rest =>
      rw [failFront, hcons] at hbudget ⊢
      rw [failNotes, hcons]
      exact carried_retryFront hready _ _ t hbudget

theorem carried_startOrFail (hready : planned.PlanReady) (t : Turn W M) {result : StepResult}
    (hbudget : (t.startOrFail result).1 ≠ .retriesExhausted) :
    Carried planned t t.startOrFailNotes (t.startOrFail result).2 := by
  have hstart := carried_startFront hready t
  rw [startOrFail] at hbudget ⊢
  rw [startOrFailNotes]
  cases hstarted : t.startFront with
  | mk started u =>
      rw [hstarted] at hstart hbudget
      cases started with
      | true =>
          rw [List.append_nil]
          exact hstart
      | false => exact hstart.trans (carried_failFront hready u hbudget)

/-- **A success** takes the agent one action further. -/
theorem carried_popFront (hready : planned.PlanReady) (hcons : t.agent.queue = front :: rest) :
    Carried planned t [(t.mapFront ({ · with phase := .succeeded, task := none })).note
      front.handlers.finish (fun _ => .finish front.name)] (t.popFront front rest) := by
  intro hquiet k hk
  obtain ⟨hcurrent, hgoal⟩ := hquiet _ (List.mem_singleton_self _)
  obtain ⟨hname, hpost, hrest⟩ := hk.next hcons
  obtain ⟨hpre, hnext⟩ := hready.next hname hk.current
  refine ⟨k + 1, .cons hk.current ?_ (.nil _), ?_, hgoal.trans hk.goal, ?_⟩
  · intro action hrun
    obtain rfl := Option.some.inj hrun
    exact ⟨hname, hpre⟩
  · have happly : (t.popFront front rest).agent.current = t.agent.current.apply front.post :=
      congrArg (WorldState.apply · front.post) hcurrent
    rw [happly, ← hpost]
    exact hnext
  · rw [queue_popFront hcons]
    exact hrest

/-- **After a success** the action behind is started. -/
theorem carried_completeFront (hready : planned.PlanReady) (t : Turn W M)
    (hbudget : t.completeFront.1 ≠ .retriesExhausted) :
    Carried planned t t.completeNotes t.completeFront.2 := by
  cases hcons : t.agent.queue with
  | nil =>
      simp only [completeFront, completeNotes, hcons]
      exact .refl t
  | cons front rest =>
      have hpop := carried_popFront hready hcons
      rw [completeFront_eq_startOrFail hcons] at hbudget ⊢
      rw [completeNotes, hcons]
      cases hempty : rest.isEmpty with
      | true =>
          simp only [hempty, if_true]
          exact hpop
      | false =>
          simp only [hempty, Bool.false_eq_true, if_false] at hbudget ⊢
          exact hpop.trans (carried_startOrFail hready _ hbudget)

/-- **A step of the front** keeps to the plan, unless the agent gives up. -/
theorem carried_stepFront (hready : planned.PlanReady) (t : Turn W M)
    (hbudget : t.stepFront.1 ≠ .retriesExhausted) :
    Carried planned t t.stepNotes t.stepFront.2 := by
  cases hcons : t.agent.queue with
  | nil =>
      simp only [stepFront, stepNotes, hcons]
      exact .refl t
  | cons front rest =>
      rw [stepFront_eq hcons] at hbudget ⊢
      rw [stepNotes, hcons]
      cases hrunning : front.isRunning with
      | false =>
          simp only [hrunning, Bool.not_false, if_true] at hbudget ⊢
          exact carried_startOrFail hready t hbudget
      | true =>
          simp only [hrunning, Bool.not_true, Bool.false_eq_true, if_false] at hbudget ⊢
          cases hcall : (t.mapFront ({ · with task := none })).call
              (front.handlers.resume (front.task.getD front.handlers.fresh)) with
          | mk r u =>
              have hhead : (t.mapFront ({ · with task := none })).agent.queue.head?.map (·.name) =
                  some front.name := by
                rw [queue_mapFront hcons]
                rfl
              have hresume : Carried planned t [(t.mapFront ({ · with task := none })).note
                  (front.handlers.resume (front.task.getD front.handlers.fresh))
                  (.resume front.name front.task)] u := by
                refine (carried_note hready hcall rfl fun action hrun => ?_).after fun k hk => ?_
                · exact hhead.trans hrun
                · exact onTrack_mapFront hk fun _ => rfl
              rw [hcall] at hbudget
              cases r with
              | error e =>
                  exact (hresume.before fun k hk => onTrack_record hk _ _ _).trans
                    (carried_failFront hready _ hbudget)
              | ok progress =>
                  cases progress with
                  | yielded memory =>
                      exact hresume.before fun k hk => onTrack_mapFront hk fun _ => rfl
                  | returned status =>
                      cases status with
                      | running => exact hresume.before fun k hk => onTrack_mapFront hk fun _ => rfl
                      | success => exact hresume.trans (carried_completeFront hready _ hbudget)
                      | failure =>
                          exact (hresume.before fun k hk => onTrack_record hk _ _ _).trans
                            (carried_failFront hready _ hbudget)

/-! ## updaters and the choice of a goal -/

theorem carried_runUpdaters (hready : planned.PlanReady) (updaters : List (String × Handler W Unit))
    (t : Turn W M) : Carried planned t (t.updateNotes updaters) (t.runUpdaters updaters) := by
  induction updaters generalizing t with
  | nil => exact .refl t
  | cons updater rest ih =>
      obtain ⟨name, h⟩ := updater
      rw [runUpdaters, updateNotes]
      cases hcall : t.call h with
      | mk r u =>
          have hnote : Carried planned t [t.note h (fun _ => .update name)] u :=
            carried_note hready hcall rfl (by simp [Run.action?])
          cases r with
          | ok done => exact hnote.trans (ih u)
          | error e => exact (hnote.before fun k hk => onTrack_record hk _ _ _).trans (ih _)

/-- Quiet updaters change nothing. -/
theorem current_runUpdaters (updaters : List (String × Handler W Unit)) (t : Turn W M)
    (hquiet : ∀ n ∈ t.updateNotes updaters, n.Quiet) :
    (t.runUpdaters updaters).agent.current = t.agent.current := by
  induction updaters generalizing t with
  | nil => rfl
  | cons updater rest ih =>
      obtain ⟨name, h⟩ := updater
      rw [updateNotes] at hquiet
      obtain ⟨⟨hcurrent, -⟩, hrest⟩ := List.forall_mem_cons.mp hquiet
      rw [runUpdaters]
      cases hcall : t.call h with
      | mk r u =>
          obtain ⟨rfl, rfl⟩ := Prod.mk.inj hcall
          rw [hcall] at hrest
          cases hresult : (h.run t.context).1 with
          | ok done =>
              rw [hresult] at hrest
              exact (ih _ hrest).trans hcurrent
          | error e =>
              rw [hresult] at hrest
              exact (ih _ hrest).trans hcurrent

/-- Where the goal is met, planning finds nothing to do. -/
theorem carried_planAnew (hready : planned.PlanReady) (t : Turn W M)
    (hqueue : t.agent.queue = []) : Carried planned t t.planNotes t.planAnew.2 := by
  intro _ k hk
  -- what is on track with nothing queued has reached the goal, so that the new plan is empty
  have hmeets := hk.meets_goal hready hqueue
  rw [← hk.goal] at hmeets
  have houtcome := t.agent.planner.outcome_plan_of_meets hmeets
  rw [← plan_freshPlan] at houtcome
  have hfresh : Agent.OnTrack planned k t.freshPlan.agent :=
    hk.of_eq t.current_freshPlan t.goal_freshPlan (by rw [queue_freshPlan, hqueue])
  rw [planAnew_eq, planNotes]
  generalize t.freshPlan = u at houtcome hfresh ⊢
  rw [houtcome]
  exact ⟨k, .nil k, hfresh⟩

theorem carried_selectGoal (hready : planned.PlanReady) (t : Turn W M)
    (hqueue : t.agent.queue = []) : Carried planned t t.selectNotes t.selectGoal.2 := by
  rw [selectGoal_eq, selectNotes]
  cases t.bindingFor t.agent.definition.bindings.goalSelectors with
  | none => exact carried_planAnew hready t hqueue
  | some h =>
      simp only
      cases hrun : h.run t.context with
      | mk r c =>
          have hcall : t.call h = (r, t.absorb c) := by rw [call, hrun]
          have hnote : Carried planned t [t.note h (fun _ => .selectGoal)] (t.absorb c) :=
            carried_note hready hcall rfl (by simp [Run.action?])
          cases r with
          | error e => exact hnote.before fun k hk => onTrack_record hk _ _ _
          | ok done =>
              have hchoose : (t.choose c).agent.queue = [] := by
                rw [choose]
                split
                · exact hqueue
                · exact hqueue
              refine (hnote.before fun k hk => ?_).trans (carried_planAnew hready _ hchoose)
              rw [choose]
              split
              · exact hk
              · exact onTrack_record hk _ _ _

/-! ## a tick -/

theorem retryFront_ne_needsPlan (name : String) (left : Nat) (t : Turn W M) :
    (retryFront name left t).1 ≠ .needsPlan := by
  induction left generalizing t with
  | zero => simp [retryFront]
  | succ left ih =>
      rw [retryFront]
      split
      · simp
      · exact ih _

theorem failFront_ne_needsPlan (hqueue : t.agent.queue ≠ []) : t.failFront.1 ≠ .needsPlan := by
  obtain ⟨front, rest, hcons⟩ := List.exists_cons_of_ne_nil hqueue
  rw [failFront, hcons]
  exact retryFront_ne_needsPlan _ _ t

/-- Starting the front leaves it queued. -/
theorem queue_startFront_ne_nil (hqueue : t.agent.queue ≠ []) :
    t.startFront.2.agent.queue ≠ [] := by
  obtain ⟨front, rest, hcons⟩ := List.exists_cons_of_ne_nil hqueue
  rw [startFront_eq hcons]
  cases hcall : (t.readyFront front).call front.handlers.start with
  | mk r u =>
      have hqueued := (congrArg Agent.queue (kept_of_call hcall)).trans (queue_readyFront hcons)
      cases r with
      | ok done => exact ne_of_eq_of_ne (queue_mapFront hqueued _) (List.cons_ne_nil _ _)
      | error e => exact ne_of_eq_of_ne (queue_mapFront hqueued _) (List.cons_ne_nil _ _)

theorem startOrFail_ne_needsPlan (hqueue : t.agent.queue ≠ []) {result : StepResult}
    (hresult : result ≠ .needsPlan) : (t.startOrFail result).1 ≠ .needsPlan := by
  have hstart := queue_startFront_ne_nil hqueue
  rw [startOrFail]
  cases hstarted : t.startFront with
  | mk started u =>
      rw [hstarted] at hstart
      cases started with
      | true => exact hresult
      | false => exact failFront_ne_needsPlan hstart

theorem completeFront_ne_needsPlan (hcons : t.agent.queue = front :: rest) :
    t.completeFront.1 ≠ .needsPlan := by
  rw [completeFront_eq_startOrFail hcons]
  split
  · simp
  · next hne =>
      have hqueue : (t.popFront front rest).agent.queue ≠ [] := by
        rw [queue_popFront hcons]
        exact fun hnil => hne (List.isEmpty_iff.mpr hnil)
      exact startOrFail_ne_needsPlan hqueue (by simp)

/-- A step of the front asks for a plan only where nothing is queued. -/
theorem stepFront_ne_needsPlan (hqueue : t.agent.queue ≠ []) : t.stepFront.1 ≠ .needsPlan := by
  obtain ⟨front, rest, hcons⟩ := List.exists_cons_of_ne_nil hqueue
  rw [stepFront_eq hcons]
  split
  · exact startOrFail_ne_needsPlan hqueue (by simp)
  · cases hcall : (t.mapFront ({ · with task := none })).call
        (front.handlers.resume (front.task.getD front.handlers.fresh)) with
    | mk r u =>
        have hqueued := (congrArg Agent.queue (kept_of_call hcall)).trans
          (queue_mapFront hcons ({ · with task := none }))
        have hfail (v : Turn W M) (hv : v.agent.queue = u.agent.queue) :
            v.failFront.1 ≠ .needsPlan := by
          exact failFront_ne_needsPlan (ne_of_eq_of_ne (hv.trans hqueued) (List.cons_ne_nil _ _))
        cases r with
        | error e => exact hfail _ rfl
        | ok progress =>
            cases progress with
            | yielded memory => simp
            | returned status =>
                cases status with
                | running => simp
                | success => exact completeFront_ne_needsPlan hqueued
                | failure => exact hfail _ rfl

/-- Where nothing has changed, the response follows the step of the front. -/
theorem carried_respond (hready : planned.PlanReady) (t : Turn W M) {result : StepResult}
    (hidle : result = .needsPlan → t.agent.queue = []) (hbudget : result ≠ .retriesExhausted) :
    Carried planned t (t.respondNotes result 0) (t.respond result 0).2 := by
  simp only [respond, respondNotes, UInt64.and_zero, ne_eq, not_true_eq_false, if_false]
  cases result with
  | needsPlan => exact carried_selectGoal hready t (hidle rfl)
  | retriesExhausted => exact absurd rfl hbudget
  | running => exact .refl t
  | succeeded => exact .refl t
  | retrying => exact .refl t

/-- Then only the step of the front can ask for a plan. -/
theorem respond_fst_eq_replanned {t : Turn W M} {result : StepResult} {reason : ReplanReason}
    (h : (t.respond result 0).1 = .replanned reason) :
    (result = .needsPlan ∧ reason = .queueEmpty) ∨
      (result = .retriesExhausted ∧ reason = .retriesExhausted) := by
  simp only [respond, UInt64.and_zero, ne_eq, not_true_eq_false, if_false] at h
  cases result with
  | needsPlan => exact .inl ⟨rfl, (TickOutcome.replanned.inj h).symm⟩
  | retriesExhausted => exact .inr ⟨rfl, (TickOutcome.replanned.inj h).symm⟩
  | running => cases h
  | succeeded => cases h
  | retrying => cases h

/-- Quiet updaters leave nothing to respond to. -/
theorem fst_refresh_of_quiet (hcached : t.agent.cached = t.agent.current)
    (hquiet : ∀ n ∈ u.updateNotes u.agent.definition.bindings.updaters, n.Quiet) :
    (u.refresh (t.agent.current.changed t.agent.cached)).1 = 0 := by
  have hsame (s : WorldState) : s.changed s = 0 := by simp [WorldState.changed]
  simp only [refresh, hcached, current_runUpdaters _ u hquiet, hsame, UInt64.or_zero]

theorem carried_refresh (hready : planned.PlanReady) (t : Turn W M) (external : UInt64) :
    Carried planned t (t.updateNotes t.agent.definition.bindings.updaters)
      (t.refresh external).2 := by
  refine (carried_runUpdaters hready _ t).before fun k hk => ?_
  simp only [refresh]
  split
  · exact hk
  · exact onTrack_record hk _ _ _

/-- **An undisturbed tick** keeps to the plan, and does not plan anew while the agent is busy. -/
theorem carried_step (hready : planned.PlanReady) (hcached : t.agent.cached = t.agent.current)
    (hbudget : t.step.1 ≠ .replanned .retriesExhausted)
    (hquiet : ∀ n ∈ t.journal .step, n.Quiet) :
    Carried planned t (t.journal .step) t.step.2 ∧
      (t.agent.queue ≠ [] → ∀ reason, t.step.1 ≠ .replanned reason) := by
  rw [journal_step] at hquiet ⊢
  have hupdates := (List.forall_mem_append.mp (List.forall_mem_append.mp hquiet).1).2
  have hchanged := fst_refresh_of_quiet hcached hupdates
  have hrefresh := carried_refresh hready t.stepFront.2 (t.agent.current.changed t.agent.cached)
  have hqueue := t.stepFront.2.queue_refresh (t.agent.current.changed t.agent.cached)
  -- nothing has been written since the last call, and the updaters write nothing either: the
  -- response to no change depends on the step of the front alone
  rw [step_eq] at hbudget ⊢
  simp only [hchanged] at hbudget ⊢
  generalize (t.stepFront.2.refresh (t.agent.current.changed t.agent.cached)).2 = v
    at hrefresh hqueue hbudget ⊢
  have hexhausted : t.stepFront.1 ≠ .retriesExhausted := by
    intro hresult
    rw [hresult] at hbudget
    exact hbudget (by simp only [respond, UInt64.and_zero, ne_eq, not_true_eq_false, if_false])
  have hidle (hneeds : t.stepFront.1 = .needsPlan) : v.agent.queue = [] := by
    rw [hqueue]
    exact (goesOn_stepFront t).resolve_left (by rw [hneeds]; exact Bool.false_ne_true)
  constructor
  · exact (((carried_stepFront hready t hexhausted).trans hrefresh).trans
      (carried_respond hready v hidle hexhausted)).before fun k hk => hk.of_eq rfl rfl rfl
  · intro hbusy reason hreplanned
    obtain ⟨hneeds, -⟩ | ⟨hresult, -⟩ := respond_fst_eq_replanned hreplanned
    · exact stepFront_ne_needsPlan hbusy hneeds
    · exact hexhausted hresult

end Turn

/-! ## beginning a plan -/

/-- Where all actions have handlers, all of them are queued. -/
theorem Agent.map_deed_filterMap_recordAt? (a : Agent W M) (i : Nat) {names : List String}
    (hbound : ∀ name ∈ names, a.definition.bindings.actions[name]?.isSome = true) :
    ((names.zipIdx i).filterMap a.recordAt?).map ActionRecord.deed =
      names.map fun name => (name, a.effects name) := by
  induction names generalizing i with
  | nil => rfl
  | cons name rest ih =>
      obtain ⟨hname, hrest⟩ := List.forall_mem_cons.mp hbound
      obtain ⟨handlers, hhandlers⟩ := Option.isSome_iff_exists.mp hname
      obtain ⟨r, hr⟩ : ∃ r, a.recordAt? (name, i) = some r := by simp [recordAt?, hhandlers]
      obtain ⟨hplace, -, hpost, -, -⟩ := of_recordAt?_eq_some hr
      have hdeed : r.deed = (name, a.effects name) := Prod.ext (Prod.mk.inj hplace).1 hpost
      rw [List.zipIdx_cons, List.filterMap_cons_some hr, List.map_cons, List.map_cons, ih _ hrest,
        hdeed]

namespace Turn

variable {planned : Agent W M} {t u : Turn W M}

/-- A quiet seeding of the blackboard changes nothing else. -/
theorem seedBlackboard_of_quiet (hquiet : ∀ n ∈ t.seedNotes, n.Quiet) {k : Nat}
    (hexpected : planned.expected k = some t.agent.current) :
    planned.Along k t.seedNotes k ∧ t.seedBlackboard.agent.current = t.agent.current ∧
      t.seedBlackboard.agent.goal = t.agent.goal := by
  rw [seedBlackboard_eq]
  rw [seedNotes] at hquiet ⊢
  cases hbinding : t.bindingFor t.agent.definition.bindings.blackboardInit with
  | none => exact ⟨.nil k, rfl, rfl⟩
  | some h =>
      rw [hbinding] at hquiet
      obtain ⟨hcurrent, hgoal⟩ := hquiet _ (List.mem_singleton_self _)
      exact ⟨.cons hexpected (by simp [note, Run.action?]) (.nil k), hcurrent, hgoal⟩

/-- **Queueing a plan** of which every action has handlers puts the agent on track. -/
theorem onTrack_queuePlan (hqueue : u.agent.queue = [])
    (hbound : ∀ name ∈ u.agent.plan.actions,
      u.agent.definition.bindings.actions[name]?.isSome = true)
    (hquiet : ∀ n ∈ if u.seeded then [] else u.seedNotes, n.Quiet) :
    u.agent.Along 0 (if u.seeded then [] else u.seedNotes) 0 ∧
      Agent.OnTrack u.agent 0 u.queuePlan.agent := by
  -- the blackboard is seeded while nothing is queued, so that the agent is not on track before
  obtain ⟨halong, hcurrent, hgoal⟩ :
      u.agent.Along 0 (if u.seeded then [] else u.seedNotes) 0 ∧
        (if u.seeded then u else u.seedBlackboard).agent.current = u.agent.current ∧
          (if u.seeded then u else u.seedBlackboard).agent.goal = u.agent.goal := by
    cases hseeded : u.seeded with
    | true => exact ⟨.nil 0, rfl, rfl⟩
    | false =>
        rw [hseeded] at hquiet
        exact seedBlackboard_of_quiet hquiet rfl
  have hkept : (if u.seeded then u else u.seedBlackboard).agent.kept = u.agent.kept := by
    split
    · rfl
    · exact u.kept_seedBlackboard
  refine ⟨halong, ?_⟩
  rw [queuePlan]
  generalize (if u.seeded then u else u.seedBlackboard) = v at hcurrent hgoal hkept ⊢
  have hplan : v.agent.plan = u.agent.plan := (congrArg Agent.plan hkept :)
  have hdefinition : v.agent.definition = u.agent.definition :=
    (congrArg Agent.definition hkept :)
  have hactions : v.agent.planner.actions = u.agent.planner.actions :=
    (congrArg (·.planner.actions) hkept :)
  have hempty : v.agent.queue = [] := (congrArg Agent.queue hkept).trans hqueue
  have heffects : v.agent.effects = u.agent.effects := by
    funext name
    rw [Agent.effects, Agent.effects, Planner.action?, Planner.action?, hactions]
  have hqueued := v.agent_enqueueFrom 0 v.agent.plan.actions
  rw [hempty, List.nil_append] at hqueued
  have hdeeds := v.agent.map_deed_filterMap_recordAt? 0 (hdefinition ▸ hbound)
  rw [heffects] at hdeeds
  refine ⟨?_, ?_, ?_⟩
  · exact congrArg some ((congrArg Agent.current hqueued).trans hcurrent).symm
  · exact (congrArg Agent.goal hqueued).trans hgoal
  · have hqueue' := congrArg Agent.queue hqueued
    rw [hplan] at hqueue' ⊢
    exact (congrArg (List.map ActionRecord.deed) hqueue').trans hdeeds

/-- **Beginning a plan** of which every action has handlers puts the agent on track, with its first
action under way. -/
theorem onTrack_beginPlan (hready : u.agent.PlanReady)
    (hbound : ∀ name ∈ u.agent.plan.actions,
      u.agent.definition.bindings.actions[name]?.isSome = true)
    (hbegun : u.beginPlan.agent.queue ≠ []) (hquiet : ∀ n ∈ u.beginNotes, n.Quiet) :
    ∃ k, u.agent.Along 0 u.beginNotes k ∧ Agent.OnTrack u.agent k u.beginPlan.agent := by
  rw [beginNotes] at hquiet ⊢
  rw [beginPlan_eq_startOrFail] at hbegun ⊢
  obtain ⟨hseed, hstart⟩ := List.forall_mem_append.mp hquiet
  obtain ⟨halong, htrack⟩ := onTrack_queuePlan hready.queue hbound hseed
  cases hempty : u.queuePlan.agent.queue.isEmpty with
  | true =>
      rw [hempty] at hbegun
      exact absurd (List.isEmpty_iff.mp hempty) hbegun
  | false =>
      rw [hempty] at hbegun hstart
      simp only [Bool.false_eq_true, if_false] at hbegun hstart ⊢
      have hbudget : (u.queuePlan.startOrFail .running).1 ≠ .retriesExhausted := by
        intro hexhausted
        have hrunning : StepResult.running.goesOn = true := rfl
        obtain hgoes | hnil := goesOn_startOrFail u.queuePlan hrunning
        · rw [hexhausted] at hgoes
          cases hgoes
        · exact hbegun hnil
      obtain ⟨k, hstarted, hk⟩ := carried_startOrFail hready u.queuePlan hbudget hstart 0 htrack
      exact ⟨k, halong.append hstarted, hk.of_eq rfl rfl rfl⟩

end Turn

/-! ## undisturbed runs -/

/-- **A plan is carried out undisturbed**, from its beginning on: ticks follow one another, in which
no handler changes the state or the goal and no action uses up its retries; and what is written in
between changes neither of them. -/
inductive Undisturbed (u : Turn W M) : List (Note W M) → Agent W M → Prop
  | begun (hbegun : u.beginPlan.agent.queue ≠ []) (hquiet : ∀ n ∈ u.beginNotes, n.Quiet) :
      Undisturbed u u.beginNotes u.beginPlan.agent
  | tick {notes : List (Note W M)} {t : Turn W M} (h : Undisturbed u notes t.agent)
      (hbudget : t.step.1 ≠ .replanned .retriesExhausted)
      (hquiet : ∀ n ∈ t.journal .step, n.Quiet) :
      Undisturbed u (notes ++ t.journal .step) t.step.2.agent
  | write {notes : List (Note W M)} {a : Agent W M} (h : Undisturbed u notes a) (w : Write)
      (hcurrent : (a.write w).current = a.current) (hgoal : (a.write w).goal = a.goal) :
      Undisturbed u notes (a.write w)

namespace Undisturbed

variable {u : Turn W M} {notes : List (Note W M)} {a : Agent W M}

/-- What is kept for comparison is the current state all along. -/
theorem cached_eq (h : Undisturbed u notes a) : a.cached = a.current := by
  induction h with
  | begun hbegun _ => exact u.upToDate_beginPlan hbegun
  | @tick notes t _ _ _ _ =>
      rw [Turn.step_eq]
      rfl
  | @write notes a _ w hcurrent _ ih =>
      rw [hcurrent, ← ih]
      exact (congrArg Agent.cached (a.kept_write w) :)

/-- The agent is on track all along. -/
theorem onTrack (h : Undisturbed u notes a) (hready : u.agent.PlanReady)
    (hbound : ∀ name ∈ u.agent.plan.actions,
      u.agent.definition.bindings.actions[name]?.isSome = true) :
    ∃ k, u.agent.Along 0 notes k ∧ u.agent.OnTrack k a := by
  induction h with
  | begun hbegun hquiet => exact Turn.onTrack_beginPlan hready hbound hbegun hquiet
  | @tick notes t h hbudget hquiet ih =>
      obtain ⟨k, halong, hk⟩ := ih
      have hstep := (Turn.carried_step hready h.cached_eq hbudget hquiet).1
      obtain ⟨k', halong', hk'⟩ := hstep hquiet k hk
      exact ⟨k', halong.append halong', hk'⟩
  | @write notes a _ w hcurrent hgoal ih =>
      obtain ⟨k, halong, hk⟩ := ih
      have hqueue : (a.write w).queue = a.queue := (congrArg Agent.queue (a.kept_write w) :)
      exact ⟨k, halong, hk.of_eq hcurrent hgoal (by rw [hqueue])⟩

/-- **A plan comes out as it was found.**  In a run without disturbance, of a plan of which every
action has handlers, the state is always the one that the plan records after as many actions as have
been finished; every handler sees it, and actions are started, and started again, in the order of
the plan and in states that meet their preconditions.  Once nothing is queued any more the goal is
met, and no tick plans anew before that. -/
theorem keeps_to_plan (h : Undisturbed u notes a) (hready : u.agent.PlanReady)
    (hbound : ∀ name ∈ u.agent.plan.actions,
      u.agent.definition.bindings.actions[name]?.isSome = true) :
    u.agent.Along 0 notes (notes.countP (·.run.isFinish)) ∧
      u.agent.OnTrack (notes.countP (·.run.isFinish)) a ∧
      (a.queue = [] → a.current.meets u.agent.goal = true) ∧
      ∀ t : Turn W M, t.agent = a → a.queue ≠ [] →
        t.step.1 ≠ .replanned .retriesExhausted → (∀ n ∈ t.journal .step, n.Quiet) →
          ∀ reason, t.step.1 ≠ .replanned reason := by
  obtain ⟨k, halong, htrack⟩ := h.onTrack hready hbound
  have hk := halong.eq_add_countP
  rw [Nat.zero_add] at hk
  subst hk
  refine ⟨halong, htrack, htrack.meets_goal hready, ?_⟩
  rintro t rfl hbusy hbudget hquiet
  exact (Turn.carried_step hready h.cached_eq hbudget hquiet).2 hbusy

end Undisturbed

/-! ## a traveller who can do all of it -/

namespace Agent

/-- A traveller with handlers for the launching of the raft, too. -/
def ableTraveller : Agent Unit Bool :=
  (ofDefinition "traveller" (riverDefinition.withAction "launch_raft" twoTicks)
    {}).loadDefinition.2

/-- The traveller with a plan. -/
def plannedTraveller : Turn Unit Bool := (idleTurn ableTraveller).freshPlan

theorem planReady_plannedTraveller : plannedTraveller.agent.PlanReady := by
  have hfound : plannedTraveller.agent.plan.outcome = .found := by decide +kernel
  have hreachable : ableTraveller.Reachable := by
    rw [ableTraveller]
    exact (Reachable.ofDefinition _ _ _).loadDefinition
  rw [plannedTraveller] at hfound ⊢
  generalize ableTraveller = a at hfound hreachable ⊢
  refine ⟨?_, Turn.queue_freshPlan _, ?_, hfound⟩
  · rw [Turn.planner_freshPlan]
    exact hreachable.atRest.built
  · rw [Turn.plan_freshPlan, Turn.planner_freshPlan, Turn.current_freshPlan, Turn.goal_freshPlan]

theorem undisturbed_step_idle {u : Turn Unit Bool} {notes : List (Note Unit Bool)}
    {a : Agent Unit Bool} (h : Undisturbed u notes a)
    (hbudget : (idleTurn a).step.1 ≠ .replanned .retriesExhausted)
    (hquiet : ∀ n ∈ (idleTurn a).journal .step, n.Quiet) :
    Undisturbed u (notes ++ (idleTurn a).journal .step) (idleTurn a).step.2.agent :=
  .tick (t := idleTurn a) h hbudget hquiet

/-- The traveller who has begun the plan. -/
def startedTraveller : Agent Unit Bool := plannedTraveller.beginPlan.agent

/-- The traveller after one more tick. -/
def workingTraveller : Agent Unit Bool := (idleTurn startedTraveller).step.2.agent

/-- The traveller after another tick, who has built the raft. -/
def buildingTraveller : Agent Unit Bool := (idleTurn workingTraveller).step.2.agent

theorem undisturbed_buildingTraveller :
    Undisturbed plannedTraveller (plannedTraveller.beginNotes ++
      (idleTurn startedTraveller).journal .step ++ (idleTurn workingTraveller).journal .step)
      buildingTraveller := by
  have hbegun : startedTraveller.queue.isEmpty = false := by decide +kernel
  have hbegin : ∀ n ∈ plannedTraveller.beginNotes, n.Quiet := by decide +kernel
  have hbudget : (idleTurn startedTraveller).step.1 ≠ .replanned .retriesExhausted := by
    decide +kernel
  have hquiet : ∀ n ∈ (idleTurn startedTraveller).journal .step, n.Quiet := by decide +kernel
  have hbudget' : (idleTurn workingTraveller).step.1 ≠ .replanned .retriesExhausted := by
    decide +kernel
  have hquiet' : ∀ n ∈ (idleTurn workingTraveller).journal .step, n.Quiet := by decide +kernel
  have hstarted : Undisturbed plannedTraveller plannedTraveller.beginNotes startedTraveller := by
    rw [startedTraveller] at hbegun ⊢
    generalize plannedTraveller = u at hbegun hbegin ⊢
    exact .begun (List.isEmpty_eq_false_iff.mp hbegun) hbegin
  have hworking := undisturbed_step_idle hstarted hbudget hquiet
  rw [← workingTraveller] at hworking
  have hbuilding := undisturbed_step_idle hworking hbudget' hquiet'
  rw [← buildingTraveller] at hbuilding
  exact hbuilding

/-- After the first success the state is the first one of the plan. -/
theorem keeps_to_plan_buildingTraveller :
    plannedTraveller.agent.PlanReady ∧
      plannedTraveller.agent.expected 1 = some buildingTraveller.current := by
  have hready := planReady_plannedTraveller
  have hrun := undisturbed_buildingTraveller
  have hbound : ∀ name ∈ plannedTraveller.agent.plan.actions,
      plannedTraveller.agent.definition.bindings.actions[name]?.isSome = true := by decide +kernel
  have hfinished : (plannedTraveller.beginNotes ++ (idleTurn startedTraveller).journal .step ++
      (idleTurn workingTraveller).journal .step).countP (·.run.isFinish) = 1 := by decide +kernel
  have hcurrent := (hrun.keeps_to_plan hready hbound).2.1.current
  rw [hfinished] at hcurrent
  exact ⟨hready, hcurrent⟩

end Agent

end PlanningAgents
