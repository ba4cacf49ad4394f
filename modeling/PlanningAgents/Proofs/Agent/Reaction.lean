import PlanningAgents.Proofs.Agent.Coherence
import PlanningAgents.Proofs.Agent.History
import PlanningAgents.Proofs.Atoms.Distance

/-!
# PlanningAgents.Proofs.Agent.Reaction

When a change makes an agent give up what it is doing.  A tick compares the state with the one that
the agent keeps from before, and it compares the state behind the front action's step with the one
behind the updaters.  What is kept is the state in which the last call has left the agent
(`Agent.LeftIn`), so that only writes from outside and updaters can disturb it.

There is one exception: a launch of an agent that is busy already, in which the choice of a goal
fails, leaves the agent busy and keeps what was kept before.

Main statements:

* `Turn.upToDate_after` — after a call what is kept is the current state;
* `Agent.Reachable.exists_leftIn` — a busy agent has been left in some state;
* `Turn.carriesOut_stepNotes`, `Turn.setsOut_selectNotes` — which handlers a step runs, and which a
  choice of a goal does;
* `Agent.Reachable.replans_iff_disturbed` — a tick gives up the plan just where a watched atom has
  changed, and aborts the front action once.
-/

namespace PlanningAgents

variable {W M : Type}

/-! ## bits in common -/

/-- Words have a bit in common if their conjunction is not zero. -/
theorem and_ne_zero_iff (v w : UInt64) :
    v &&& w ≠ 0 ↔ ∃ i < 64, testBit v i = true ∧ testBit w i = true := by
  have hzero (i : Nat) (hi : i < 64) : testBit 0 i = false := by
    simp [testBit_eq_getLsbD _ hi]
  constructor
  · intro hne
    by_contra hnone
    refine hne (eq_of_testBit fun i hi => ?_)
    rw [testBit_and _ _ hi, hzero i hi, Bool.and_eq_false_iff]
    by_contra hboth
    rw [not_or, Bool.not_eq_false, Bool.not_eq_false] at hboth
    exact hnone ⟨i, hi, hboth⟩
  · rintro ⟨i, hi, hv, hw⟩ heq
    have hbit := testBit_and v w hi
    rw [heq, hzero i hi, hv, hw] at hbit
    cases hbit

/-! ## what the agent keeps -/

/-- What a busy agent keeps for comparison is its current state. -/
def Agent.UpToDate (a : Agent W M) : Prop := a.queue ≠ [] → a.cached = a.current

namespace Turn

/-- An agent with nothing queued is not busy. -/
theorem upToDate_of_queue_eq_nil {t : Turn W M} (hqueue : t.agent.queue = []) :
    t.agent.UpToDate :=
  fun hbusy => absurd hqueue hbusy

theorem upToDate_beginPlan (t : Turn W M) : t.beginPlan.agent.UpToDate := by
  intro _
  rw [beginPlan_eq]
  rfl

theorem upToDate_handleNoPlan (t : Turn W M) (hqueue : t.agent.queue = []) (reason : String) :
    (t.handleNoPlan reason).agent.UpToDate := by
  simp only [handleNoPlan]
  split
  · exact upToDate_of_queue_eq_nil hqueue
  · split
    · next e u hcall =>
        have hrest := (congrArg Agent.queue (kept_of_call hcall)).trans hqueue
        exact upToDate_of_queue_eq_nil hrest
    · next u hcall =>
        have hrest := (congrArg Agent.queue (kept_of_call hcall)).trans hqueue
        exact upToDate_of_queue_eq_nil hrest
    · next u hcall =>
        have hrest : (u.makePlan.mapAgent (·.markDirty)).agent.queue = [] :=
          (congrArg Agent.queue (kept_of_call hcall)).trans hqueue
        split
        · exact upToDate_beginPlan _
        · exact upToDate_of_queue_eq_nil hrest
        · exact upToDate_of_queue_eq_nil hrest
        · exact upToDate_of_queue_eq_nil hrest

/-- **Planning** leaves the agent with the current state kept, or with nothing to do. -/
theorem upToDate_planAnew (t : Turn W M) : t.planAnew.2.agent.UpToDate := by
  have hqueue := t.queue_freshPlan
  rw [planAnew_eq]
  generalize t.freshPlan = u at hqueue ⊢
  cases u.agent.plan.outcome with
  | atGoal => exact upToDate_of_queue_eq_nil hqueue
  | found => exact upToDate_beginPlan u
  | notFound => exact upToDate_handleNoPlan u hqueue _
  | truncated => exact upToDate_handleNoPlan u hqueue _

/-- Where the choice of a goal fails, there is no outcome of planning. -/
theorem selectGoal_cases (t : Turn W M) :
    (t.selectGoal.1 = none ∧ t.selectGoal.2.agent.kept = t.agent.kept) ∨
      (t.selectGoal.1 ≠ none ∧ ∃ u : Turn W M, t.selectGoal.2 = u.planAnew.2) := by
  rw [selectGoal]
  cases t.bindingFor t.agent.definition.bindings.goalSelectors with
  | none => exact .inr ⟨by simp, t, rfl⟩
  | some h =>
      simp only
      cases h.run t.context with
      | mk result c =>
          cases result with
          | error e => exact .inl ⟨rfl, rfl⟩
          | ok done => exact .inr ⟨by simp, _, rfl⟩

/-- So does the choice of a goal, unless it fails while the agent is busy. -/
theorem upToDate_selectGoal (t : Turn W M)
    (h : t.selectGoal.1 ≠ none ∨ t.agent.queue = []) : t.selectGoal.2.agent.UpToDate := by
  obtain ⟨hnone, hkept⟩ | ⟨-, u, hplanned⟩ := t.selectGoal_cases
  · have hqueue := (congrArg Agent.queue hkept).trans (h.resolve_left fun hne => hne hnone)
    exact upToDate_of_queue_eq_nil hqueue
  · rw [hplanned]
    exact u.upToDate_planAnew

/-- **After a call** what is kept is the current state, unless a launch has found no goal. -/
theorem upToDate_after (t : Turn W M) {call : Call}
    (hchosen : call = .launch → t.launch.1 ≠ none) : (t.after call).agent.UpToDate := by
  cases call with
  | launch => exact upToDate_selectGoal _ (.inl (hchosen rfl))
  | step =>
      intro _
      rw [after, step_eq]
      rfl
  | replan => exact upToDate_planAnew _
  | replanTo goal merge => exact upToDate_planAnew _
  | interrupt => exact upToDate_selectGoal _ (.inr (congrArg Agent.queue (kept_seedBlackboard _)))

/-- A launch that finds no goal leaves alone what handlers cannot reach. -/
theorem kept_launch (t : Turn W M) (hfailed : t.launch.1 = none) :
    t.launch.2.agent.kept = t.agent.kept := by
  obtain ⟨-, hkept⟩ | ⟨hne, -⟩ := t.seedBlackboard.selectGoal_cases
  · exact hkept.trans t.kept_seedBlackboard
  · exact absurd hfailed hne

end Turn

namespace Agent

/-- **The state in which the last call has left an agent**, that has been busy since then.  A launch
in which the choice of a goal fails does not count; a world state that is loaded takes the place of
the one before. -/
inductive LeftIn : WorldState → Agent W M → Prop
  | call {t : Turn W M} {call : Call} (hbusy : (t.after call).agent.queue ≠ [])
      (hchosen : call = .launch → t.launch.1 ≠ none) :
      LeftIn (t.after call).agent.current (t.after call).agent
  | failedLaunch {s : WorldState} {t : Turn W M} (h : LeftIn s t.agent)
      (hfailed : t.launch.1 = none) : LeftIn s t.launch.2.agent
  | write {s : WorldState} {a : Agent W M} (h : LeftIn s a) (w : Write) : LeftIn s (a.write w)
  | load {s : WorldState} {a : Agent W M} (h : LeftIn s a) {spec : EntityTypeSpec}
      (hloaded : (a.loadWorldState spec).1 = .ok ()) :
      LeftIn (a.loadWorldState spec).2.current (a.loadWorldState spec).2
  | failedLoad {s : WorldState} {a : Agent W M} (h : LeftIn s a) : LeftIn s { a with dirty := true }

variable {a : Agent W M} {s : WorldState}

/-- A launch that finds a goal leaves the agent in the state that is then the current one. -/
theorem leftIn_launch {t : Turn W M} (hbusy : t.launch.2.agent.queue ≠ [])
    (hchosen : t.launch.1 ≠ none) : LeftIn t.launch.2.agent.current t.launch.2.agent := by
  have hafter : (t.after .launch).agent.queue ≠ [] := hbusy
  exact .call hafter fun _ => hchosen

/-- **What is kept** for comparison is the state in which the agent has been left. -/
theorem LeftIn.cached_eq (h : LeftIn s a) : a.cached = s := by
  induction h with
  | call hbusy hchosen => exact Turn.upToDate_after _ hchosen hbusy
  | @failedLaunch s t _ hfailed ih =>
      have hkept := congrArg Agent.cached (t.kept_launch hfailed)
      exact hkept.trans ih
  | @write s a _ w ih =>
      have hkept := congrArg Agent.cached (a.kept_write w)
      exact hkept.trans ih
  | @load s a _ spec hloaded _ =>
      rw [loadWorldState] at hloaded ⊢
      split at hloaded
      · cases hloaded
      · rfl
  | failedLoad _ ih => exact ih

/-- A state that is loaded replaces the one in which the agent has been left. -/
theorem exists_leftIn_load (hleft : a.queue ≠ [] → ∃ s, LeftIn s a) (spec : EntityTypeSpec)
    (hbusy : (a.loadWorldState spec).2.queue ≠ []) : ∃ s, LeftIn s (a.loadWorldState spec).2 := by
  cases hload : a.loadWorldState spec with
  | mk result b =>
      cases result with
      | error e =>
          obtain rfl := loadWorldState_error hload
          rw [hload] at hbusy
          obtain ⟨s, hs⟩ := hleft hbusy
          exact ⟨s, hs.failedLoad⟩
      | ok done =>
          have hqueue : (a.loadWorldState spec).2.queue = a.queue := by
            rw [loadWorldState]
            split
            · rfl
            · rfl
          obtain ⟨s, hs⟩ := hleft (hqueue ▸ hbusy)
          have hloaded := hs.load (congrArg Prod.fst hload)
          rw [hload] at hloaded
          exact ⟨_, hloaded⟩

/-- Loading actions drops the queue, unless it fails. -/
theorem exists_leftIn_loadActions (hleft : a.queue ≠ [] → ∃ s, LeftIn s a)
    (specs : List ActionSpec) (hbusy : (a.loadActions specs).2.queue ≠ []) :
    ∃ s, LeftIn s (a.loadActions specs).2 := by
  rw [loadActions] at hbusy ⊢
  split at hbusy
  · obtain ⟨s, hs⟩ := hleft hbusy
    exact ⟨s, hs.failedLoad⟩
  · exact absurd rfl hbusy

theorem exists_leftIn_after {t : Turn W M} (hleft : t.agent.queue ≠ [] → ∃ s, LeftIn s t.agent)
    (call : Call) (hbusy : (t.after call).agent.queue ≠ []) :
    ∃ s, LeftIn s (t.after call).agent := by
  by_cases hfailed : call = .launch ∧ t.launch.1 = none
  · obtain ⟨rfl, hnone⟩ := hfailed
    have hqueue := congrArg Agent.queue (t.kept_launch hnone)
    obtain ⟨s, hs⟩ := hleft fun hnil => hbusy (hqueue.trans hnil)
    exact ⟨s, hs.failedLaunch hnone⟩
  · exact ⟨_, .call hbusy fun hlaunch hnone => hfailed ⟨hlaunch, hnone⟩⟩

theorem exists_leftIn_write (hleft : a.queue ≠ [] → ∃ s, LeftIn s a) (w : Write)
    (hbusy : (a.write w).queue ≠ []) : ∃ s, LeftIn s (a.write w) := by
  have hqueue := congrArg Agent.queue (a.kept_write w)
  obtain ⟨s, hs⟩ := hleft fun hnil => hbusy (hqueue.trans hnil)
  exact ⟨s, hs.write w⟩

/-- **A busy agent has been left in some state**, whatever it has been through. -/
theorem Reachable.exists_leftIn (h : a.Reachable) (hbusy : a.queue ≠ []) : ∃ s, LeftIn s a := by
  induction h using Reachable.inductOn with
  | ofDefinition entityType definition config => exact absurd rfl hbusy
  | @loadDefinition a _ ih =>
      rw [Agent.loadDefinition] at hbusy ⊢
      split at hbusy
      · exact ih hbusy
      · next spec _ =>
          have hactions := exists_leftIn_loadActions ih a.definition.data.actions
          split at hbusy
          · next e b hload =>
              rw [hload] at hactions
              exact hactions hbusy
          · next b hload =>
              rw [hload] at hactions
              exact exists_leftIn_load hactions spec hbusy
  | loadActions _ specs ih => exact exists_leftIn_loadActions ih specs hbusy
  | loadWorldState _ spec ih => exact exists_leftIn_load ih spec hbusy
  | write _ w ih => exact exists_leftIn_write ih w hbusy
  | after _ _ call ih => exact exists_leftIn_after ih call hbusy

end Agent

/-! ## which handlers run -/

namespace Run

/-- A handler that starts an action. -/
def isStart : Run M → Bool
  | .start .. => true
  | _ => false

/-- A handler that carries out the plan, or an updater. -/
def carriesOut : Run M → Bool
  | .start .. | .resume .. | .finish _ | .update _ => true
  | _ => false

/-- A handler that takes part in choosing a goal and beginning a plan for it. -/
def setsOut : Run M → Bool
  | .seed | .selectGoal | .noPlan | .start .. => true
  | _ => false

def isAbort : Run M → Bool
  | .abort .. => true
  | _ => false

variable {r : Run M}

theorem carriesOut_of_isStart (h : r.isStart = true) : r.carriesOut = true := by
  cases r with
  | start action result => rfl
  | _ => cases h

theorem setsOut_of_isStart (h : r.isStart = true) : r.setsOut = true := by
  cases r with
  | start action result => rfl
  | _ => cases h

theorem isAbort_of_carriesOut (h : r.carriesOut = true) : r.isAbort = false := by
  cases r with
  | abort action reason => cases h
  | _ => rfl

theorem isAbort_of_setsOut (h : r.setsOut = true) : r.isAbort = false := by
  cases r with
  | abort action reason => cases h
  | _ => rfl

end Run

namespace Turn

variable (t : Turn W M)

theorem isStart_startNotes : ∀ n ∈ t.startNotes, n.run.isStart = true := by
  rw [startNotes]
  split
  · exact List.forall_mem_nil _
  · exact List.forall_mem_singleton.mpr rfl

theorem isStart_retryNotes (left : Nat) : ∀ n ∈ retryNotes left t, n.run.isStart = true := by
  induction left generalizing t with
  | zero => exact List.forall_mem_nil _
  | succ left ih =>
      rw [retryNotes]
      refine List.forall_mem_append.mpr ⟨isStart_startNotes _, ?_⟩
      split
      · exact List.forall_mem_nil _
      · exact ih _

theorem isStart_failNotes : ∀ n ∈ t.failNotes, n.run.isStart = true := by
  rw [failNotes]
  split
  · exact List.forall_mem_nil _
  · exact isStart_retryNotes _ _

theorem isStart_startOrFailNotes : ∀ n ∈ t.startOrFailNotes, n.run.isStart = true := by
  rw [startOrFailNotes]
  refine List.forall_mem_append.mpr ⟨t.isStart_startNotes, ?_⟩
  split
  · exact List.forall_mem_nil _
  · exact isStart_failNotes _

theorem carriesOut_completeNotes : ∀ n ∈ t.completeNotes, n.run.carriesOut = true := by
  rw [completeNotes]
  split
  · exact List.forall_mem_nil _
  · refine List.forall_mem_cons.mpr ⟨rfl, ?_⟩
    split
    · exact List.forall_mem_nil _
    · exact fun n hn => Run.carriesOut_of_isStart (isStart_startOrFailNotes _ n hn)

/-- **A step of the front** runs none but the handlers of actions that are carried out. -/
theorem carriesOut_stepNotes : ∀ n ∈ t.stepNotes, n.run.carriesOut = true := by
  have hfail (u : Turn W M) : ∀ n ∈ u.failNotes, n.run.carriesOut = true :=
    fun n hn => Run.carriesOut_of_isStart (u.isStart_failNotes n hn)
  rw [stepNotes]
  split
  · exact List.forall_mem_nil _
  · split
    · exact fun n hn => Run.carriesOut_of_isStart (t.isStart_startOrFailNotes n hn)
    · refine List.forall_mem_cons.mpr ⟨rfl, ?_⟩
      split
      · exact List.forall_mem_nil _
      · exact List.forall_mem_nil _
      · exact carriesOut_completeNotes _
      · exact hfail _
      · exact hfail _

theorem carriesOut_updateNotes (updaters : List (String × Handler W Unit)) :
    ∀ n ∈ t.updateNotes updaters, n.run.carriesOut = true := by
  induction updaters generalizing t with
  | nil => exact List.forall_mem_nil _
  | cons updater rest ih =>
      rw [updateNotes]
      refine List.forall_mem_cons.mpr ⟨rfl, ?_⟩
      split
      · exact ih _
      · exact ih _

theorem setsOut_seedNotes : ∀ n ∈ t.seedNotes, n.run.setsOut = true := by
  rw [seedNotes]
  split
  · exact List.forall_mem_nil _
  · exact List.forall_mem_singleton.mpr rfl

theorem setsOut_beginNotes : ∀ n ∈ t.beginNotes, n.run.setsOut = true := by
  rw [beginNotes]
  refine List.forall_mem_append.mpr ⟨?_, ?_⟩
  · split
    · exact List.forall_mem_nil _
    · exact t.setsOut_seedNotes
  · split
    · exact List.forall_mem_nil _
    · exact fun n hn => Run.setsOut_of_isStart (isStart_startOrFailNotes _ n hn)

theorem setsOut_noPlanNotes (reason : String) :
    ∀ n ∈ t.noPlanNotes reason, n.run.setsOut = true := by
  simp only [noPlanNotes]
  generalize t.record .planFailed t.agent.describeGoal
    [("reason", reason), ("state", t.agent.describeState)] = u
  cases u.agent.definition.bindings.noPlan with
  | none => exact List.forall_mem_nil _
  | some h =>
      refine List.forall_mem_cons.mpr ⟨rfl, ?_⟩
      cases u.call h with
      | mk r v =>
          cases r with
          | error e => exact List.forall_mem_nil _
          | ok again =>
              cases again with
              | false => exact List.forall_mem_nil _
              | true =>
                  simp only
                  generalize v.makePlan.mapAgent (·.markDirty) = w
                  cases w.agent.plan.outcome with
                  | found => exact w.setsOut_beginNotes
                  | atGoal => exact List.forall_mem_nil _
                  | notFound => exact List.forall_mem_nil _
                  | truncated => exact List.forall_mem_nil _

theorem setsOut_planNotes : ∀ n ∈ t.planNotes, n.run.setsOut = true := by
  rw [planNotes]
  generalize t.freshPlan = u
  cases u.agent.plan.outcome with
  | atGoal => exact List.forall_mem_nil _
  | found => exact u.setsOut_beginNotes
  | notFound => exact u.setsOut_noPlanNotes _
  | truncated => exact u.setsOut_noPlanNotes _

/-- **The choice of a goal** runs none but the handlers of choosing, planning and setting out. -/
theorem setsOut_selectNotes : ∀ n ∈ t.selectNotes, n.run.setsOut = true := by
  rw [selectNotes]
  split
  · exact t.setsOut_planNotes
  · refine List.forall_mem_cons.mpr ⟨rfl, ?_⟩
    split
    · exact List.forall_mem_nil _
    · exact setsOut_planNotes _

/-! ## the response to a change -/

/-- **The plan is given up** just where the front watches what has changed. -/
theorem respond_fst_eq_iff (result : StepResult) (changed : UInt64) :
    (t.respond result changed).1 = .replanned .worldStateChanged ↔
      ((t.agent.queue.head?.map (·.watchMask)).getD 0) &&& changed ≠ 0 := by
  simp only [respond]
  split
  · next hwatched => exact iff_of_true rfl hwatched
  · next hwatched =>
      refine iff_of_false ?_ hwatched
      cases result with
      | needsPlan => simp
      | running => simp
      | succeeded => simp
      | retrying => simp
      | retriesExhausted => simp

/-- An atom that the action watches has changed: from outside since the agent was left in `s`, or by
the updaters. -/
def Disturbs (t : Turn W M) (s : WorldState) (front : ActionRecord W M) : Prop :=
  ∃ i < 64, testBit front.watchMask i = true ∧
    (s.DiffersAt t.agent.current i ∨
      t.stepFront.2.agent.current.DiffersAt (t.stepFront.2.runUpdaters
        t.stepFront.2.agent.definition.bindings.updaters).agent.current i)

variable {t} {s : WorldState} {front : ActionRecord W M} {rest : List (ActionRecord W M)}

/-- A tick takes just these changes into account. -/
theorem disturbs_iff (hcached : t.agent.cached = s) :
    t.Disturbs s front ↔ front.watchMask &&&
      (t.stepFront.2.refresh (t.agent.current.changed t.agent.cached)).1 ≠ 0 := by
  rw [and_ne_zero_iff, hcached]
  refine exists_congr fun i => and_congr_right fun hi => and_congr_right fun _ => ?_
  simp only [refresh]
  rw [testBit_or _ _ hi, Bool.or_eq_true, WorldState.testBit_changed_iff _ _ hi,
    WorldState.testBit_changed_iff _ _ hi]
  exact or_congr_left ⟨WorldState.DiffersAt.symm, WorldState.DiffersAt.symm⟩

theorem queue_refresh (t : Turn W M) (external : UInt64) :
    (t.refresh external).2.agent.queue = t.agent.queue :=
  (congrArg Agent.queue (t.kept_refresh external) :)

/-- **A tick gives up the plan** just where the action at the front is disturbed. -/
theorem step_fst_eq_iff (hcached : t.agent.queue ≠ [] → t.agent.cached = s) :
    t.step.1 = .replanned .worldStateChanged ↔
      ∃ front rest, t.stepFront.2.agent.queue = front :: rest ∧ t.Disturbs s front := by
  rw [step_eq]
  simp only [respond_fst_eq_iff, queue_refresh]
  cases hcons : t.stepFront.2.agent.queue with
  | nil =>
      refine iff_of_false (fun hne => hne (UInt64.zero_and)) ?_
      rintro ⟨front, rest, heq, -⟩
      cases heq
  | cons front rest =>
      have hbusy : t.agent.queue ≠ [] := by
        intro hnil
        rw [stepFront, hnil] at hcons
        exact List.cons_ne_nil _ _ (hcons.symm.trans hnil)
      rw [List.head?_cons, Option.map_some, Option.getD_some, ← disturbs_iff (hcached hbusy)]
      constructor
      · exact fun h => ⟨front, rest, rfl, h⟩
      · rintro ⟨front', rest', heq, h⟩
        obtain ⟨rfl, rfl⟩ := List.cons.inj heq
        exact h

/-- The front is aborted before a goal is chosen. -/
theorem respondNotes_of_watched (hcons : t.agent.queue = front :: rest)
    (hrunning : front.isRunning = true) (result : StepResult) {changed : UInt64}
    (hwatched : front.watchMask &&& changed ≠ 0) :
    ∃ n notes, t.respondNotes result changed = n :: notes ∧
      n.run = .abort front.name .worldStateChanged ∧ ∀ m ∈ notes, m.run.setsOut = true := by
  simp only [respondNotes, hcons, List.head?_cons, Option.map_some, Option.getD_some,
    if_pos hwatched, abortNotes, hrunning, Bool.not_true, Bool.false_eq_true, if_false]
  exact ⟨_, _, rfl, rfl, setsOut_selectNotes _⟩

/-- Without a change that is watched, nothing is aborted. -/
theorem isAbort_respondNotes (result : StepResult) {changed : UInt64}
    (hwatched : (t.respond result changed).1 ≠ .replanned .worldStateChanged) :
    ∀ m ∈ t.respondNotes result changed, m.run.isAbort = false := by
  rw [Ne, respond_fst_eq_iff] at hwatched
  have hselect : ∀ m ∈ t.selectNotes, m.run.isAbort = false :=
    fun m hm => Run.isAbort_of_setsOut (t.setsOut_selectNotes m hm)
  simp only [respondNotes, if_neg hwatched]
  cases result with
  | needsPlan => exact hselect
  | retriesExhausted => exact hselect
  | running => exact List.forall_mem_nil _
  | succeeded => exact List.forall_mem_nil _
  | retrying => exact List.forall_mem_nil _

/-- The notes of a tick up to the response to what has changed. -/
theorem exists_journal_step (t : Turn W M) : ∃ notes : List (Note W M),
    (∀ m ∈ notes, m.run.carriesOut = true) ∧
      t.journal .step = notes ++
        (t.stepFront.2.refresh (t.agent.current.changed t.agent.cached)).2.respondNotes
          t.stepFront.1 (t.stepFront.2.refresh (t.agent.current.changed t.agent.cached)).1 := by
  refine ⟨t.stepNotes ++
    t.stepFront.2.updateNotes t.stepFront.2.agent.definition.bindings.updaters, ?_, ?_⟩
  · exact List.forall_mem_append.mpr
      ⟨t.carriesOut_stepNotes, t.stepFront.2.carriesOut_updateNotes _⟩
  · exact t.journal_step

end Turn

namespace Agent

/-- **An agent gives up its plan exactly where it is disturbed.**  A tick answers that the world has
changed if and only if, behind the step of the front action, there is an action at the front that
watches an atom which has changed from outside since the agent was left in `s`, or has been changed
by the updaters.  Then this action is aborted, once and for this reason, after all that the step and
the updaters have run and before a goal is chosen; otherwise no action is aborted. -/
theorem Reachable.replans_iff_disturbed {t : Turn W M} (h : t.agent.Reachable) {s : WorldState}
    (hleft : t.agent.queue ≠ [] → LeftIn s t.agent) :
    (t.step.1 = .replanned .worldStateChanged ↔
      ∃ front rest, t.stepFront.2.agent.queue = front :: rest ∧ t.Disturbs s front) ∧
    (t.step.1 = .replanned .worldStateChanged →
      ∃ front rest earlier n later, t.stepFront.2.agent.queue = front :: rest ∧
        t.journal .step = earlier ++ n :: later ∧
        (∀ m ∈ earlier, m.run.carriesOut = true) ∧
        n.run = .abort front.name .worldStateChanged ∧ ∀ m ∈ later, m.run.setsOut = true) ∧
    (t.step.1 ≠ .replanned .worldStateChanged → ∀ m ∈ t.journal .step, m.run.isAbort = false) := by
  have hcached (hbusy : t.agent.queue ≠ []) : t.agent.cached = s := (hleft hbusy).cached_eq
  obtain ⟨earlier, hearlier, hjournal⟩ := t.exists_journal_step
  refine ⟨Turn.step_fst_eq_iff hcached, fun hreplanned => ?_, fun hother => ?_⟩
  · obtain ⟨front, rest, hcons, -⟩ := (Turn.step_fst_eq_iff hcached).mp hreplanned
    have hrunning : front.isRunning = true :=
      ((Turn.atRest_stepFront h.atRest).front front (by rw [hcons]; rfl)).2.1
    rw [Turn.step_eq] at hreplanned
    simp only [Turn.respond_fst_eq_iff, Turn.queue_refresh, hcons, List.head?_cons,
      Option.map_some, Option.getD_some] at hreplanned
    obtain ⟨n, later, hrespond, habort, hlater⟩ := Turn.respondNotes_of_watched
      ((Turn.queue_refresh _ _).trans hcons) hrunning t.stepFront.1 hreplanned
    rw [hrespond] at hjournal
    exact ⟨front, rest, earlier, n, later, hcons, hjournal, hearlier, habort, hlater⟩
  · rw [hjournal]
    refine List.forall_mem_append.mpr ⟨fun m hm => Run.isAbort_of_carriesOut (hearlier m hm), ?_⟩
    exact Turn.isAbort_respondNotes _ hother

/-! ## a traveller who loses the way -/

/-- From the far bank there is no way to choose. -/
def chooseFromNearBank : Handler Unit Unit := do
  if (← Handler.getAtom "across") = some true then .fail ⟨"lost"⟩

/-- A traveller who chooses where to go on the near bank only. -/
def choosyTraveller : Agent Unit Bool :=
  (ofDefinition "traveller" (riverDefinition.withGoalSelector "traveller" chooseFromNearBank)
    {}).loadDefinition.2

/-- The traveller who has set to work, and is then carried across the river by someone else. -/
def ferriedTraveller : Agent Unit Bool :=
  (idleTurn choosyTraveller).launch.2.agent.write (.setAtom "across" true)

/-- The traveller who has tried to set out anew from there. -/
def lostTraveller : Agent Unit Bool := (idleTurn ferriedTraveller).launch.2.agent

theorem reachable_choosyTraveller : choosyTraveller.Reachable := by
  rw [choosyTraveller]
  exact (Reachable.ofDefinition _ _ _).loadDefinition

theorem reachable_ferriedTraveller : ferriedTraveller.Reachable := by
  have hreachable := reachable_choosyTraveller
  rw [ferriedTraveller]
  generalize choosyTraveller = a at hreachable ⊢
  exact hreachable.launch_idle.write _

/-- The ferried traveller was left on the near bank. -/
theorem leftIn_ferriedTraveller :
    LeftIn (idleTurn choosyTraveller).launch.2.agent.current ferriedTraveller := by
  have hbusy : (idleTurn choosyTraveller).launch.2.agent.queue.isEmpty = false := by
    decide +kernel
  have hchosen : (idleTurn choosyTraveller).launch.1.isSome = true := by decide +kernel
  rw [ferriedTraveller]
  generalize choosyTraveller = a at hbusy hchosen ⊢
  exact (leftIn_launch (List.isEmpty_eq_false_iff.mp hbusy)
    (Option.isSome_iff_ne_none.mp hchosen)).write _

/-- The ferried traveller gives up the work on the raft. -/
theorem replans_ferriedTraveller :
    ferriedTraveller.Reachable ∧
      LeftIn (idleTurn choosyTraveller).launch.2.agent.current ferriedTraveller ∧
      ∃ front rest, (idleTurn ferriedTraveller).stepFront.2.agent.queue = front :: rest ∧
        (idleTurn ferriedTraveller).Disturbs (idleTurn choosyTraveller).launch.2.agent.current
          front := by
  have hreachable := reachable_ferriedTraveller
  have hleft := leftIn_ferriedTraveller
  have hstep : (idleTurn ferriedTraveller).step.1 = .replanned .worldStateChanged := by
    decide +kernel
  generalize ferriedTraveller = a at hreachable hleft hstep ⊢
  generalize (idleTurn choosyTraveller).launch.2.agent.current = s at hleft ⊢
  exact ⟨hreachable, hleft,
    (hreachable.replans_iff_disturbed (t := idleTurn a) fun _ => hleft).1.mp hstep⟩

/-- **A launch that finds no goal does not count.**  It leaves the lost traveller busy, and nothing
has changed since then; still the next tick gives up the work on the raft, because of what had
changed before the launch. -/
theorem replans_lostTraveller :
    lostTraveller = ((idleTurn ferriedTraveller).after .launch).agent ∧
      lostTraveller.Reachable ∧ lostTraveller.queue ≠ [] ∧
      ¬((idleTurn lostTraveller).step.1 = .replanned .worldStateChanged ↔
        ∃ front rest, (idleTurn lostTraveller).stepFront.2.agent.queue = front :: rest ∧
          (idleTurn lostTraveller).Disturbs lostTraveller.current front) := by
  have hlost : lostTraveller = ((idleTurn ferriedTraveller).after .launch).agent := by
    rw [lostTraveller]
    generalize ferriedTraveller = a
    rfl
  have hreachable : lostTraveller.Reachable := by
    have hferried := reachable_ferriedTraveller
    rw [lostTraveller]
    generalize ferriedTraveller = a at hferried ⊢
    exact hferried.launch_idle
  have hbusy : lostTraveller.queue.isEmpty = false := by decide +kernel
  have hstep : (idleTurn lostTraveller).step.1 = .replanned .worldStateChanged := by
    decide +kernel
  have hupdated : ((idleTurn lostTraveller).stepFront.2.refresh 0).1 = 0 := by decide +kernel
  generalize lostTraveller = a at hlost hreachable hbusy hstep hupdated ⊢
  refine ⟨hlost, hreachable, List.isEmpty_eq_false_iff.mp hbusy, fun hiff => ?_⟩
  obtain ⟨front, rest, -, i, hi, -, hwritten | hupdaters⟩ := hiff.mp hstep
  · exact hwritten.ne rfl
  · simp only [Turn.refresh, UInt64.zero_or] at hupdated
    exact WorldState.not_differsAt_of_changed_eq_zero hupdated hi hupdaters

end Agent

end PlanningAgents
