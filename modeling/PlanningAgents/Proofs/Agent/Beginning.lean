import PlanningAgents.Proofs.Agent.Lifecycle
import PlanningAgents.Proofs.Agent.Reaction

/-!
# PlanningAgents.Proofs.Agent.Beginning

How agents come to begin plans.  Whenever a call plans anew, and leaves the agent busy, its last
part is to begin a plan that has just been found for the state and the goal as they are then, while
nothing is queued (`Agent.PlanReady`).  Whatever is proved of the beginning of such a plan is
thereby proved of every plan that an agent sets out on.

Main statements:

* `Turn.endsAnew_planAnew`, `Turn.endsAnew_selectGoal`, `Turn.endsAnew_after` — planning, the choice
  of a goal and every call that plans anew end so;
* `Agent.Reachable.exists_planReady` — what an agent has done before it is busy with a new plan.
-/

namespace PlanningAgents

variable {W M : Type}

/-- **A plan has been found** for the state and the goal as they are, and nothing is queued. -/
structure Agent.PlanReady (a : Agent W M) : Prop where
  built : a.planner.Built
  queue : a.queue = []
  plan : a.plan = a.planner.plan a.current a.goal
  found : a.plan.outcome = .found

namespace Turn

variable {t u : Turn W M}

/-- A part of a call ends with nothing queued, or by beginning a plan that it has just found. -/
def EndsAnew (notes : List (Note W M)) (t : Turn W M) : Prop :=
  t.agent.queue = [] ∨ ∃ (u : Turn W M) (earlier : List (Note W M)),
    u.agent.PlanReady ∧ t = u.beginPlan ∧ notes = earlier ++ u.beginNotes

theorem EndsAnew.append {notes : List (Note W M)} (h : EndsAnew notes t)
    (earlier : List (Note W M)) : EndsAnew (earlier ++ notes) t := by
  obtain hqueue | ⟨u, notes', hready, rfl, rfl⟩ := h
  · exact .inl hqueue
  · exact .inr ⟨u, earlier ++ notes', hready, rfl, (List.append_assoc _ _ _).symm⟩

theorem endsAnew_beginPlan (hready : u.agent.PlanReady) : EndsAnew u.beginNotes u.beginPlan :=
  .inr ⟨u, [], hready, rfl, rfl⟩

theorem endsAnew_handleNoPlan (t : Turn W M) (hbuilt : t.agent.planner.Built)
    (hqueue : t.agent.queue = []) (reason : String) :
    EndsAnew (t.noPlanNotes reason) (t.handleNoPlan reason) := by
  simp only [handleNoPlan, noPlanNotes]
  generalize hnoted : t.record .planFailed t.agent.describeGoal
    [("reason", reason), ("state", t.agent.describeState)] = u
  have hkept : u.agent.kept = t.agent.kept := hnoted ▸ rfl
  have hempty : u.agent.queue = [] := (congrArg Agent.queue hkept).trans hqueue
  cases u.agent.definition.bindings.noPlan with
  | none => exact .inl hempty
  | some h =>
      simp only
      cases hcall : u.call h with
      | mk r v =>
          have hsame := (kept_of_call hcall).trans hkept
          have hrest : v.agent.queue = [] := (congrArg Agent.queue hsame).trans hqueue
          cases r with
          | error e => exact .inl hrest
          | ok again =>
              cases again with
              | false => exact .inl hrest
              | true =>
                  have hplanner : v.agent.planner.Built := by
                    rw [Agent.eq_of_kept_eq hsame]
                    exact hbuilt.withAtoms _
                  simp only
                  generalize hagain : v.makePlan.mapAgent (·.markDirty) = w
                  have hplan : w.agent.plan =
                      w.agent.planner.plan w.agent.current w.agent.goal := hagain ▸ rfl
                  have hnone : w.agent.queue = [] := hagain ▸ hrest
                  have hw : w.agent.planner.Built := hagain ▸ hplanner
                  cases houtcome : w.agent.plan.outcome with
                  | found =>
                      have hready : w.agent.PlanReady := ⟨hw, hnone, hplan, houtcome⟩
                      exact (endsAnew_beginPlan hready).append [_]
                  | atGoal => exact .inl hnone
                  | notFound => exact .inl hnone
                  | truncated => exact .inl hnone

/-- **Planning** ends so. -/
theorem endsAnew_planAnew (t : Turn W M) (hbuilt : t.agent.planner.Built) :
    EndsAnew t.planNotes t.planAnew.2 := by
  have hqueue := t.queue_freshPlan
  have hplan := t.plan_freshPlan
  rw [← planner_freshPlan] at hbuilt
  rw [← planner_freshPlan, ← current_freshPlan, ← goal_freshPlan] at hplan
  rw [planAnew_eq, planNotes]
  generalize t.freshPlan = u at hbuilt hqueue hplan ⊢
  cases houtcome : u.agent.plan.outcome with
  | atGoal => exact .inl hqueue
  | found => exact endsAnew_beginPlan ⟨hbuilt, hqueue, hplan, houtcome⟩
  | notFound => exact endsAnew_handleNoPlan u hbuilt hqueue _
  | truncated => exact endsAnew_handleNoPlan u hbuilt hqueue _

/-- **The choice of a goal** ends so, unless it fails while the agent is busy. -/
theorem endsAnew_selectGoal (t : Turn W M) (hbuilt : t.agent.planner.Built)
    (h : t.selectGoal.1 ≠ none ∨ t.agent.queue = []) :
    EndsAnew t.selectNotes t.selectGoal.2 := by
  obtain ⟨hnone, hkept⟩ | ⟨hsome, -⟩ := t.selectGoal_cases
  · exact .inl ((congrArg Agent.queue hkept).trans (h.resolve_left fun hne => hne hnone))
  · rw [selectGoal] at hsome
    rw [selectGoal_eq, selectNotes]
    cases hbinding : t.bindingFor t.agent.definition.bindings.goalSelectors with
    | none => exact endsAnew_planAnew t hbuilt
    | some selector =>
        rw [hbinding] at hsome
        simp only at hsome ⊢
        cases hrun : selector.run t.context with
        | mk r c =>
            rw [hrun] at hsome
            cases r with
            | error e => exact absurd rfl hsome
            | ok done =>
                have hchosen : (t.choose c).agent.planner.Built := by
                  rw [choose]
                  split
                  · exact hbuilt.withAtoms _
                  · exact hbuilt.withAtoms _
                exact (endsAnew_planAnew _ hchosen).append [_]

/-- A response that plans anew ends so. -/
theorem endsAnew_respond (h : t.agent.AtRest) {result : StepResult} {changed : UInt64}
    (hresult : result.goesOn = true ∨ t.agent.queue = []) {reason : ReplanReason}
    (hanew : (t.respond result changed).1 = .replanned reason) :
    EndsAnew (t.respondNotes result changed) (t.respond result changed).2 := by
  simp only [respond, respondNotes] at hanew ⊢
  split
  · have hdropped : (t.dropChanged
        (((t.agent.queue.head?.map (·.watchMask)).getD 0) &&& changed)).agent.planner.Built :=
      (atRest_dropQueue (onCourse_abortFront h.toOnCourse .worldStateChanged)).built
    exact (endsAnew_selectGoal _ hdropped (.inr rfl)).append _
  · next hwatched =>
      rw [if_neg hwatched] at hanew
      have hselect (hqueue : t.agent.queue = []) : EndsAnew t.selectNotes t.selectGoal.2 :=
        endsAnew_selectGoal t h.built (.inr hqueue)
      cases result with
      | needsPlan => exact hselect (hresult.resolve_left Bool.false_ne_true)
      | retriesExhausted => exact hselect (hresult.resolve_left Bool.false_ne_true)
      | running => cases hanew
      | succeeded => cases hanew
      | retrying => cases hanew

/-- The call plans anew: a tick may not have to, and a launch may find no goal. -/
def PlansAnew (t : Turn W M) : Call → Prop
  | .launch => t.launch.1 ≠ none
  | .step => ∃ reason, t.step.1 = .replanned reason
  | .replan | .replanTo _ _ | .interrupt => True

/-- What is kept for comparison is up to date where a plan has just been begun. -/
theorem agent_beginPlan_cached (u : Turn W M) :
    (u.beginPlan.mapAgent fun a => { a with cached := a.current }).agent = u.beginPlan.agent := by
  rw [beginPlan_eq]
  rfl

/-- **Every call that plans anew** ends with nothing queued, or by beginning a plan that it has just
found. -/
theorem endsAnew_after (h : t.agent.AtRest) {call : Call} (hplans : t.PlansAnew call) :
    ∃ v, EndsAnew (t.journal call) v ∧ (t.after call).agent = v.agent := by
  cases call with
  | launch =>
      rw [journal_eq]
      have hseeded := (atRest_seedBlackboard h).built
      exact ⟨_, (endsAnew_selectGoal _ hseeded (.inl hplans)).append t.seedNotes, rfl⟩
  | replan =>
      rw [journal_eq]
      have haborted := (onCourse_abortFront h.toOnCourse .replan).built
      exact ⟨_, (endsAnew_planAnew _ haborted).append (t.abortNotes .replan), rfl⟩
  | replanTo goal merge =>
      have hgoal : (t.changeGoal goal merge).agent.AtRest := h.of_kept_eq rfl
      rw [journal_eq]
      have hdropped := (atRest_dropQueue (onCourse_abortFront hgoal.toOnCourse .replan)).built
      exact ⟨_, (endsAnew_planAnew _ hdropped).append
        ((t.changeGoal goal merge).abortNotes .replan), rfl⟩
  | interrupt =>
      have hnoted : t.noteInterrupt.agent.AtRest := h.of_kept_eq rfl
      have hseeded := atRest_seedBlackboard
        (atRest_dropQueue (onCourse_abortFront hnoted.toOnCourse .interrupt))
      have hqueue : (t.noteInterrupt.abortFront .interrupt).dropQueue.seedBlackboard.agent.queue =
          [] := (congrArg Agent.queue (kept_seedBlackboard _) :)
      rw [journal_eq]
      exact ⟨_, ((endsAnew_selectGoal _ hseeded.built (.inr hqueue)).append _).append
        (t.noteInterrupt.abortNotes .interrupt), rfl⟩
  | step =>
      obtain ⟨reason, hreplanned⟩ := hplans
      have hkept := t.stepFront.2.kept_refresh (t.agent.current.changed t.agent.cached)
      have hrest := (atRest_stepFront h).of_kept_eq hkept
      have hgoes := goesOn_stepFront t
      rw [← t.stepFront.2.queue_refresh (t.agent.current.changed t.agent.cached)] at hgoes
      rw [step_eq] at hreplanned
      have hrespond := endsAnew_respond hrest hgoes hreplanned
      obtain hidle | ⟨u, earlier, hready, hbegin, hnotes⟩ := hrespond
      · exact ⟨t.step.2, .inl hidle, rfl⟩
      · have hjournal := t.journal_step
        rw [hnotes, ← List.append_assoc] at hjournal
        refine ⟨u.beginPlan, .inr ⟨u, _, hready, rfl, hjournal⟩, ?_⟩
        rw [after, step_eq]
        simp only [hbegin]
        exact agent_beginPlan_cached u

end Turn

/-- **Every plan that an agent sets out on** has just been found for the state and the goal as they
are, and all that the call does from then on is to begin it. -/
theorem Agent.Reachable.exists_planReady {t : Turn W M} (h : t.agent.Reachable) {call : Call}
    (hplans : t.PlansAnew call) (hbusy : (t.after call).agent.queue ≠ []) :
    ∃ (u : Turn W M) (earlier : List (Note W M)), u.agent.PlanReady ∧
      (t.after call).agent = u.beginPlan.agent ∧ t.journal call = earlier ++ u.beginNotes := by
  obtain ⟨v, hanew, hagent⟩ := Turn.endsAnew_after h.atRest hplans
  obtain hidle | ⟨u, earlier, hready, rfl, hnotes⟩ := hanew
  · exact absurd (hagent ▸ hidle) hbusy
  · exact ⟨u, earlier, hready, hagent, hnotes⟩

end PlanningAgents
