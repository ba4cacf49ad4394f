import PlanningAgents.Proofs.Agent.Course

/-!
# PlanningAgents.Proofs.Agent.Coherence

The queue of an agent always agrees with its plan.  Between calls it holds exactly the actions of
the plan that have handlers and are not done yet, in the order of the plan, the first of them under
way and the others not started (`Agent.Coherent`).  Every call starts and ends at rest, whatever its
handlers do, and so does everything else that can be done to an agent.

Main statements:

* `Agent.atRest_markDirty` — a new plan leaves the agent at rest;
* `Turn.atRest_beginPlan`, `Turn.atRest_planAnew`, `Turn.atRest_selectGoal` — so does beginning a
  plan, planning and choosing a goal to plan for;
* `Agent.Reachable.coherent` — every agent that came about by its own operations is coherent.
-/

namespace PlanningAgents

variable {W M : Type}

/-! ## new plans -/

namespace Agent

variable {a b : Agent W M}

/-- **A new plan** leaves the agent at rest, and marks it as dirty unless the plan is found. -/
theorem atRest_markDirty (hbuilt : a.planner.Built) (hqueue : a.queue = [])
    (hindex : a.actionIndex = 0) {start goal : WorldState}
    (hplan : a.plan = a.planner.plan start goal) : a.markDirty.AtRest := by
  have hknown : ∀ name ∈ a.plan.actions, ∃ x, a.planner.action? name = some x := by
    rw [hplan]
    exact fun name hname => Planner.action?_of_mem_planWithCap hbuilt hname
  have hle : a.actionIndex ≤ a.plan.length := hindex ▸ Nat.zero_le _
  have husable : a.planIsUnusable = false → a.plan.outcome = .found := by
    intro hclean
    simp only [planIsUnusable, Bool.or_eq_false_iff, decide_eq_false_iff_not] at hclean
    obtain ⟨⟨hne, hcost⟩, hlength⟩ := hclean
    rw [hplan] at hne hcost hlength ⊢
    exact Planner.outcome_plan hbuilt hne (Int.not_lt.mp hcost) hlength
  exact atRest_of_queue_eq_nil hqueue hbuilt hknown hle husable

/-- What is queued are the actions that have handlers, in their order. -/
theorem map_place_filterMap_recordAt? (a : Agent W M) (places : List (String × Nat)) :
    (places.filterMap a.recordAt?).map ActionRecord.place =
      places.filter fun place => a.definition.bindings.actions[place.1]?.isSome := by
  induction places with
  | nil => rfl
  | cons place rest ih =>
      cases hbound : a.definition.bindings.actions[place.1]? with
      | none =>
          have hnone : a.recordAt? place = none := by simp [recordAt?, hbound]
          rw [List.filterMap_cons_none hnone, List.filter_cons_of_neg (by
            rw [hbound]
            exact Bool.false_ne_true)]
          exact ih
      | some handlers =>
          obtain ⟨r, hr⟩ : ∃ r, a.recordAt? place = some r := by simp [recordAt?, hbound]
          rw [List.filterMap_cons_some hr, List.filter_cons_of_pos (by rw [hbound]; rfl),
            List.map_cons, ih, (of_recordAt?_eq_some hr).1]

/-- **Queueing a found plan** puts all of it on course. -/
theorem OnCourse.enqueue (h : a.OnCourse) (hfound : a.plan.outcome = .found) :
    OnCourse { a with queue := a.plan.actions.zipIdx.filterMap a.recordAt? } := by
  refine { h with found := fun _ => hfound, suffix := ?_, describes := ?_, waiting := ?_ }
  · rw [map_place_filterMap_recordAt?]
    exact List.suffix_refl _
  · intro r hr
    obtain ⟨place, hplace, hrecord⟩ := List.mem_filterMap.mp hr
    obtain ⟨rfl, hbound, hpost, -, -⟩ := of_recordAt?_eq_some hrecord
    obtain ⟨x, hx⟩ := h.known r.name (List.fst_mem_of_mem_zipIdx hplace)
    refine ⟨hbound, x, hx, ?_⟩
    rw [hpost]
    simp [ActionRecord.place, hx]
  · intro r hr
    obtain ⟨place, -, hrecord⟩ := List.mem_filterMap.mp (List.mem_of_mem_tail hr)
    obtain ⟨-, -, -, hphase, htask⟩ := of_recordAt?_eq_some hrecord
    exact ⟨hphase, htask⟩

end Agent

namespace Turn

variable {t : Turn W M}

/-! ## beginning a plan -/

/-- Queueing a found plan, with the blackboard seeded, puts all of it on course. -/
theorem onCourse_queuePlan (h : t.agent.OnCourse) (hqueue : t.agent.queue = [])
    (hfound : t.agent.plan.outcome = .found) : t.queuePlan.agent.OnCourse := by
  have hseeded : (if t.seeded then t else t.seedBlackboard).agent.kept = t.agent.kept := by
    split
    · rfl
    · exact t.kept_seedBlackboard
  rw [queuePlan]
  generalize (if t.seeded then t else t.seedBlackboard) = u at hseeded ⊢
  have hplan : u.agent.plan = t.agent.plan := (congrArg Agent.plan hseeded :)
  have hempty : u.agent.queue = [] := (congrArg Agent.queue hseeded).trans hqueue
  have hqueued := (h.of_kept_eq hseeded).enqueue (hplan ▸ hfound)
  refine hqueued.of_kept_eq ?_
  rw [kept_record, agent_enqueueFrom, hempty]
  rfl

/-- Remembering where a plan starts leaves the agent at rest. -/
theorem atRest_markStart (h : t.agent.AtRest) :
    (t.mapAgent fun a => { a with planStart := a.current, cached := a.current }).agent.AtRest :=
  { h with }

/-- **Beginning a plan** leaves the agent at rest, whether or not its first action starts. -/
theorem atRest_beginPlan (h : t.agent.OnCourse) (hqueue : t.agent.queue = [])
    (hfound : t.agent.plan.outcome = .found) : t.beginPlan.agent.AtRest := by
  have hqueued := onCourse_queuePlan h hqueue hfound
  rw [beginPlan_eq]
  apply atRest_markStart
  split
  · next hnil =>
      have hend := hqueued.setIndex (Nat.le_refl _)
      exact hend.atRest (List.isEmpty_iff.mp hnil)
  · next hne =>
      rw [List.isEmpty_iff] at hne
      split
      · next u hstart => exact (onCourse_startFront hqueued hne hstart).2.2 rfl
      · next u hstart => exact atRest_failFront (onCourse_startFront hqueued hne hstart).1

/-- Without a usable plan the agent is left at rest, whatever the handler for that case does. -/
theorem atRest_handleNoPlan (h : t.agent.AtRest) (hqueue : t.agent.queue = [])
    (hindex : t.agent.actionIndex = 0) (reason : String) :
    (t.handleNoPlan reason).agent.AtRest := by
  simp only [handleNoPlan]
  split
  · exact h.of_kept_eq rfl
  · next handler _ =>
      split
      · next e u hcall =>
          have hkept := kept_of_call hcall
          exact h.of_kept_eq hkept
      · next u hcall =>
          have hkept := kept_of_call hcall
          exact h.of_kept_eq hkept
      · next u hcall =>
          -- one more attempt: the handler may have changed the goal, but not the empty queue
          have hkept := kept_of_call hcall
          have hu := h.toOnCourse.of_kept_eq hkept
          have hempty : u.agent.queue = [] := (congrArg Agent.queue hkept).trans hqueue
          have hzero : u.agent.actionIndex = 0 := (congrArg Agent.actionIndex hkept).trans hindex
          have hagain : (u.makePlan.mapAgent (·.markDirty)).agent.AtRest :=
            Agent.atRest_markDirty hu.built hempty hzero rfl
          split
          · next hfound => exact atRest_beginPlan hagain.toOnCourse hempty hfound
          · exact hagain
          · exact hagain.of_kept_eq rfl
          · exact hagain.of_kept_eq rfl

/-- **Planning** leaves the agent at rest. -/
theorem atRest_planAnew (h : t.agent.OnCourse) : t.planAnew.2.agent.AtRest := by
  have hfresh : t.freshPlan.agent.AtRest :=
    Agent.atRest_markDirty h.built rfl rfl rfl
  rw [planAnew_eq]
  cases hout : t.freshPlan.agent.plan.outcome with
  | atGoal => exact hfresh
  | found => exact atRest_beginPlan hfresh.toOnCourse rfl hout
  | notFound => exact atRest_handleNoPlan hfresh rfl rfl _
  | truncated => exact atRest_handleNoPlan hfresh rfl rfl _

/-- **Choosing a goal**, and planning for it, leaves the agent at rest. -/
theorem atRest_selectGoal (h : t.agent.AtRest) : t.selectGoal.2.agent.AtRest := by
  cases hbinding : t.bindingFor t.agent.definition.bindings.goalSelectors with
  | none =>
      rw [selectGoal, hbinding]
      exact atRest_planAnew h.toOnCourse
  | some selector =>
      cases hrun : selector.run t.context with
      | mk result c =>
          have hchosen : (t.absorb c).agent.AtRest := h.of_kept_eq rfl
          simp only [selectGoal, hbinding, hrun]
          cases result with
          | error e => exact hchosen.of_kept_eq rfl
          | ok done =>
              cases c.goalReported with
              | true => exact atRest_planAnew hchosen.toOnCourse
              | false => exact atRest_planAnew (hchosen.toOnCourse.of_kept_eq rfl)

/-! ## whole calls -/

theorem atRest_seedBlackboard (h : t.agent.AtRest) : t.seedBlackboard.agent.AtRest :=
  h.of_kept_eq t.kept_seedBlackboard

theorem atRest_launch (h : t.agent.AtRest) : t.launch.2.agent.AtRest :=
  atRest_selectGoal (atRest_seedBlackboard h)

/-- Dropping a plan because of a change leaves the agent at rest. -/
theorem atRest_reactTo (h : t.agent.OnCourse) (watched : UInt64) :
    (t.reactTo watched).agent.AtRest := by
  have hdrop := atRest_dropQueue (onCourse_abortFront h .worldStateChanged)
  exact atRest_selectGoal (hdrop.of_kept_eq rfl)

theorem atRest_respond (h : t.agent.AtRest) (result : StepResult) (changed : UInt64) :
    (t.respond result changed).2.agent.AtRest := by
  simp only [respond]
  split
  · exact atRest_reactTo h.toOnCourse _
  · cases result with
    | needsPlan => exact atRest_selectGoal h
    | retriesExhausted => exact atRest_selectGoal h
    | running => exact h
    | succeeded => exact h
    | retrying => exact h

/-- **A tick** leaves the agent at rest. -/
theorem atRest_step (h : t.agent.AtRest) : t.step.2.agent.AtRest := by
  rw [step_eq]
  have hfront := atRest_stepFront h
  have hrefresh := hfront.of_kept_eq
    (t.stepFront.2.kept_refresh (t.agent.current.changed t.agent.cached))
  have hresponse := atRest_respond hrefresh t.stepFront.1
    (t.stepFront.2.refresh (t.agent.current.changed t.agent.cached)).1
  exact { hresponse with }

theorem atRest_replan (h : t.agent.AtRest) : t.replan.2.agent.AtRest :=
  atRest_planAnew (onCourse_abortFront h.toOnCourse .replan)

theorem atRest_replanTo (h : t.agent.AtRest) (goal : WorldState) (merge : Bool) :
    (t.replanTo goal merge).2.agent.AtRest := by
  refine atRest_planAnew (atRest_dropQueue (onCourse_abortFront ?_ .replan)).toOnCourse
  exact h.toOnCourse.of_kept_eq rfl

theorem atRest_interrupt (h : t.agent.AtRest) : t.interrupt.2.agent.AtRest := by
  refine atRest_selectGoal (atRest_seedBlackboard (atRest_dropQueue (onCourse_abortFront ?_ _)))
  exact h.toOnCourse.of_kept_eq rfl

end Turn

/-! ## loading -/

namespace Agent

variable {a : Agent W M}

/-- An agent into which nothing has been loaded is at rest. -/
theorem atRest_ofDefinition (entityType : String) (definition : Definition W M)
    (config : AgentConfig) : (ofDefinition entityType definition config).AtRest :=
  atRest_of_queue_eq_nil rfl (.empty _ _) nofun (Nat.zero_le _) nofun

/-- Marking an agent as dirty leaves it at rest. -/
theorem AtRest.setDirty (h : a.AtRest) : AtRest { a with dirty := true } :=
  { h with usable := nofun }

/-- Loading actions leaves the agent at rest, whether or not it succeeds. -/
theorem atRest_loadActions (h : a.AtRest) (specs : List ActionSpec) :
    (a.loadActions specs).2.AtRest := by
  rw [loadActions]
  split
  · exact h.setDirty
  · next planner states hload =>
      have hbuilt := built_of_buildPlanner hload
      exact atRest_of_queue_eq_nil rfl hbuilt nofun (Nat.zero_le _) nofun

/-- Loading a world state leaves the agent at rest, whether or not it succeeds. -/
theorem atRest_loadWorldState (h : a.AtRest) (spec : EntityTypeSpec) :
    (a.loadWorldState spec).2.AtRest := by
  rw [loadWorldState]
  split
  · exact h.setDirty
  · exact { h with built := h.built.withAtoms _ }

/-- Loading a definition leaves the agent at rest, however far it gets. -/
theorem atRest_loadDefinition (h : a.AtRest) : a.loadDefinition.2.AtRest := by
  rw [loadDefinition]
  split
  · exact h
  · have hactions := atRest_loadActions h a.definition.data.actions
    split
    · next e b hload =>
        rw [hload] at hactions
        exact hactions
    · next b hload =>
        rw [hload] at hactions
        exact atRest_loadWorldState hactions _

/-- **Every agent is at rest between calls.** -/
theorem Reachable.atRest (h : a.Reachable) : a.AtRest := by
  induction h with
  | ofDefinition entityType definition config => exact atRest_ofDefinition _ _ _
  | loadDefinition _ ih => exact atRest_loadDefinition ih
  | loadActions _ specs ih => exact atRest_loadActions ih specs
  | loadWorldState _ spec ih => exact atRest_loadWorldState ih spec
  | setAtom _ atom value ih => exact ih.of_kept_eq (kept_setAtom _ atom value)
  | patchAtom _ atom value ih => exact ih.of_kept_eq (kept_patchAtom _ atom value)
  | encode _ pairs ih => exact ih.of_kept_eq (kept_encode _ pairs)
  | setGoal _ pairs ih => exact ih.of_kept_eq (kept_setGoal _ pairs)
  | mergeGoal _ pairs ih => exact ih.of_kept_eq (kept_mergeGoal _ pairs)
  | changeBlackboard _ f ih => exact ih.of_kept_eq rfl
  | changeTrace _ f ih => exact ih.of_kept_eq rfl
  | launch _ _ ih => exact Turn.atRest_launch ih
  | step _ _ ih => exact Turn.atRest_step ih
  | replan _ _ ih => exact Turn.atRest_replan ih
  | replanTo _ _ goal merge ih => exact Turn.atRest_replanTo ih goal merge
  | interrupt _ _ ih => exact Turn.atRest_interrupt ih

/-! ## queue and plan -/

/-- Queue and plan agree. -/
structure Coherent (a : Agent W M) : Prop where
  index_le : a.actionIndex ≤ a.plan.length
  usable : a.dirty = false → a.plan.outcome = .found
  found : a.queue ≠ [] → a.plan.outcome = .found
  /-- The queue holds the actions that have handlers and are not done yet, in their order. -/
  places : a.queue ≠ [] →
    a.queue.map ActionRecord.place = a.steps.filter fun place => a.actionIndex ≤ place.2
  describes : ∀ r ∈ a.queue, a.plan.actions[r.planIndex]? = some r.name ∧ a.Describes r
  /-- The first of them is under way, and the others are not started. -/
  front : ∀ front rest, a.queue = front :: rest → a.actionIndex = front.planIndex ∧
    (front.phase = .running ∨ front.phase = .suspended) ∧
    ∀ r ∈ rest, r.phase = .created ∧ r.task = none
  task : ∀ r ∈ a.queue, (r.task.isSome ↔ r.phase = .suspended)

/-- The steps of a plan stand in its order. -/
theorem pairwise_steps (a : Agent W M) : a.steps.Pairwise (·.2 < ·.2) := by
  refine List.Pairwise.filter _ ?_
  rw [← List.pairwise_map (R := (· < ·)), List.zipIdx_map_snd]
  exact List.pairwise_lt_range' _

/-- The end of an ordered list is what does not come before its first element. -/
theorem eq_filter_of_suffix {places places' : List (String × Nat)} {first : String × Nat}
    (hsorted : places'.Pairwise (·.2 < ·.2)) (h : first :: places <:+ places') :
    first :: places = places'.filter fun place => first.2 ≤ place.2 := by
  obtain ⟨before, rfl⟩ := h
  obtain ⟨-, hend, hcross⟩ := List.pairwise_append.mp hsorted
  have hbefore : before.filter (fun place => first.2 ≤ place.2) = [] := by
    rw [List.filter_eq_nil_iff]
    intro place hplace
    simpa using hcross place hplace first List.mem_cons_self
  have hafter : (first :: places).filter (fun place => first.2 ≤ place.2) = first :: places := by
    rw [List.filter_eq_self]
    intro place hplace
    obtain rfl | hplace := List.mem_cons.mp hplace
    · simp
    · have hlt := List.rel_of_pairwise_cons hend hplace
      simpa using Nat.le_of_lt hlt
  rw [List.filter_append, hbefore, hafter, List.nil_append]

/-- What is at rest is coherent. -/
theorem coherent_of_atRest (h : a.AtRest) : a.Coherent where
  index_le := h.index_le
  usable := h.usable
  found := h.found
  places hne := by
    obtain ⟨front, rest, hcons⟩ := List.exists_cons_of_ne_nil hne
    obtain ⟨hindex, -, -⟩ := h.front front (by rw [hcons]; rfl)
    have hsuffix := h.suffix
    rw [hcons, List.map_cons] at hsuffix ⊢
    rw [hindex]
    exact eq_filter_of_suffix a.pairwise_steps hsuffix
  describes r hr := by
    have hmem : r.place ∈ a.steps := h.suffix.subset (List.mem_map_of_mem hr)
    exact ⟨List.mem_zipIdx_iff_getElem?.mp (List.mem_of_mem_filter hmem), h.describes r hr⟩
  front front rest hcons := by
    obtain ⟨hindex, hrunning, -⟩ := h.front front (by rw [hcons]; rfl)
    refine ⟨hindex, by simpa [ActionRecord.isRunning] using hrunning, fun r hr => ?_⟩
    exact h.waiting r (by rw [hcons]; exact hr)
  task r hr := by
    cases hcons : a.queue with
    | nil =>
        rw [hcons] at hr
        exact absurd hr List.not_mem_nil
    | cons front rest =>
        rw [hcons] at hr
        obtain rfl | hr := List.mem_cons.mp hr
        · exact (h.front r (by rw [hcons]; rfl)).2.2
        · obtain ⟨hphase, htask⟩ := h.waiting r (by rw [hcons]; exact hr)
          simp [hphase, htask]

/-- **The queue always agrees with the plan**, in every agent that came about by its own operations,
with any handlers and in any order. -/
theorem Reachable.coherent (h : a.Reachable) : a.Coherent :=
  coherent_of_atRest h.atRest

/-- The work on the raft is parked, launching it is skipped, and the rest of the plan waits. -/
theorem coherent_travellerAtWork :
    travellerAtWork.Reachable ∧ travellerAtWork.Coherent ∧
      travellerAtWork.queue.map (fun r => (r.place, r.phase)) =
        [(("build_raft", 0), .suspended), (("row", 2), .created), (("walk_home", 3), .created)] :=
  ⟨reachable_travellerAtWork, reachable_travellerAtWork.coherent, by decide +kernel⟩

end Agent

end PlanningAgents
