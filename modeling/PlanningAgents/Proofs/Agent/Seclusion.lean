import PlanningAgents.Proofs.Agent.History

/-!
# PlanningAgents.Proofs.Agent.Seclusion

Agents that keep to themselves.  A handler is private when it leaves the world and the pending
requests as they are; it may look at the world, and do with its own agent what it likes.  What has
private handlers only is private as well: definitions, queued actions and agents.

Nothing but a handler touches the world or asks for anything, and what is queued has its handlers
from the definition.  So a call into a private agent leaves the world and the requests as they are,
and the agent is private afterwards.

Main statements:

* `Handler.Private`, `Definition.Private`, `Agent.Private` — what keeps to itself;
* `Turn.Inward` — a later point of a call, up to which nothing but the agent has been acted on;
* `Turn.inward_after` — every call into a private agent is inward.
-/

namespace PlanningAgents

variable {W M α : Type}

/-! ## what is private -/

/-- A handler that leaves the world and the pending requests as they are. -/
def Handler.Private (h : Handler W α) : Prop :=
  ∀ c : Context W, (h.run c).2.world = c.world ∧ (h.run c).2.commands = c.commands

/-- A handler that does nothing is private. -/
theorem Handler.private_done (a : α) : (Handler.done a : Handler W α).Private :=
  fun _ => ⟨rfl, rfl⟩

/-- The behaviour of an action with private handlers. -/
structure ActionHandlers.Private (h : ActionHandlers W M) : Prop where
  start : h.start.Private
  resume (memory : M) : (h.resume memory).Private
  finish : h.finish.Private
  abort (reason : AbortReason) : (h.abort reason).Private

/-- A definition of which all handlers are private. -/
structure Definition.Private (d : Definition W M) : Prop where
  actions {name : String} {h : ActionHandlers W M} (hbound : d.bindings.actions[name]? = some h) :
    h.Private
  goalSelectors {key : String} {h : Handler W Unit}
    (hbound : d.bindings.goalSelectors[key]? = some h) : h.Private
  updaters (u : String × Handler W Unit) (hu : u ∈ d.bindings.updaters) : u.2.Private
  blackboardInit {key : String} {h : Handler W Unit}
    (hbound : d.bindings.blackboardInit[key]? = some h) : h.Private
  noPlan {h : Handler W Bool} (hbound : d.bindings.noPlan = some h) : h.Private

/-- **An agent that keeps to itself**: all handlers of its definition, and of what is queued, are
private. -/
structure Agent.Private (a : Agent W M) : Prop where
  definition : a.definition.Private
  queue (r : ActionRecord W M) (hr : r ∈ a.queue) : r.handlers.Private

namespace Agent.Private

variable {a : Agent W M}

/-- What is loaded into an agent are data. -/
theorem loadActions (h : a.Private) (specs : List ActionSpec) :
    (a.loadActions specs).2.Private := by
  rw [Agent.loadActions]
  split
  · exact { h with }
  · exact ⟨{ h.definition with }, fun _ hr => absurd hr List.not_mem_nil⟩

theorem loadWorldState (h : a.Private) (spec : EntityTypeSpec) :
    (a.loadWorldState spec).2.Private := by
  rw [Agent.loadWorldState]
  split
  · exact { h with }
  · exact { h with }

theorem loadDefinition (h : a.Private) : a.loadDefinition.2.Private := by
  rw [Agent.loadDefinition]
  split
  · exact h
  · next spec _ =>
      have hloaded := h.loadActions a.definition.data.actions
      split
      · next e b hload =>
          rw [hload] at hloaded
          exact hloaded
      · next b hload =>
          rw [hload] at hloaded
          exact hloaded.loadWorldState spec

/-- Writes from outside leave alone what handlers cannot reach. -/
theorem write (h : a.Private) (w : Write) : (a.write w).Private := by
  have hkept := a.kept_write w
  have hdefinition : (a.write w).definition = a.definition :=
    (congrArg Agent.definition hkept :)
  have hqueue : (a.write w).queue = a.queue := (congrArg Agent.queue hkept :)
  exact ⟨hdefinition ▸ h.definition, fun r hr => h.queue r (hqueue ▸ hr)⟩

end Agent.Private

/-- An agent that is made of a private definition is private. -/
theorem Agent.private_ofDefinition (entityType : String) {d : Definition W M} (h : d.Private)
    (config : AgentConfig) : (Agent.ofDefinition entityType d config).Private :=
  ⟨h, fun _ hr => absurd hr List.not_mem_nil⟩

namespace Turn

/-! ## inward calls -/

/-- **A later point of a call**, up to which nothing but the agent has been acted on. -/
structure Inward (s t : Turn W M) : Prop where
  definition : t.agent.definition.Private
  queue (r : ActionRecord W M) (hr : r ∈ t.agent.queue) : r.handlers.Private
  world : t.world = s.world
  commands : t.commands = s.commands

variable {s t u : Turn W M} {front : ActionRecord W M} {rest : List (ActionRecord W M)}

namespace Inward

theorem refl (h : t.agent.Private) : Inward t t := ⟨h.definition, h.queue, rfl, rfl⟩

theorem agent (h : Inward s t) : t.agent.Private := ⟨h.definition, h.queue⟩

/-- **Running a private handler.** -/
theorem call (h : Inward s t) {x : Handler W α} (hx : x.Private) : Inward s (t.call x).2 :=
  { h with world := (hx t.context).1.trans h.world, commands := (hx t.context).2.trans h.commands }

theorem of_call (h : Inward s t) {x : Handler W α} (hx : x.Private) {r : Except HandlerError α}
    (hcall : t.call x = (r, u)) : Inward s u := by
  have hbehind := h.call hx
  rwa [hcall] at hbehind

/-- The queue may be replaced by what has private handlers. -/
theorem withQueue (h : Inward s t) {queue : List (ActionRecord W M)}
    (hqueue : ∀ r ∈ queue, r.handlers.Private) :
    Inward s (t.mapAgent ({ · with queue })) :=
  { h with queue := hqueue }

/-! ## the front action -/

theorem mapFront (h : Inward s t) {f : ActionRecord W M → ActionRecord W M}
    (hf : ∀ r, (f r).handlers = r.handlers) : Inward s (t.mapFront f) := by
  refine h.withQueue fun r hr => ?_
  cases hcons : t.agent.queue with
  | nil =>
      rw [hcons] at hr
      exact absurd hr List.not_mem_nil
  | cons front rest =>
      rw [hcons, List.modifyHead_cons, List.mem_cons] at hr
      obtain rfl | hr := hr
      · exact hf front ▸ h.queue front (by simp [hcons])
      · exact h.queue r (by simp [hcons, hr])

/-- The front has private handlers. -/
theorem first (h : Inward s t) (hcons : t.agent.queue = front :: rest) : front.handlers.Private :=
  h.queue front (by simp [hcons])

theorem readyFront (h : Inward s t) (front : ActionRecord W M) :
    Inward s (t.readyFront front) :=
  { h.mapFront (f := ({ · with task := none, phase := .created })) fun _ => rfl with }

/-- **Starting the front.** -/
theorem startFront (h : Inward s t) : Inward s t.startFront.2 := by
  cases hcons : t.agent.queue with
  | nil =>
      rw [Turn.startFront, hcons]
      exact h
  | cons front rest =>
      rw [startFront_eq hcons]
      cases hcall : (t.readyFront front).call front.handlers.start with
      | mk r u =>
          have hstarted := (h.readyFront front).of_call (h.first hcons).start hcall
          cases r with
          | ok done => exact hstarted.mapFront fun _ => rfl
          | error e =>
              exact { hstarted.mapFront (f := ({ · with phase := .failed })) fun _ => rfl with }

theorem countRetry (h : Inward s t) : Inward s t.countRetry :=
  { h.mapFront (f := ({ · with task := none })) fun _ => rfl with }

/-- **Starting the front again and again.** -/
theorem retryFront (name : String) (left : Nat) (h : Inward s t) :
    Inward s (Turn.retryFront name left t).2 := by
  induction left generalizing t with
  | zero => exact { h with queue := fun _ hr => absurd hr List.not_mem_nil }
  | succ left ih =>
      have hagain := h.countRetry.startFront
      rw [Turn.retryFront]
      simp only [← countRetry.eq_def]
      cases hstart : t.countRetry.startFront with
      | mk started u =>
          rw [hstart] at hagain
          cases started with
          | true => exact hagain
          | false => exact ih hagain

theorem failFront (h : Inward s t) : Inward s t.failFront.2 := by
  rw [Turn.failFront]
  split
  · exact h
  · exact h.retryFront _ _

theorem startOrFail (h : Inward s t) (result : StepResult) :
    Inward s (t.startOrFail result).2 := by
  have hstarted := h.startFront
  rw [Turn.startOrFail]
  cases hstart : t.startFront with
  | mk started u =>
      rw [hstart] at hstarted
      cases started with
      | true => exact hstarted
      | false => exact hstarted.failFront

theorem popFront (h : Inward s t) (hcons : t.agent.queue = front :: rest) :
    Inward s (t.popFront front rest) := by
  have hended := (h.mapFront (f := ({ · with phase := .succeeded, task := none }))
    fun _ => rfl).call (h.first hcons).finish
  exact { hended with queue := fun r hr => hended.queue r (List.mem_of_mem_tail hr) }

/-- **Ending the front.** -/
theorem completeFront (h : Inward s t) : Inward s t.completeFront.2 := by
  cases hcons : t.agent.queue with
  | nil =>
      rw [Turn.completeFront, hcons]
      exact h
  | cons front rest =>
      rw [completeFront_eq_startOrFail hcons]
      split
      · exact h.popFront hcons
      · exact (h.popFront hcons).startOrFail _

/-- **A step of the front.** -/
theorem stepFront (h : Inward s t) : Inward s t.stepFront.2 := by
  cases hcons : t.agent.queue with
  | nil =>
      rw [Turn.stepFront, hcons]
      exact h
  | cons front rest =>
      have hempty := h.mapFront (f := ({ · with task := none })) fun _ => rfl
      rw [stepFront_eq hcons]
      split
      · exact h.startOrFail _
      · split
        · next u hcall =>
            exact (hempty.of_call ((h.first hcons).resume _) hcall).mapFront fun _ => rfl
        · next u hcall =>
            exact (hempty.of_call ((h.first hcons).resume _) hcall).mapFront fun _ => rfl
        · next u hcall => exact (hempty.of_call ((h.first hcons).resume _) hcall).completeFront
        · next u hcall =>
            have hfailed := hempty.of_call ((h.first hcons).resume _) hcall
            exact Inward.failFront { hfailed with }
        · next e u hcall =>
            have hfailed := hempty.of_call ((h.first hcons).resume _) hcall
            exact Inward.failFront { hfailed with }

/-- **Aborting the front.** -/
theorem abortFront (h : Inward s t) (reason : AbortReason) : Inward s (t.abortFront reason) := by
  rw [Turn.abortFront]
  split
  · exact h
  · next front rest hcons =>
      split
      · exact h
      · have haborted := (h.mapFront (f := ({ · with phase := .aborted, task := none }))
          fun _ => rfl).call ((h.first hcons).abort reason)
        exact { haborted with }

theorem dropQueue (h : Inward s t) : Inward s t.dropQueue :=
  { h with queue := fun _ hr => absurd hr List.not_mem_nil }

/-! ## updaters, the blackboard and planning -/

theorem runUpdaters (h : Inward s t) (updaters : List (String × Handler W Unit))
    (hprivate : ∀ u ∈ updaters, u.2.Private) : Inward s (t.runUpdaters updaters) := by
  induction updaters generalizing t with
  | nil => exact h
  | cons updater rest ih =>
      obtain ⟨hfirst, hrest⟩ := List.forall_mem_cons.mp hprivate
      rw [Turn.runUpdaters]
      split
      · next u hcall => exact ih (h.of_call hfirst hcall) hrest
      · next e u hcall => exact ih { h.of_call hfirst hcall with } hrest

theorem refresh (h : Inward s t) (external : UInt64) : Inward s (t.refresh external).2 := by
  have hupdated := h.runUpdaters _ h.definition.updaters
  simp only [Turn.refresh]
  split
  · exact hupdated
  · exact { hupdated with }

end Inward

/-- A binding that serves the agent is one of the bindings. -/
theorem exists_of_bindingFor {bindings : SortedMap String α} {x : α}
    (h : t.bindingFor bindings = some x) : ∃ key : String, bindings[key]? = some x := by
  rw [bindingFor, Option.or_eq_some_iff] at h
  obtain hown | ⟨-, hdefault⟩ := h
  · exact ⟨_, hown⟩
  · exact ⟨_, hdefault⟩

namespace Inward

/-- **Seeding the blackboard.** -/
theorem seedBlackboard (h : Inward s t) : Inward s t.seedBlackboard := by
  have hclear : Inward s t.clearBlackboard := { h with }
  rw [seedBlackboard_eq]
  split
  · exact hclear
  · next x hbound =>
      obtain ⟨key, hkey⟩ := exists_of_bindingFor hbound
      exact hclear.call (h.definition.blackboardInit hkey)

/-- What is queued has its handlers from the definition. -/
theorem enqueueFrom (h : Inward s t) (i : Nat) (names : List String) :
    Inward s (t.enqueueFrom i names) := by
  induction names generalizing t i with
  | nil => exact h
  | cons name rest ih =>
      rw [Turn.enqueueFrom]
      split
      · refine ih ?_ _
        exact { h with }
      · next handlers hbound =>
          refine ih (h.withQueue fun r hr => ?_) _
          obtain hr | rfl := List.mem_append.mp hr |>.imp_right List.mem_singleton.mp
          · exact h.queue r hr
          · exact h.definition.actions hbound

theorem queuePlan (h : Inward s t) : Inward s t.queuePlan := by
  have hseeded : Inward s (if t.seeded then t else t.seedBlackboard) := by
    split
    · exact h
    · exact h.seedBlackboard
  exact { hseeded.enqueueFrom 0 _ with }

/-- **Beginning a plan.** -/
theorem beginPlan (h : Inward s t) : Inward s t.beginPlan := by
  rw [beginPlan_eq_startOrFail]
  split
  · exact { h.queuePlan with }
  · exact { h.queuePlan.startOrFail .running with }

theorem freshPlan (h : Inward s t) : Inward s t.freshPlan :=
  { h with queue := fun _ hr => absurd hr List.not_mem_nil }

/-- **Without a usable plan.** -/
theorem handleNoPlan (h : Inward s t) (reason : String) : Inward s (t.handleNoPlan reason) := by
  have hnoted : Inward s (t.record .planFailed t.agent.describeGoal
      [("reason", reason), ("state", t.agent.describeState)]) := { h with }
  simp only [Turn.handleNoPlan]
  split
  · exact { hnoted with }
  · next x hbound =>
      have hprivate := hnoted.definition.noPlan hbound
      split
      · next e u hcall => exact { hnoted.of_call hprivate hcall with }
      · next u hcall => exact hnoted.of_call hprivate hcall
      · next u hcall =>
          have hagain : Inward s (u.makePlan.mapAgent (·.markDirty)) :=
            { hnoted.of_call hprivate hcall with }
          split
          · exact hagain.beginPlan
          · exact hagain
          · exact { hagain with }
          · exact { hagain with }

/-- **Planning.** -/
theorem planAnew (h : Inward s t) : Inward s t.planAnew.2 := by
  rw [planAnew_eq]
  split
  · exact h.freshPlan
  · exact h.freshPlan.beginPlan
  · exact h.freshPlan.handleNoPlan _
  · exact h.freshPlan.handleNoPlan _

/-- **Choosing a goal.** -/
theorem selectGoal (h : Inward s t) : Inward s t.selectGoal.2 := by
  rw [selectGoal_eq]
  split
  · exact h.planAnew
  · next x hbound =>
      obtain ⟨key, hkey⟩ := exists_of_bindingFor hbound
      have hchosen := h.call (h.definition.goalSelectors hkey)
      rw [Turn.call] at hchosen
      split
      · next e c hrun =>
          rw [hrun] at hchosen
          exact { hchosen with }
      · next c hrun =>
          rw [hrun] at hchosen
          refine Inward.planAnew ?_
          rw [choose]
          split
          · exact hchosen
          · exact { hchosen with }

/-! ## whole calls -/

theorem reactTo (h : Inward s t) (watched : UInt64) : Inward s (t.reactTo watched) := by
  rw [Turn.reactTo]
  exact Inward.selectGoal { (h.abortFront .worldStateChanged).dropQueue with }

theorem respond (h : Inward s t) (result : StepResult) (changed : UInt64) :
    Inward s (t.respond result changed).2 := by
  simp only [Turn.respond]
  split
  · exact h.reactTo _
  · cases result with
    | needsPlan => exact h.selectGoal
    | retriesExhausted => exact h.selectGoal
    | running => exact h
    | succeeded => exact h
    | retrying => exact h

/-- **A tick.** -/
theorem step (h : Inward s t) : Inward s t.step.2 := by
  rw [step_eq]
  exact { (h.stepFront.refresh (t.agent.current.changed t.agent.cached)).respond _ _ with }

end Inward

/-- **Every call into a private agent** leaves the world and the pending requests as they are, and
the agent is private afterwards. -/
theorem inward_after (h : t.agent.Private) (call : Call) : Inward t (t.after call) := by
  have hbegin : Inward t t := .refl h
  cases call with
  | launch => exact hbegin.seedBlackboard.selectGoal
  | step => exact hbegin.step
  | replan => exact (hbegin.abortFront .replan).planAnew
  | replanTo goal merge =>
      have hchanged : Inward t (t.changeGoal goal merge) := { hbegin with }
      exact (hchanged.abortFront .replan).dropQueue.planAnew
  | interrupt =>
      have hnoted : Inward t t.noteInterrupt := { hbegin with }
      exact (hnoted.abortFront .interrupt).dropQueue.seedBlackboard.selectGoal

end Turn

end PlanningAgents
