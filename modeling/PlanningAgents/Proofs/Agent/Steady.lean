import PlanningAgents.Proofs.Agent.Reachable
import PlanningAgents.Proofs.Atoms.Registration

/-!
# PlanningAgents.Proofs.Agent.Steady

What calls and writes do not change.  A call carries out and makes plans, and a write from outside
changes the state, the goal or the notes of an agent.  None of them touches the definition of the
agent, the actions and settings of its planner, or its versions, and to the names of its atoms they
only add.  Each part of a call is followed once, so that later proofs can take this for granted.

Main statements:

* `Agent.Continues` — an agent differs from an earlier one only by what calls and writes do;
* `Agent.continues_write`, `Turn.continues_after` — every write and every call leaves the agent so.
-/

namespace PlanningAgents

variable {W M α : Type}

/-! ## calls and writes -/

/-- A call into an agent. -/
inductive Call where
  | launch
  | step
  | replan
  | replanTo (goal : WorldState) (merge : Bool)
  | interrupt
  deriving DecidableEq, Repr

/-- Makes a call. -/
def Turn.after (t : Turn W M) : Call → Turn W M
  | .launch => t.launch.2
  | .step => t.step.2
  | .replan => t.replan.2
  | .replanTo goal merge => (t.replanTo goal merge).2
  | .interrupt => t.interrupt.2

/-- A write to an agent from outside of its calls. -/
inductive Write where
  | setAtom (atom : String) (value : Bool)
  | patchAtom (atom : String) (value : Bool)
  | encode (pairs : List (String × Bool))
  | setGoal (pairs : List (String × Bool))
  | mergeGoal (pairs : List (String × Bool))
  | changeBlackboard (f : Blackboard → Blackboard)
  | changeTrace (f : TraceBuffer → TraceBuffer)

namespace Agent

/-- Makes a write. -/
def write (a : Agent W M) : Write → Agent W M
  | .setAtom atom value => (a.setAtom atom value).2
  | .patchAtom atom value => (a.patchAtom atom value).2
  | .encode pairs => (a.encode pairs).2
  | .setGoal pairs => (a.setGoal pairs).2
  | .mergeGoal pairs => (a.mergeGoal pairs).2
  | .changeBlackboard f => { a with blackboard := f a.blackboard }
  | .changeTrace f => { a with trace := f a.trace }

theorem Reachable.write {a : Agent W M} (h : a.Reachable) (w : Write) : (a.write w).Reachable := by
  cases w with
  | setAtom atom value => exact h.setAtom atom value
  | patchAtom atom value => exact h.patchAtom atom value
  | encode pairs => exact h.encode pairs
  | setGoal pairs => exact h.setGoal pairs
  | mergeGoal pairs => exact h.mergeGoal pairs
  | changeBlackboard f => exact h.changeBlackboard f
  | changeTrace f => exact h.changeTrace f

theorem Reachable.after {t : Turn W M} (h : t.agent.Reachable) (hbegin : t.seeded = false)
    (call : Call) : (t.after call).agent.Reachable := by
  cases call with
  | launch => exact h.launch hbegin
  | step => exact h.step hbegin
  | replan => exact h.replan hbegin
  | replanTo goal merge => exact h.replanTo hbegin goal merge
  | interrupt => exact h.interrupt hbegin

/-- **What all operations keep is true of every agent.**  They are loads, writes and calls. -/
@[elab_as_elim]
theorem Reachable.inductOn {motive : ∀ a : Agent W M, a.Reachable → Prop}
    (ofDefinition : ∀ (entityType : String) (definition : Definition W M) (config : AgentConfig),
      motive _ (.ofDefinition entityType definition config))
    (loadDefinition : ∀ {a : Agent W M} (h : a.Reachable), motive a h → motive _ h.loadDefinition)
    (loadActions : ∀ {a : Agent W M} (h : a.Reachable) (specs : List ActionSpec), motive a h →
      motive _ (h.loadActions specs))
    (loadWorldState : ∀ {a : Agent W M} (h : a.Reachable) (spec : EntityTypeSpec), motive a h →
      motive _ (h.loadWorldState spec))
    (write : ∀ {a : Agent W M} (h : a.Reachable) (w : Write), motive a h → motive _ (h.write w))
    (after : ∀ {t : Turn W M} (h : t.agent.Reachable) (hbegin : t.seeded = false) (call : Call),
      motive _ h → motive _ (h.after hbegin call))
    {a : Agent W M} (h : a.Reachable) : motive a h := by
  induction h with
  | ofDefinition entityType definition config => exact ofDefinition entityType definition config
  | loadDefinition h ih => exact loadDefinition h ih
  | loadActions h specs ih => exact loadActions h specs ih
  | loadWorldState h spec ih => exact loadWorldState h spec ih
  | setAtom h atom value ih => exact write h (.setAtom atom value) ih
  | patchAtom h atom value ih => exact write h (.patchAtom atom value) ih
  | encode h pairs ih => exact write h (.encode pairs) ih
  | setGoal h pairs ih => exact write h (.setGoal pairs) ih
  | mergeGoal h pairs ih => exact write h (.mergeGoal pairs) ih
  | changeBlackboard h f ih => exact write h (.changeBlackboard f) ih
  | changeTrace h f ih => exact write h (.changeTrace f) ih
  | launch h hbegin ih => exact after h hbegin .launch ih
  | step h hbegin ih => exact after h hbegin .step ih
  | replan h hbegin ih => exact after h hbegin .replan ih
  | replanTo h hbegin goal merge ih => exact after h hbegin (.replanTo goal merge) ih
  | interrupt h hbegin ih => exact after h hbegin .interrupt ih

/-- A write leaves alone what handlers cannot reach. -/
theorem kept_write (a : Agent W M) (w : Write) : (a.write w).kept = a.kept := by
  cases w with
  | setAtom atom value => exact a.kept_setAtom atom value
  | patchAtom atom value => exact a.kept_patchAtom atom value
  | encode pairs => exact a.kept_encode pairs
  | setGoal pairs => exact a.kept_setGoal pairs
  | mergeGoal pairs => exact a.kept_mergeGoal pairs
  | changeBlackboard f => rfl
  | changeTrace f => rfl

/-- An agent without what a call can change. -/
def settings (a : Agent W M) : Agent W M :=
  { a.kept with
    plan := .notFound 0, actionIndex := 0, retries := 0, dirty := true, queue := []
    cached := .empty, planStart := .empty }

/-- An agent differs from an earlier one only by what calls do. -/
structure Continues (b a : Agent W M) : Prop where
  settings : b.settings = a.settings
  atoms : b.atoms.Extends a.atoms

namespace Continues

variable {a b c : Agent W M}

theorem refl (a : Agent W M) : a.Continues a := ⟨rfl, .refl _⟩

theorem trans (h : c.Continues b) (h' : b.Continues a) : c.Continues a :=
  ⟨h.settings.trans h'.settings, h.atoms.trans h'.atoms⟩

theorem definition (h : b.Continues a) : b.definition = a.definition :=
  (congrArg Agent.definition h.settings :)

theorem actions (h : b.Continues a) : b.planner.actions = a.planner.actions :=
  (congrArg (·.planner.actions) h.settings :)

theorem config (h : b.Continues a) : b.planner.config = a.planner.config :=
  (congrArg (·.planner.config) h.settings :)

theorem maxRetries (h : b.Continues a) : b.maxRetries = a.maxRetries :=
  (congrArg Agent.maxRetries h.settings :)

/-- The plan and what is queued of it may change. -/
theorem planned (h : b.Continues a) (plan : Plan) (index : Nat) (retries : UInt32) (dirty : Bool)
    (queue : List (ActionRecord W M)) :
    Continues { b with plan, actionIndex := index, retries, dirty, queue } a :=
  ⟨h.settings, h.atoms⟩

/-- The planner finds the same actions. -/
theorem action? (h : b.Continues a) : b.planner.action? = a.planner.action? := by
  funext name
  rw [Planner.action?, Planner.action?, h.actions]

/-- The planner makes the same plans. -/
theorem plan (h : b.Continues a) : b.planner.plan = a.planner.plan := by
  have hsame : (⟨a.planner.atoms, b.planner.actions, b.planner.config⟩ : Planner) = a.planner := by
    rw [h.actions, h.config]
  exact (congrArg Planner.plan hsame :)

end Continues

/-! ## writes -/

theorem extends_setAtom (a : Agent W M) (atom : String) (value : Bool) :
    (a.setAtom atom value).2.atoms.Extends a.atoms := by
  rw [setAtom]
  split
  · next hset => exact AtomTable.extends_set hset
  · exact .refl _

theorem extends_patchAtom (a : Agent W M) (atom : String) (value : Bool) :
    (a.patchAtom atom value).2.atoms.Extends a.atoms := by
  rw [patchAtom]
  split
  · exact .refl _
  · exact .refl _

theorem extends_encode (a : Agent W M) (pairs : List (String × Bool)) :
    (a.encode pairs).2.atoms.Extends a.atoms := AtomTable.extends_encode a.atoms pairs

theorem extends_setGoal (a : Agent W M) (pairs : List (String × Bool)) :
    (a.setGoal pairs).2.atoms.Extends a.atoms := by
  have hencode := a.extends_encode pairs
  rw [setGoal]
  split
  · next heq =>
      rw [heq] at hencode
      exact hencode
  · next heq =>
      rw [heq] at hencode
      exact hencode

theorem extends_mergeGoal (a : Agent W M) (pairs : List (String × Bool)) :
    (a.mergeGoal pairs).2.atoms.Extends a.atoms := by
  have hencode := a.extends_encode pairs
  rw [mergeGoal]
  split
  · next heq =>
      rw [heq] at hencode
      exact hencode
  · next heq =>
      rw [heq] at hencode
      exact hencode

/-- **Every write leaves alone** what the agent has been loaded with. -/
theorem continues_write (a : Agent W M) (w : Write) : (a.write w).Continues a where
  settings := by
    have hkept := a.kept_write w
    simp only [settings, hkept]
  atoms := by
    cases w with
    | setAtom atom value => exact a.extends_setAtom atom value
    | patchAtom atom value => exact a.extends_patchAtom atom value
    | encode pairs => exact a.extends_encode pairs
    | setGoal pairs => exact a.extends_setGoal pairs
    | mergeGoal pairs => exact a.extends_mergeGoal pairs
    | changeBlackboard f => exact .refl _
    | changeTrace f => exact .refl _

end Agent

/-- An operation on a context only adds to the names of its atoms. -/
theorem Context.extends_perform (c : Context W) (op : ContextOp W) :
    (c.perform op).atoms.Extends c.atoms := by
  cases op with
  | setAtom atom value =>
      rw [perform]
      split
      · next current atoms hset => exact AtomTable.extends_set hset
      · exact .refl _
  | setGoal pairs =>
      rw [perform]
      split
      · next hencode => exact AtomTable.extends_of_encode hencode
      · next hencode => exact AtomTable.extends_of_encode hencode
  | mergeGoal pairs =>
      rw [perform]
      split
      · next hencode => exact AtomTable.extends_of_encode hencode
      · next hencode => exact AtomTable.extends_of_encode hencode
  | clearGoal => exact .refl _
  | reportGoal goal reason => exact .refl _
  | record kind message => exact .refl _
  | changeWorld f => exact .refl _
  | changeBlackboard f => exact .refl _
  | requestReset => exact .refl _
  | requestInterrupt e => exact .refl _

namespace Turn

variable (t : Turn W M) {t' : Turn W M}

/-! ## parts of a call -/

theorem continues_call (h : Handler W α) : (t.call h).2.agent.Continues t.agent where
  settings := rfl
  atoms := by
    show (h.run t.context).2.atoms.Extends t.agent.atoms
    apply Handler.run_preserves (P := fun c => c.atoms.Extends t.agent.atoms)
    · intro c op hc
      exact (c.extends_perform op).trans hc
    · exact .refl _

theorem continues_of_call {t t' : Turn W M} {h : Handler W α} {r : Except HandlerError α}
    (heq : t.call h = (r, t')) : t'.agent.Continues t.agent := by
  have hcall := t.continues_call h
  rw [heq] at hcall
  exact hcall

theorem continues_startFront : t.startFront.2.agent.Continues t.agent := by
  rw [startFront]
  split
  · exact .refl _
  · simp only
    split
    · next u hcall => exact { continues_of_call hcall with }
    · next e u hcall => exact { continues_of_call hcall with }

theorem continues_of_startFront {t t' : Turn W M} {started : Bool}
    (h : t.startFront = (started, t')) : t'.agent.Continues t.agent := by
  have hstart := t.continues_startFront
  rw [h] at hstart
  exact hstart

theorem continues_retryFront (name : String) (left : Nat) :
    (retryFront name left t).2.agent.Continues t.agent := by
  induction left generalizing t with
  | zero => exact ⟨rfl, .refl _⟩
  | succ left ih =>
      rw [retryFront]
      split
      · next u hstart => exact { continues_of_startFront hstart with }
      · next u hstart =>
          have hu := continues_of_startFront hstart
          exact (ih u).trans { hu with }

theorem continues_failFront : t.failFront.2.agent.Continues t.agent := by
  rw [failFront]
  split
  · exact .refl _
  · exact t.continues_retryFront _ _

/-- Starting the front, or else failing with it. -/
theorem continues_startOrFail {t : Turn W M} {result : StepResult} :
    (match t.startFront with
      | (true, t) => (result, t)
      | (false, t) => t.failFront).2.agent.Continues t.agent := by
  split
  · next u hstart => exact continues_of_startFront hstart
  · next u hstart => exact u.continues_failFront.trans (continues_of_startFront hstart)

theorem continues_popFront (front : ActionRecord W M) (rest : List (ActionRecord W M)) :
    (t.popFront front rest).agent.Continues t.agent :=
  { (t.mapFront ({ · with phase := .succeeded, task := none })).continues_call
      front.handlers.finish with }

theorem continues_completeFront : t.completeFront.2.agent.Continues t.agent := by
  cases hcons : t.agent.queue with
  | nil =>
      rw [completeFront, hcons]
      exact .refl _
  | cons front rest =>
      have hpop := t.continues_popFront front rest
      rw [completeFront_eq hcons]
      split
      · exact hpop
      · exact continues_startOrFail.trans hpop

theorem continues_stepFront : t.stepFront.2.agent.Continues t.agent := by
  rw [stepFront]
  split
  · exact .refl _
  · split
    · exact continues_startOrFail
    · simp only
      split
      · next u hcall => exact { continues_of_call hcall with }
      · next u hcall => exact { continues_of_call hcall with }
      · next u hcall =>
          have hu := continues_of_call hcall
          exact u.continues_completeFront.trans { hu with }
      · next u hcall =>
          have hu := continues_of_call hcall
          exact (continues_failFront _).trans { hu with }
      · next u hcall =>
          have hu := continues_of_call hcall
          exact (continues_failFront _).trans { hu with }

theorem continues_abortFront (reason : AbortReason) :
    (t.abortFront reason).agent.Continues t.agent := by
  rw [abortFront]
  split
  · exact .refl _
  · split
    · exact .refl _
    · exact { continues_call _ _ with }

theorem continues_runUpdaters (updaters : List (String × Handler W Unit)) :
    (t.runUpdaters updaters).agent.Continues t.agent := by
  induction updaters generalizing t with
  | nil => exact .refl _
  | cons updater rest ih =>
      rw [runUpdaters]
      split
      · next u hcall => exact (ih u).trans (continues_of_call hcall)
      · next e u hcall =>
          have hu := continues_of_call hcall
          exact (ih _).trans { hu with }

theorem continues_seedBlackboard : t.seedBlackboard.agent.Continues t.agent := by
  rw [seedBlackboard]
  split
  · exact ⟨rfl, .refl _⟩
  · exact { continues_call _ _ with }

/-! ## planning -/

theorem continues_queuePlan : t.queuePlan.agent.Continues t.agent := by
  have hseed : (if t.seeded then t else t.seedBlackboard).agent.Continues t.agent := by
    split
    · exact .refl _
    · exact t.continues_seedBlackboard
  rw [queuePlan]
  generalize (if t.seeded then t else t.seedBlackboard) = u at hseed ⊢
  refine Agent.Continues.trans ?_ hseed
  have hqueued := u.agent_enqueueFrom 0 u.agent.plan.actions
  have hsettings := congrArg Agent.settings hqueued
  have hatoms := congrArg Agent.atoms hqueued
  exact ⟨hsettings, hatoms ▸ .refl _⟩

/-- Remembering where a plan starts changes nothing else. -/
theorem continues_markStart {t : Turn W M} {a : Agent W M} (h : t.agent.Continues a) :
    (t.mapAgent fun a => { a with planStart := a.current, cached := a.current }).agent.Continues
      a :=
  { h with }

theorem continues_beginPlan : t.beginPlan.agent.Continues t.agent := by
  have hqueue := t.continues_queuePlan
  rw [beginPlan_eq]
  apply continues_markStart
  split
  · exact hqueue.planned _ _ _ _ _
  · split
    · next u hstart => exact (continues_of_startFront hstart).trans hqueue
    · next u hstart =>
        exact (u.continues_failFront.trans (continues_of_startFront hstart)).trans hqueue

theorem continues_freshPlan : t.freshPlan.agent.Continues t.agent :=
  (Agent.Continues.refl t.agent).planned _ _ _ _ _

theorem continues_handleNoPlan (reason : String) :
    (t.handleNoPlan reason).agent.Continues t.agent := by
  simp only [handleNoPlan]
  split
  · exact ⟨rfl, .refl _⟩
  · split
    · next e u hcall => exact { continues_of_call hcall with }
    · next u hcall => exact { continues_of_call hcall with }
    · next u hcall =>
        have hu : u.agent.Continues t.agent := { continues_of_call hcall with }
        have hagain : (u.makePlan.mapAgent (·.markDirty)).agent.Continues t.agent :=
          hu.planned _ _ _ _ _
        split
        · exact (continues_beginPlan _).trans hagain
        · exact hagain
        · exact { hagain with }
        · exact { hagain with }

theorem continues_planAnew : t.planAnew.2.agent.Continues t.agent := by
  have hfresh := t.continues_freshPlan
  rw [planAnew_eq]
  split
  · exact hfresh
  · exact (continues_beginPlan _).trans hfresh
  · exact (continues_handleNoPlan _ _).trans hfresh
  · exact (continues_handleNoPlan _ _).trans hfresh

theorem continues_selectGoal : t.selectGoal.2.agent.Continues t.agent := by
  rw [selectGoal]
  split
  · exact t.continues_planAnew
  · next h _ =>
      have hchosen := t.continues_call h
      cases hrun : h.run t.context with
      | mk result c =>
          rw [call, hrun] at hchosen
          cases result with
          | error e => exact { hchosen with }
          | ok done =>
              simp only
              split
              · exact (continues_planAnew _).trans hchosen
              · exact (continues_planAnew _).trans { hchosen with }

/-! ## whole calls -/

theorem continues_refresh (external : UInt64) :
    (t.refresh external).2.agent.Continues t.agent := by
  have hupdaters := t.continues_runUpdaters t.agent.definition.bindings.updaters
  simp only [refresh]
  split
  · exact hupdaters
  · exact { hupdaters with }

theorem continues_reactTo (watched : UInt64) : (t.reactTo watched).agent.Continues t.agent := by
  have habort := t.continues_abortFront .worldStateChanged
  rw [reactTo]
  exact (continues_selectGoal _).trans { habort with }

theorem continues_respond (result : StepResult) (changed : UInt64) :
    (t.respond result changed).2.agent.Continues t.agent := by
  simp only [respond]
  split
  · exact t.continues_reactTo _
  · cases result with
    | needsPlan => exact t.continues_selectGoal
    | retriesExhausted => exact t.continues_selectGoal
    | running => exact .refl _
    | succeeded => exact .refl _
    | retrying => exact .refl _

theorem continues_step : t.step.2.agent.Continues t.agent := by
  have hfront := t.continues_stepFront
  have hrefresh := t.stepFront.2.continues_refresh (t.agent.current.changed t.agent.cached)
  have hresponse := continues_respond (t.stepFront.2.refresh
    (t.agent.current.changed t.agent.cached)).2 t.stepFront.1
    (t.stepFront.2.refresh (t.agent.current.changed t.agent.cached)).1
  rw [step_eq]
  exact { (hresponse.trans hrefresh).trans hfront with }

/-- **Every call leaves alone** what the agent has been loaded with. -/
theorem continues_after (call : Call) : (t.after call).agent.Continues t.agent := by
  cases call with
  | launch => exact t.seedBlackboard.continues_selectGoal.trans t.continues_seedBlackboard
  | step => exact t.continues_step
  | replan =>
      exact (t.abortFront .replan).continues_planAnew.trans (t.continues_abortFront .replan)
  | replanTo goal merge =>
      rw [after, replanTo]
      exact (continues_planAnew _).trans { continues_abortFront _ .replan with }
  | interrupt =>
      rw [after, interrupt]
      refine ((continues_selectGoal _).trans (continues_seedBlackboard _)).trans ?_
      exact { continues_abortFront _ .interrupt with }

end Turn

end PlanningAgents
