import PlanningAgents.Proofs.Agent.History

/-!
# PlanningAgents.Proofs.Agent.Translation

Handlers in another world.  A call knows its handlers only by running them, so handlers may be
replaced by others that do the same to what both have in common, and have a world of their own for
the rest (`Translation`).  The call with such handlers mirrors the call without them: it returns the
same, and leaves the agent the same but for its handlers.

Which worlds and pending requests correspond is up to the translation.  It has to hold before a
handler is run and again behind it, and then it holds throughout a call, since nothing but handlers
touches either.

Main statements:

* `Translation` — handlers in another world, and what corresponds in the two;
* `Translation.Mirrors` — a call in the other world that stands where the one in this world does;
* `Translation.Mirrors.after` — it still does when the call is over.
-/

namespace PlanningAgents

variable {W W' M α : Type}

/-- A context in another world, with other commands. -/
def Context.inWorld (c : Context W) (world : W') (commands : Commands) : Context W' :=
  { c with world, commands }

/-- **Handlers in another world.** -/
structure Translation (W W' : Type) where
  handler {α : Type} (h : Handler W α) : Handler W' α
  /-- A world and its commands correspond to another world and its commands. -/
  Fits (world : W) (commands : Commands) (world' : W') (commands' : Commands) : Prop
  /-- Handlers do the same to the rest of a context, and what corresponds before does so after. -/
  run_handler {α : Type} (h : Handler W α) (c : Context W) {world' : W'} {commands' : Commands}
    (hfits : Fits c.world c.commands world' commands') :
    ∃ world'' commands'', (handler h).run (c.inWorld world' commands') =
      ((h.run c).1, (h.run c).2.inWorld world'' commands'') ∧
      Fits (h.run c).2.world (h.run c).2.commands world'' commands''

variable (T : Translation W W')

/-! ## agents in another world -/

/-- The behaviour of an action in another world. -/
def ActionHandlers.translate (h : ActionHandlers W M) : ActionHandlers W' M where
  start := T.handler h.start
  fresh := h.fresh
  resume memory := T.handler (h.resume memory)
  finish := T.handler h.finish
  abort reason := T.handler (h.abort reason)

/-- The behaviour of agents in another world. -/
def Bindings.translate (b : Bindings W M) : Bindings W' M where
  actions := b.actions.map fun _ h => h.translate T
  goalSelectors := b.goalSelectors.map fun _ h => T.handler h
  updaters := b.updaters.map fun u => (u.1, T.handler u.2)
  blackboardInit := b.blackboardInit.map fun _ h => T.handler h
  noPlan := b.noPlan.map T.handler

/-- A definition in another world. -/
def Definition.translate (d : Definition W M) : Definition W' M where
  data := d.data
  bindings := d.bindings.translate T

/-- A queued action in another world. -/
def ActionRecord.translate (r : ActionRecord W M) : ActionRecord W' M :=
  { r with handlers := r.handlers.translate T }

/-- An agent in another world. -/
def Agent.translate (a : Agent W M) : Agent W' M :=
  { a with
    definition := a.definition.translate T, queue := a.queue.map (ActionRecord.translate T) }

/-- A call in another world. -/
def Turn.translate (t : Turn W M) (world : W') (commands : Commands) : Turn W' M :=
  { t with agent := t.agent.translate T, world, commands }

namespace Translation

/-! ## calls in another world -/

/-- A call in another world stands where the call in this world does. -/
def Mirrors (t : Turn W M) (t' : Turn W' M) : Prop :=
  ∃ world commands, t' = t.translate T world commands ∧
    T.Fits t.world t.commands world commands

/-- Parts of calls return the same, and leave calls that stand at the same place. -/
inductive Returns : α × Turn W M → α × Turn W' M → Prop
  | intro (a : α) {t : Turn W M} {t' : Turn W' M} (h : T.Mirrors t t') : Returns (a, t) (a, t')

variable {T} {t u : Turn W M} {t' u' : Turn W' M}

theorem Returns.fst {r : α × Turn W M} {r' : α × Turn W' M} (h : T.Returns r r') :
    r'.1 = r.1 := by
  cases h
  rfl

theorem Returns.snd {r : α × Turn W M} {r' : α × Turn W' M} (h : T.Returns r r') :
    T.Mirrors r.2 r'.2 := by
  cases h
  assumption

namespace Mirrors

/-- What is done to the agents alone. -/
theorem mapAgent (h : T.Mirrors t t') {f : Agent W M → Agent W M} {g : Agent W' M → Agent W' M}
    (hfg : g (t.agent.translate T) = (f t.agent).translate T) :
    T.Mirrors (t.mapAgent f) (t'.mapAgent g) := by
  obtain ⟨world, commands, rfl, hfits⟩ := h
  refine ⟨world, commands, ?_, hfits⟩
  rw [Turn.mapAgent, Turn.translate, hfg]
  rfl

theorem mapFront (h : T.Mirrors t t') {f : ActionRecord W M → ActionRecord W M}
    {g : ActionRecord W' M → ActionRecord W' M}
    (hfg : ∀ r : ActionRecord W M, g (r.translate T) = (f r).translate T) :
    T.Mirrors (t.mapFront f) (t'.mapFront g) := by
  refine h.mapAgent ?_
  cases hqueue : t.agent.queue with
  | nil => simp [Agent.translate, hqueue]
  | cons r rest => simp [Agent.translate, hqueue, hfg]

theorem record (h : T.Mirrors t t') (kind : TraceKind) (message : String)
    (extra : List (String × String)) :
    T.Mirrors (t.record kind message extra) (t'.record kind message extra) := by
  obtain ⟨world, commands, rfl, hfits⟩ := h
  exact ⟨world, commands, rfl, hfits⟩

/-- The agents are the same but for their handlers. -/
theorem agent_eq (h : T.Mirrors t t') : t'.agent = t.agent.translate T := by
  obtain ⟨world, commands, rfl, hfits⟩ := h
  rfl

theorem queue_eq (h : T.Mirrors t t') :
    t'.agent.queue = t.agent.queue.map (ActionRecord.translate T) :=
  congrArg Agent.queue h.agent_eq

theorem queue_nil (h : T.Mirrors t t') (hnil : t.agent.queue = []) : t'.agent.queue = [] := by
  rw [h.queue_eq, hnil, List.map_nil]

variable {front : ActionRecord W M} {rest : List (ActionRecord W M)}

theorem queue_cons (h : T.Mirrors t t') (hcons : t.agent.queue = front :: rest) :
    t'.agent.queue = front.translate T :: rest.map (ActionRecord.translate T) := by
  rw [h.queue_eq, hcons, List.map_cons]

theorem retries_eq (h : T.Mirrors t t') : t'.agent.retries = t.agent.retries :=
  congrArg Agent.retries h.agent_eq

theorem maxRetries_eq (h : T.Mirrors t t') : t'.agent.maxRetries = t.agent.maxRetries :=
  congrArg Agent.maxRetries h.agent_eq

theorem plan_eq (h : T.Mirrors t t') : t'.agent.plan = t.agent.plan :=
  congrArg Agent.plan h.agent_eq

/-- **Running a handler.** -/
theorem call (h : T.Mirrors t t') (x : Handler W α) :
    T.Returns (t.call x) (t'.call (T.handler x)) := by
  obtain ⟨world, commands, rfl, hfits⟩ := h
  obtain ⟨world', commands', hrun, hfits'⟩ := T.run_handler x t.context hfits
  have hcontext : (t.translate T world commands).context = t.context.inWorld world commands := rfl
  rw [Turn.call, Turn.call, hcontext, hrun]
  exact .intro _ ⟨world', commands', rfl, hfits'⟩

/-! ## the front action -/

theorem readyFront (h : T.Mirrors t t') (front : ActionRecord W M) :
    T.Mirrors (t.readyFront front) (t'.readyFront (front.translate T)) := by
  have hfront : T.Mirrors (t.mapFront ({ · with task := none, phase := .created }))
      (t'.mapFront ({ · with task := none, phase := .created })) := h.mapFront fun _ => rfl
  rw [Turn.readyFront, Turn.readyFront]
  generalize t.mapFront _ = u at hfront ⊢
  generalize t'.mapFront _ = u' at hfront ⊢
  obtain ⟨world, commands, rfl, hfits⟩ := hfront
  exact ⟨world, commands, rfl, hfits⟩

/-- **Starting the front.** -/
theorem startFront (h : T.Mirrors t t') : T.Returns t.startFront t'.startFront := by
  cases hcons : t.agent.queue with
  | nil =>
      rw [Turn.startFront, Turn.startFront, hcons, h.queue_nil hcons]
      exact .intro _ h
  | cons front rest =>
      have hcall : T.Returns ((t.readyFront front).call front.handlers.start)
          ((t'.readyFront (front.translate T)).call (front.translate T).handlers.start) :=
        (h.readyFront front).call front.handlers.start
      rw [Turn.startFront_eq hcons, Turn.startFront_eq (h.queue_cons hcons)]
      generalize (t.readyFront front).call front.handlers.start = r at hcall ⊢
      generalize (t'.readyFront (front.translate T)).call
        (front.translate T).handlers.start = r' at hcall ⊢
      cases hcall with
      | intro r hu =>
          cases r with
          | ok done => exact .intro _ (hu.mapFront fun _ => rfl)
          | error e => exact .intro _ ((hu.mapFront fun _ => rfl).record _ _ _)

theorem countRetry (h : T.Mirrors t t') : T.Mirrors t.countRetry t'.countRetry :=
  (h.mapFront fun _ => rfl).mapAgent rfl

theorem giveUpFront (h : T.Mirrors t t') (name : String) :
    T.Mirrors (t.giveUpFront name) (t'.giveUpFront name) := by
  have hfront := h.mapFront (f := ({ · with task := none, phase := .failed }))
    (g := ({ · with task := none, phase := .failed })) fun _ => rfl
  have hretries := hfront.retries_eq
  simp only [Turn.giveUpFront, hretries]
  exact (hfront.record _ _ _).mapAgent rfl

theorem retryFront (name : String) (left : Nat) (h : T.Mirrors t t') :
    T.Returns (Turn.retryFront name left t) (Turn.retryFront name left t') := by
  induction left generalizing t t' with
  | zero => exact .intro _ (h.giveUpFront name)
  | succ left ih =>
      have hstart := h.countRetry.startFront
      rw [Turn.retryFront, Turn.retryFront]
      simp only [← Turn.countRetry.eq_def]
      generalize t.countRetry.startFront = r at hstart ⊢
      generalize t'.countRetry.startFront = r' at hstart ⊢
      cases hstart with
      | intro started hu =>
          cases started with
          | true => exact .intro _ hu
          | false => exact ih hu

theorem failFront (h : T.Mirrors t t') : T.Returns t.failFront t'.failFront := by
  cases hcons : t.agent.queue with
  | nil =>
      rw [Turn.failFront, Turn.failFront, hcons, h.queue_nil hcons]
      exact .intro _ h
  | cons front rest =>
      rw [Turn.failFront, Turn.failFront, hcons, h.queue_cons hcons, h.retries_eq, h.maxRetries_eq]
      exact h.retryFront _ _

theorem startOrFail (h : T.Mirrors t t') (result : StepResult) :
    T.Returns (t.startOrFail result) (t'.startOrFail result) := by
  have hstart := h.startFront
  rw [Turn.startOrFail, Turn.startOrFail]
  generalize t.startFront = r at hstart ⊢
  generalize t'.startFront = r' at hstart ⊢
  cases hstart with
  | intro started hu =>
      cases started with
      | true => exact .intro _ hu
      | false => exact hu.failFront

theorem popFront (h : T.Mirrors t t') (front : ActionRecord W M)
    (rest : List (ActionRecord W M)) :
    T.Mirrors (t.popFront front rest)
      (t'.popFront (front.translate T) (rest.map (ActionRecord.translate T))) := by
  have hindex : (rest.map (ActionRecord.translate T)).head?.map (·.planIndex) =
      rest.head?.map (·.planIndex) := by
    cases rest with
    | nil => rfl
    | cons next rest => rfl
  have hsucceeded := h.mapFront (f := ({ · with phase := .succeeded, task := none }))
    (g := ({ · with phase := .succeeded, task := none })) fun _ => rfl
  have hcall : T.Returns _ (Turn.call _ (front.translate T).handlers.finish) :=
    hsucceeded.call front.handlers.finish
  simp only [Turn.popFront, hindex]
  generalize (t.mapFront _).call front.handlers.finish = r at hcall ⊢
  generalize (t'.mapFront _).call (front.translate T).handlers.finish = r' at hcall ⊢
  cases hcall with
  | @intro finished u u' hu =>
      have heffect := (hu.mapAgent (f := fun a => { a with current := a.current.apply front.post })
        (g := fun a => { a with current := a.current.apply front.post }) rfl).record .actionResult
          front.name (("status", ActionStatus.success.name) :: Turn.errorDetail finished)
      refine heffect.mapAgent ?_
      simp only [Agent.translate, List.map_tail]

/-- **Ending the front** after success. -/
theorem completeFront (h : T.Mirrors t t') : T.Returns t.completeFront t'.completeFront := by
  cases hcons : t.agent.queue with
  | nil =>
      rw [Turn.completeFront, Turn.completeFront, hcons, h.queue_nil hcons]
      exact .intro _ h
  | cons front rest =>
      have hpop := h.popFront front rest
      rw [Turn.completeFront_eq_startOrFail hcons,
        Turn.completeFront_eq_startOrFail (h.queue_cons hcons), List.isEmpty_map]
      cases hempty : rest.isEmpty with
      | true => exact .intro _ hpop
      | false => exact hpop.startOrFail _

/-- **The step of the front.** -/
theorem stepFront (h : T.Mirrors t t') : T.Returns t.stepFront t'.stepFront := by
  cases hcons : t.agent.queue with
  | nil =>
      rw [Turn.stepFront, Turn.stepFront, hcons, h.queue_nil hcons]
      exact .intro _ h
  | cons front rest =>
      have hsame : (front.translate T).isRunning = front.isRunning := rfl
      rw [Turn.stepFront_eq hcons, Turn.stepFront_eq (h.queue_cons hcons), hsame]
      cases hrunning : front.isRunning with
      | false => exact h.startOrFail _
      | true =>
          have hempty := h.mapFront (f := ({ · with task := none }))
            (g := ({ · with task := none })) fun _ => rfl
          have hcall : T.Returns _ (Turn.call _ ((front.translate T).handlers.resume
              ((front.translate T).task.getD (front.translate T).handlers.fresh))) :=
            hempty.call (front.handlers.resume (front.task.getD front.handlers.fresh))
          simp only [Bool.not_true, Bool.false_eq_true, if_false]
          generalize (t.mapFront _).call _ = r at hcall ⊢
          generalize (t'.mapFront _).call _ = r' at hcall ⊢
          cases hcall with
          | intro result hu =>
              cases result with
              | error e => exact (hu.record _ _ _).failFront
              | ok progress =>
                  cases progress with
                  | yielded memory => exact .intro _ (hu.mapFront fun _ => rfl)
                  | returned status =>
                      cases status with
                      | running => exact .intro _ (hu.mapFront fun _ => rfl)
                      | success => exact hu.completeFront
                      | failure => exact (hu.record _ _ _).failFront

/-- **Aborting the front.** -/
theorem abortFront (h : T.Mirrors t t') (reason : AbortReason) :
    T.Mirrors (t.abortFront reason) (t'.abortFront reason) := by
  cases hcons : t.agent.queue with
  | nil =>
      rw [Turn.abortFront, Turn.abortFront, hcons, h.queue_nil hcons]
      exact h
  | cons front rest =>
      have hsame : (front.translate T).isRunning = front.isRunning := rfl
      rw [Turn.abortFront, Turn.abortFront, hcons, h.queue_cons hcons]
      simp only [hsame]
      cases front.isRunning with
      | false => exact h
      | true =>
          have haborted := h.mapFront (f := ({ · with phase := .aborted, task := none }))
            (g := ({ · with phase := .aborted, task := none })) fun _ => rfl
          have hcall : T.Returns _ (Turn.call _ ((front.translate T).handlers.abort reason)) :=
            haborted.call (front.handlers.abort reason)
          simp only [Bool.not_true, Bool.false_eq_true, if_false]
          generalize (t.mapFront _).call _ = r at hcall ⊢
          generalize (t'.mapFront _).call _ = r' at hcall ⊢
          cases hcall with
          | intro aborted hu => exact hu.record _ _ _

/-! ## updaters, the blackboard and planning -/

theorem runUpdaters (updaters : List (String × Handler W Unit)) (h : T.Mirrors t t') :
    T.Mirrors (t.runUpdaters updaters)
      (t'.runUpdaters (updaters.map fun u => (u.1, T.handler u.2))) := by
  induction updaters generalizing t t' with
  | nil => exact h
  | cons updater rest ih =>
      obtain ⟨name, x⟩ := updater
      have hcall := h.call x
      rw [List.map_cons, Turn.runUpdaters, Turn.runUpdaters]
      generalize t.call x = r at hcall ⊢
      generalize t'.call (T.handler x) = r' at hcall ⊢
      cases hcall with
      | intro result hu =>
          cases result with
          | ok done => exact ih hu
          | error e => exact ih (hu.record _ _ _)

theorem bindingFor (h : T.Mirrors t t') {β γ : Type} (bindings : SortedMap String β) (f : β → γ) :
    t'.bindingFor (bindings.map fun _ => f) = (t.bindingFor bindings).map f := by
  obtain ⟨world, commands, rfl, hfits⟩ := h
  rw [Turn.bindingFor, Turn.bindingFor, Std.ExtTreeMap.getElem?_map, Std.ExtTreeMap.getElem?_map,
    Option.map_or]
  rfl

theorem definition_eq (h : T.Mirrors t t') :
    t'.agent.definition = t.agent.definition.translate T :=
  congrArg Agent.definition h.agent_eq

theorem clearBlackboard (h : T.Mirrors t t') : T.Mirrors t.clearBlackboard t'.clearBlackboard := by
  obtain ⟨world, commands, rfl, hfits⟩ := h
  exact ⟨world, commands, rfl, hfits⟩

theorem seedBlackboard (h : T.Mirrors t t') : T.Mirrors t.seedBlackboard t'.seedBlackboard := by
  have hbinding := h.bindingFor t.agent.definition.bindings.blackboardInit T.handler
  rw [Turn.seedBlackboard_eq, Turn.seedBlackboard_eq, h.definition_eq]
  simp only [Definition.translate, Bindings.translate, hbinding]
  cases t.bindingFor t.agent.definition.bindings.blackboardInit with
  | none => exact h.clearBlackboard
  | some x => exact (h.clearBlackboard.call x).snd

theorem enqueueFrom (h : T.Mirrors t t') (i : Nat) (names : List String) :
    T.Mirrors (t.enqueueFrom i names) (t'.enqueueFrom i names) := by
  induction names generalizing t t' i with
  | nil => exact h
  | cons name rest ih =>
      have hbound : t'.agent.definition.bindings.actions[name]? =
          t.agent.definition.bindings.actions[name]?.map (·.translate T) := by
        rw [h.definition_eq]
        exact Std.ExtTreeMap.getElem?_map
      rw [Turn.enqueueFrom, Turn.enqueueFrom, hbound]
      cases t.agent.definition.bindings.actions[name]? with
      | none => exact ih (h.record _ _ _) _
      | some handlers =>
          refine ih ?_ _
          obtain ⟨world, commands, rfl, hfits⟩ := h
          refine ⟨world, commands, ?_, hfits⟩
          simp only [Turn.mapAgent, Turn.translate, Agent.translate, List.map_append]
          rfl

theorem queuePlan (h : T.Mirrors t t') : T.Mirrors t.queuePlan t'.queuePlan := by
  have hseeded : t'.seeded = t.seeded := by
    obtain ⟨world, commands, rfl, hfits⟩ := h
    rfl
  have hseed : T.Mirrors (if t.seeded then t else t.seedBlackboard)
      (if t'.seeded then t' else t'.seedBlackboard) := by
    rw [hseeded]
    split
    · exact h
    · exact h.seedBlackboard
  rw [Turn.queuePlan, Turn.queuePlan]
  generalize (if t.seeded then t else t.seedBlackboard) = u at hseed ⊢
  generalize (if t'.seeded then t' else t'.seedBlackboard) = u' at hseed ⊢
  have hqueued := hseed.enqueueFrom 0 u.agent.plan.actions
  simp only [hseed.plan_eq]
  generalize u.enqueueFrom 0 u.agent.plan.actions = v at hqueued ⊢
  generalize u'.enqueueFrom 0 u.agent.plan.actions = v' at hqueued ⊢
  obtain ⟨world, commands, rfl, hfits⟩ := hqueued
  exact ⟨world, commands, rfl, hfits⟩

/-- **Beginning a plan.** -/
theorem beginPlan (h : T.Mirrors t t') : T.Mirrors t.beginPlan t'.beginPlan := by
  have hqueue := h.queuePlan
  have hempty : t'.queuePlan.agent.queue.isEmpty = t.queuePlan.agent.queue.isEmpty := by
    rw [hqueue.queue_eq, List.isEmpty_map]
  rw [Turn.beginPlan_eq_startOrFail, Turn.beginPlan_eq_startOrFail, hempty]
  refine mapAgent ?_ rfl
  split
  · exact hqueue.mapAgent rfl
  · exact (hqueue.startOrFail .running).snd

theorem makePlan (h : T.Mirrors t t') : T.Mirrors t.makePlan t'.makePlan := h.mapAgent rfl

/-- **Without a usable plan.** -/
theorem handleNoPlan (h : T.Mirrors t t') (reason : String) :
    T.Mirrors (t.handleNoPlan reason) (t'.handleNoPlan reason) := by
  have hrecord : T.Mirrors (t.record .planFailed t.agent.describeGoal
      [("reason", reason), ("state", t.agent.describeState)])
      (t'.record .planFailed t'.agent.describeGoal
        [("reason", reason), ("state", t'.agent.describeState)]) := by
    obtain ⟨world, commands, rfl, hfits⟩ := h
    exact ⟨world, commands, rfl, hfits⟩
  simp only [Turn.handleNoPlan]
  generalize t.record .planFailed t.agent.describeGoal
    [("reason", reason), ("state", t.agent.describeState)] = u at hrecord ⊢
  generalize t'.record .planFailed t'.agent.describeGoal
    [("reason", reason), ("state", t'.agent.describeState)] = u' at hrecord ⊢
  have hhandler : u'.agent.definition.bindings.noPlan =
      u.agent.definition.bindings.noPlan.map T.handler := by
    rw [hrecord.definition_eq]
    rfl
  rw [hhandler]
  cases u.agent.definition.bindings.noPlan with
  | none => exact hrecord.mapAgent rfl
  | some x =>
      have hcall := hrecord.call x
      simp only [Option.map_some]
      generalize u.call x = r at hcall ⊢
      generalize u'.call (T.handler x) = r' at hcall ⊢
      cases hcall with
      | @intro result v v' hv =>
          cases result with
          | error e => exact hv.mapAgent rfl
          | ok again =>
              cases again with
              | false => exact hv
              | true =>
                  have hagain := hv.makePlan.mapAgent (f := (·.markDirty)) (g := (·.markDirty)) rfl
                  simp only [hagain.plan_eq]
                  generalize v.makePlan.mapAgent (·.markDirty) = w at hagain ⊢
                  generalize v'.makePlan.mapAgent (·.markDirty) = w' at hagain ⊢
                  cases w.agent.plan.outcome with
                  | found => exact hagain.beginPlan
                  | atGoal => exact hagain
                  | notFound =>
                      obtain ⟨world, commands, rfl, hfits⟩ := hagain
                      exact ⟨world, commands, rfl, hfits⟩
                  | truncated =>
                      obtain ⟨world, commands, rfl, hfits⟩ := hagain
                      exact ⟨world, commands, rfl, hfits⟩

theorem freshPlan (h : T.Mirrors t t') : T.Mirrors t.freshPlan t'.freshPlan := by
  obtain ⟨world, commands, rfl, hfits⟩ := h
  exact ⟨world, commands, rfl, hfits⟩

theorem planAnew (h : T.Mirrors t t') : T.Mirrors t.planAnew.2 t'.planAnew.2 := by
  rw [Turn.planAnew_eq, Turn.planAnew_eq, h.freshPlan.plan_eq]
  cases t.freshPlan.agent.plan.outcome with
  | atGoal => exact h.freshPlan
  | found => exact h.freshPlan.beginPlan
  | notFound => exact h.freshPlan.handleNoPlan _
  | truncated => exact h.freshPlan.handleNoPlan _

/-- **Choosing a goal.** -/
theorem selectGoal (h : T.Mirrors t t') : T.Mirrors t.selectGoal.2 t'.selectGoal.2 := by
  -- the selector's context is looked at behind it, for whether a goal has been reported there, so
  -- that running a handler as in other calls says too little
  have hbinding := h.bindingFor t.agent.definition.bindings.goalSelectors T.handler
  rw [Turn.selectGoal_eq, Turn.selectGoal_eq, h.definition_eq]
  simp only [Definition.translate, Bindings.translate, hbinding]
  cases t.bindingFor t.agent.definition.bindings.goalSelectors with
  | none => exact h.planAnew
  | some x =>
      obtain ⟨world, commands, rfl, hfits⟩ := h
      obtain ⟨world', commands', hrun, hfits'⟩ := T.run_handler x t.context hfits
      have hcontext : (t.translate T world commands).context =
          t.context.inWorld world commands := rfl
      simp only [Option.map_some, hcontext, hrun]
      generalize x.run t.context = r at hfits' ⊢
      cases r with
      | mk result c =>
          have habsorbed : T.Mirrors (t.absorb c)
              ((t.translate T world commands).absorb (c.inWorld world' commands')) :=
            ⟨world', commands', rfl, hfits'⟩
          cases result with
          | error e => exact habsorbed.record _ _ _
          | ok done =>
              have hchosen : T.Mirrors (t.choose c)
                  ((t.translate T world commands).choose (c.inWorld world' commands')) := by
                have hreported : (c.inWorld world' commands').goalReported = c.goalReported := rfl
                rw [Turn.choose, Turn.choose, hreported]
                split
                · exact habsorbed
                · exact habsorbed.record _ _ _
              exact hchosen.planAnew

/-! ## whole calls -/

theorem refresh (h : T.Mirrors t t') (external : UInt64) :
    T.Returns (t.refresh external) (t'.refresh external) := by
  have hupdated := h.runUpdaters t.agent.definition.bindings.updaters
  have hupdaters : t'.agent.definition.bindings.updaters =
      t.agent.definition.bindings.updaters.map fun u => (u.1, T.handler u.2) := by
    rw [h.definition_eq]
    rfl
  have hcurrent : t'.agent.current = t.agent.current := congrArg Agent.current h.agent_eq
  simp only [Turn.refresh, hupdaters, hcurrent]
  generalize t.runUpdaters t.agent.definition.bindings.updaters = u at hupdated ⊢
  generalize t'.runUpdaters (t.agent.definition.bindings.updaters.map _) = u' at hupdated ⊢
  obtain ⟨world, commands, rfl, hfits⟩ := hupdated
  have hsame : (u.translate T world commands).agent.current = u.agent.current := rfl
  rw [hsame]
  refine .intro _ ?_
  split
  · exact ⟨world, commands, rfl, hfits⟩
  · exact ⟨world, commands, rfl, hfits⟩

theorem reactTo (h : T.Mirrors t t') (watched : UInt64) :
    T.Mirrors (t.reactTo watched) (t'.reactTo watched) := by
  have hnames : t'.agent.atoms.describeBits watched = t.agent.atoms.describeBits watched :=
    congrArg (·.atoms.describeBits watched) h.agent_eq
  simp only [Turn.reactTo, hnames]
  exact (((h.abortFront _).mapAgent rfl).record _ _ _).selectGoal

theorem respond (h : T.Mirrors t t') (result : StepResult) (changed : UInt64) :
    T.Returns (t.respond result changed) (t'.respond result changed) := by
  have hmask : t'.agent.queue.head?.map (·.watchMask) = t.agent.queue.head?.map (·.watchMask) := by
    rw [h.queue_eq]
    cases t.agent.queue with
    | nil => rfl
    | cons front rest => rfl
  simp only [Turn.respond, hmask]
  split
  · exact .intro _ (h.reactTo _)
  · cases result with
    | needsPlan => exact .intro _ h.selectGoal
    | retriesExhausted => exact .intro _ h.selectGoal
    | running => exact .intro _ h
    | succeeded => exact .intro _ h
    | retrying => exact .intro _ h

/-- **A tick.** -/
theorem step (h : T.Mirrors t t') : T.Returns t.step t'.step := by
  have hexternal : t'.agent.current.changed t'.agent.cached =
      t.agent.current.changed t.agent.cached :=
    congrArg (fun a => a.current.changed a.cached) h.agent_eq
  have hfront := h.stepFront
  rw [Turn.step_eq, Turn.step_eq, hexternal]
  generalize t.stepFront = r at hfront ⊢
  generalize t'.stepFront = r' at hfront ⊢
  cases hfront with
  | @intro result u u' hu =>
      have hrefresh := hu.refresh (t.agent.current.changed t.agent.cached)
      simp only
      generalize u.refresh _ = r at hrefresh ⊢
      generalize u'.refresh _ = r' at hrefresh ⊢
      cases hrefresh with
      | @intro changed v v' hv =>
          have hrespond := hv.respond result changed
          simp only
          generalize v.respond result changed = r at hrespond ⊢
          generalize v'.respond result changed = r' at hrespond ⊢
          cases hrespond with
          | intro outcome hw => exact .intro _ (hw.mapAgent rfl)

/-- **A call in another world** mirrors the call in this one. -/
theorem after (h : T.Mirrors t t') (call : Call) : T.Mirrors (t.after call) (t'.after call) := by
  cases call with
  | launch => exact h.seedBlackboard.selectGoal
  | step => exact h.step.snd
  | replan => exact (h.abortFront .replan).planAnew
  | replanTo goal merge =>
      have hgoal : T.Mirrors (t.changeGoal goal merge) (t'.changeGoal goal merge) := by
        obtain ⟨world, commands, rfl, hfits⟩ := h
        exact ⟨world, commands, rfl, hfits⟩
      exact ((hgoal.abortFront .replan).mapAgent rfl).planAnew
  | interrupt =>
      have hnoted : T.Mirrors t.noteInterrupt t'.noteInterrupt := by
        have hname : t'.agent.queue.head?.map (·.name) = t.agent.queue.head?.map (·.name) := by
          rw [h.queue_eq]
          cases t.agent.queue with
          | nil => rfl
          | cons front rest => rfl
        rw [Turn.noteInterrupt, Turn.noteInterrupt, hname]
        exact h.record _ _ _
      exact ((hnoted.abortFront .interrupt).mapAgent rfl).seedBlackboard.selectGoal

end Mirrors

end Translation

end PlanningAgents
