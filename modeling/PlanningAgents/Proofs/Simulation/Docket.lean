import PlanningAgents.Proofs.Simulation.History

/-!
# PlanningAgents.Proofs.Simulation.Docket

The docket of a stage: what is being done to it, and which interrupts are to be carried out now.
Every happening is a step of the docket, which tells under which condition it happens
and what becomes of the stage by it (`Docket.Step`).  A call begins only when no other is running,
with the agent that is in its place; and when it ends, the stage is the one behind that call.

The history of operations takes the docket to the stage behind them (`Docket.steps_history`), so
nothing happens to a stage that its history does not tell.  What every step keeps is therefore true
at every point of every run, also in the middle of operations.

Main statements:

* `Docket.Step`, `Docket.Steps` — what can happen next, and what becomes of it;
* `Docket.steps_history` — histories are made of such steps, and lead to the stage behind them;
* `Docket.exists_between` — every point of a history has its docket.
-/

namespace PlanningAgents

variable {W M α : Type}

/-! ## dockets -/

/-- How far an operation has come. -/
inductive Docket.Progress (W M : Type) where
  /-- No call is running. -/
  | idle
  /-- The pending reset comes next. -/
  | resetting
  /-- A call is running. -/
  | calling (cause : Cause) (t : Turn W M)
  /-- A call is over, and the interrupts that are pending come next. -/
  | called

/-- What is being done to a stage. -/
structure Docket (W M : Type) where
  stage : Stage W M
  /-- The operation that was set about last. -/
  op : Option (Operation W M) := none
  progress : Docket.Progress W M := .idle
  /-- The interrupts that have been taken and are to be carried out now. -/
  batch : List EntityId := []

/-- A request is made. -/
def Stage.ask (s : Stage W M) (r : Request) : Stage W M :=
  s.mapSim ({ · with commands := s.sim.commands.ask r })

namespace Docket

/-- What comes behind a call. -/
def progressAfter : Cause → Progress W M
  | .asked => .idle
  | _ => .called

/-- What may come next, by how far the operation has come. -/
def Progress.Allows : Progress W M → Happening W M → Prop
  | .idle, _ => True
  | .resetting, x => x = .reset
  | .calling _ t, x => (∃ r, x = .requested r) ∨ x = .ended t.entity
  | .called, x => x = .gathered

section Steps

variable [World W]

/-- **What can happen next**, and what becomes of it. -/
inductive Step : Docket W M → Happening W M → Docket W M → Prop
  | performed {d : Docket W M} (op : Operation W M) (hidle : d.progress = .idle)
      (hbatch : d.batch = []) :
      Step d (.performed op) { d with stage := d.stage.outset op, op := some op }
  | dispatched {d : Docket W M} (tick : Tick) {dt : Float32} (hop : d.op = some (.update dt))
      (hidle : d.progress = .idle) (hbatch : d.batch = []) :
      Step d (.dispatched tick)
        { d with progress := if d.stage.sim.commands.resetRequested then .resetting else .idle }
  | reset {d : Docket W M} (hdue : d.progress = .resetting) (hbatch : d.batch = []) :
      Step d .reset { d with stage := d.stage.withoutReset, progress := .idle }
  | made {d : Docket W M} (e : EntityId) {r : SpawnRecord} {definition : Definition W M}
      (hfound : d.stage.definition? r = some definition) (hidle : d.progress = .idle)
      (hbatch : d.batch = []) :
      Step d (.made e r definition) { d with stage := d.stage.install e r definition }
  | dropped {d : Docket W M} {e : EntityId} (hinvalid : World.isValid d.stage.world e = false)
      (hidle : d.progress = .idle) (hbatch : d.batch = []) :
      Step d (.dropped e d.stage.world)
        { d with stage := d.stage.mapSim fun sim => (sim.destroy e).2 }
  /-- The operation calls an agent. -/
  | began {d : Docket W M} {op : Operation W M} {e : EntityId} {cause : Cause} {a : Agent W M}
      (tick : Tick) (hop : d.op = some op) (hcalls : op.Calls e cause)
      (ha : d.stage.sim.agents[e]? = some a) (hidle : d.progress = .idle)
      (hbatch : d.batch = []) :
      Step d (.began cause (d.stage.turn e a tick))
        { d with progress := .calling cause (d.stage.turn e a tick) }
  /-- An interrupt that has been asked for is carried out. -/
  | interrupted {d : Docket W M} {e : EntityId} {rest : List EntityId} {a : Agent W M}
      (tick : Tick) (hbatch : d.batch = e :: rest) (ha : d.stage.sim.agents[e]? = some a)
      (hidle : d.progress = .idle) :
      Step d (.began .asked (d.stage.turn e a tick))
        { d with progress := .calling .asked (d.stage.turn e a tick), batch := rest }
  | requested {d : Docket W M} (r : Request) {cause : Cause} {t : Turn W M}
      (hcalling : d.progress = .calling cause t) :
      Step d (.requested r) { d with stage := d.stage.ask r }
  /-- By then all that the call asks for has been asked for. -/
  | ended {d : Docket W M} {cause : Cause} {t : Turn W M}
      (hcalling : d.progress = .calling cause t)
      (hcommands : d.stage.sim.commands = (t.after cause.call).commands) :
      Step d (.ended t.entity)
        { d with
          stage := d.stage.settle t.entity (t.after cause.call)
          progress := progressAfter cause }
  | gathered {d : Docket W M} (hfree : d.progress = .idle ∨ d.progress = .called)
      (hbatch : d.batch = []) :
      Step d .gathered
        { d with
          stage := d.stage.gathered
          progress := .idle
          batch := d.stage.sim.commands.interrupts }
  | missed {d : Docket W M} {e : EntityId} {rest : List EntityId} (hbatch : d.batch = e :: rest)
      (ha : d.stage.sim.agents[e]? = none) (hidle : d.progress = .idle) :
      Step d (.missed e) { d with batch := rest }

/-- What can happen in a row. -/
inductive Steps : Docket W M → List (Happening W M) → Docket W M → Prop
  | nil (d : Docket W M) : Steps d [] d
  | cons {d d' d'' : Docket W M} {x : Happening W M} {rest : List (Happening W M)}
      (hstep : Step d x d') (hrest : Steps d' rest d'') : Steps d (x :: rest) d''

variable {d d' d'' : Docket W M} {x : Happening W M} {h h' : List (Happening W M)}

theorem Step.allowed (hstep : Step d x d') : d.progress.Allows x := by
  cases hstep with
  | reset hdue hbatch =>
      rw [hdue]
      rfl
  | requested r hcalling =>
      rw [hcalling]
      exact .inl ⟨r, rfl⟩
  | ended hcalling hcommands =>
      rw [hcalling]
      exact .inr rfl
  | gathered hfree hbatch =>
      obtain hidle | hcalled := hfree
      · rw [hidle]
        trivial
      · rw [hcalled]
        rfl
  | performed op hidle hbatch => exact hidle ▸ trivial
  | dispatched tick hop hidle hbatch => exact hidle ▸ trivial
  | made e hfound hidle hbatch => exact hidle ▸ trivial
  | dropped hinvalid hidle hbatch => exact hidle ▸ trivial
  | began tick hop hcalls ha hidle hbatch => exact hidle ▸ trivial
  | interrupted tick hbatch ha hidle => exact hidle ▸ trivial
  | missed hbatch ha hidle => exact hidle ▸ trivial

namespace Steps

theorem append (hsteps : Steps d h d') (hsteps' : Steps d' h' d'') : Steps d (h ++ h') d'' := by
  induction hsteps with
  | nil d => exact hsteps'
  | cons hstep hrest ih => exact .cons hstep (ih hsteps')

theorem single (hstep : Step d x d') : Steps d [x] d' := .cons hstep (.nil d')

/-- What happens in a row can be halted anywhere. -/
theorem exists_of_append (hsteps : Steps d (h ++ h') d'') :
    ∃ d', Steps d h d' ∧ Steps d' h' d'' := by
  induction h generalizing d with
  | nil => exact ⟨d, .nil d, hsteps⟩
  | cons x rest ih =>
      cases hsteps with
      | cons hstep hrest =>
          obtain ⟨d', hfirst, hsecond⟩ := ih hrest
          exact ⟨d', .cons hstep hfirst, hsecond⟩

/-- **What every step keeps**, it and what has happened so far, a row of steps keeps. -/
theorem preserves {P : List (Happening W M) → Docket W M → Prop}
    (hstep : ∀ {h d x d'}, Step d x d' → P h d → P (h ++ [x]) d') (hsteps : Steps d h' d')
    (hd : P h d) : P (h ++ h') d' := by
  induction hsteps generalizing h with
  | nil d => rwa [List.append_nil]
  | @cons d d' d'' x rest hfirst hrest ih =>
      rw [List.append_cons]
      exact ih (hstep hfirst hd)

end Steps

/-! ## operations on a docket -/

/-- Nothing is running on a stage but an operation, with some interrupts to carry out now. -/
structure Rests (d : Docket W M) (op : Operation W M) (s : Stage W M) (batch : List EntityId) :
    Prop where
  stage : d.stage = s
  op : d.op = some op
  idle : d.progress = .idle
  batch : d.batch = batch

/-- During an operation, happenings lead from one stage to another. -/
def Leads (op : Operation W M) (s : Stage W M) (h : List (Happening W M)) (s' : Stage W M) :
    Prop :=
  ∀ d : Docket W M, d.Rests op s [] → ∃ d', Steps d h d' ∧ d'.Rests op s' []

variable {op : Operation W M} {s s' s'' : Stage W M} {e : EntityId} {a : Agent W M}

theorem Leads.refl (op : Operation W M) (s : Stage W M) : Leads op s [] s :=
  fun d hd => ⟨d, .nil d, hd⟩

theorem Leads.append (hleads : Leads op s h s') (hleads' : Leads op s' h' s'') :
    Leads op s (h ++ h') s'' := by
  intro d hd
  obtain ⟨d', hsteps, hd'⟩ := hleads d hd
  obtain ⟨d'', hsteps', hd''⟩ := hleads' d' hd'
  exact ⟨d'', hsteps.append hsteps', hd''⟩

/-- A step that changes the stage and nothing else leads to the changed stage. -/
theorem Leads.cons (f : Stage W M → Stage W M)
    (hstep : ∀ d : Docket W M, d.stage = s → d.progress = .idle → d.batch = [] →
      Step d x { d with stage := f d.stage })
    (hleads : Leads op (f s) h s'') : Leads op s (x :: h) s'' := by
  rintro d ⟨rfl, hop, hidle, hbatch⟩
  obtain ⟨d'', hsteps, hd''⟩ := hleads { d with stage := f d.stage } ⟨rfl, hop, hidle, hbatch⟩
  exact ⟨d'', .cons (hstep d rfl hidle hbatch) hsteps, hd''⟩

/-! ## calls -/

/-- Requests are made one after the other in the call that is running. -/
theorem steps_requests {cause : Cause} {t : Turn W M} (requests : List Request)
    (hcalling : d.progress = .calling cause t) :
    Steps d (requests.map .requested)
      { d with
        stage := d.stage.mapSim
          ({ · with commands := requests.foldl Commands.ask d.stage.sim.commands }) } := by
  induction requests generalizing d with
  | nil => exact .nil d
  | cons r rest ih =>
      exact .cons (.requested r hcalling) (ih (d := { d with stage := d.stage.ask r }) hcalling)

/-- A call that has begun comes to its end. -/
theorem steps_call (cause : Cause) (tick : Tick)
    (hcalling : d.progress = .calling cause (d.stage.turn e a tick)) :
    Steps d (((d.stage.turn e a tick).requests cause.call).map .requested ++ [.ended e])
      { d with
        stage := d.stage.afterCall e a tick cause.call, progress := progressAfter cause } := by
  have hrequests := steps_requests ((d.stage.turn e a tick).requests cause.call) hcalling
  have hcommands := (d.stage.turn e a tick).commands_after cause.call
  refine hrequests.append (.single ?_)
  exact .ended (t := d.stage.turn e a tick) hcalling hcommands.symm

/-- Interrupts that have been taken are carried out. -/
theorem steps_interrupting (tick : Tick) {batch : List EntityId} (hd : d.Rests op s batch) :
    ∃ d', Steps d (s.interrupting tick batch) d' ∧ d'.Rests op (s.interruptAll tick batch) [] := by
  induction batch generalizing d s with
  | nil => exact ⟨d, .nil d, hd⟩
  | cons e rest ih =>
      obtain ⟨rfl, hop, hidle, hbatch⟩ := hd
      rw [Stage.interrupting]
      cases ha : d.stage.sim.agents[e]? with
      | none =>
          rw [Stage.interruptAll_cons_none ha]
          obtain ⟨d', hsteps, hd'⟩ := ih (d := { d with batch := rest }) ⟨rfl, hop, hidle, rfl⟩
          exact ⟨d', .cons (.missed hbatch ha hidle) hsteps, hd'⟩
      | some a =>
          rw [Stage.interruptAll_cons_some ha]
          have hbegan := Step.interrupted tick hbatch ha hidle
          have hcall := steps_call (e := e) (a := a) .asked tick
            (d := { d with
              progress := .calling .asked (d.stage.turn e a tick), batch := rest }) rfl
          obtain ⟨d', hsteps, hd'⟩ := ih (s := d.stage.afterCall e a tick .interrupt)
            (d := { d with
              stage := d.stage.afterCall e a tick .interrupt
              progress := .idle
              batch := rest }) ⟨rfl, hop, rfl, rfl⟩
          exact ⟨d', (Steps.cons hbegan hcall).append hsteps, hd'⟩

/-- The interrupts that are pending are carried out. -/
theorem steps_gathering (tick : Tick) (hop : d.op = some op)
    (hfree : d.progress = .idle ∨ d.progress = .called) (hbatch : d.batch = []) :
    ∃ d', Steps d (d.stage.gathering tick) d' ∧ d'.Rests op (d.stage.applyInterrupts tick) [] := by
  obtain ⟨d', hsteps, hd'⟩ := steps_interrupting tick
    (d := { d with
      stage := d.stage.gathered
      progress := .idle
      batch := d.stage.sim.commands.interrupts })
    ⟨rfl, hop, rfl, rfl⟩
  exact ⟨d', .cons (.gathered hfree hbatch) hsteps, hd'⟩

theorem leads_gathering (op : Operation W M) (s : Stage W M) (tick : Tick) :
    Leads op s (s.gathering tick) (s.applyInterrupts tick) := by
  rintro d ⟨rfl, hop, hidle, hbatch⟩
  exact steps_gathering tick hop (.inl hidle) hbatch

/-- A call into an agent is followed by the interrupts that are pending then. -/
theorem leads_call {cause : Cause} (hcalls : op.Calls e cause) (ha : s.sim.agents[e]? = some a)
    (tick : Tick) :
    Leads op s
      ((s.turn e a tick).happenings cause ++ (s.afterCall e a tick cause.call).gathering tick)
      ((s.afterCall e a tick cause.call).applyInterrupts tick) := by
  rintro d ⟨rfl, hop, hidle, hbatch⟩
  have hbegan := Step.began tick hop hcalls ha hidle hbatch
  have hcall := steps_call (e := e) (a := a) cause tick
    (d := { d with progress := .calling cause (d.stage.turn e a tick) }) rfl
  have hcalled : progressAfter (W := W) (M := M) cause = .called := by
    cases hcalls <;> rfl
  obtain ⟨d', hsteps, hd'⟩ := steps_gathering tick
    (d := { d with
      stage := d.stage.afterCall e a tick cause.call, progress := progressAfter cause })
    hop (.inr hcalled) hbatch
  exact ⟨d', (Steps.cons hbegan hcall).append hsteps, hd'⟩

theorem leads_calling {cause : Cause} (hcalls : op.Calls e cause) (s : Stage W M) (tick : Tick)
    {f : Turn W M → α × Turn W M} (hf : ∀ t, t.after cause.call = (f t).2) :
    Leads op s (s.calling e tick cause) (s.callAgent e tick f).2 := by
  rw [Stage.calling]
  cases ha : s.sim.agents[e]? with
  | none =>
      rw [Stage.callAgent_of_none ha]
      exact .refl op s
  | some a =>
      rw [Stage.callAgent_of_some ha tick hf]
      exact leads_call hcalls ha tick

/-! ## operations -/

theorem leads_spawning (hcalls : op.Calls e .spawned) (s : Stage W M) (r : SpawnRecord) :
    Leads op s (s.spawning e r) (s.spawn e r.entityType r.overrides).2 := by
  obtain ⟨entityType, overrides⟩ := r
  rw [Stage.spawning, Stage.spawn_eq]
  generalize SpawnRecord.mk entityType overrides = r
  cases hfound : s.definition? r with
  | none => exact .refl op s
  | some definition =>
      refine .cons (·.install e r definition) ?_ ?_
      · rintro d rfl hidle hbatch
        exact .made e hfound hidle hbatch
      · simp only
        cases (s.load r definition).1 with
        | error err => exact .refl op _
        | ok done => exact leads_calling hcalls _ _ fun t => by rw [Cause.call, Turn.after]

theorem leads_restoring (dt : Float32) (s : Stage W M) (records : List (EntityId × SpawnRecord)) :
    Leads (.update dt) s (s.restoring records) (s.respawnAll records) := by
  induction records generalizing s with
  | nil => exact .refl _ s
  | cons record rest ih =>
      obtain ⟨e, r⟩ := record
      exact (leads_spawning (.reset dt e) s r).append (ih _)

theorem leads_visiting {dt : Float32} (s : Stage W M) (tick : Tick) (e : EntityId) :
    Leads (.update dt) s (s.visiting tick e) (s.visit tick e) := by
  rw [Stage.visiting, Stage.visit]
  cases hvalid : World.isValid s.world e with
  | false =>
      refine .cons (·.mapSim fun sim => (sim.destroy e).2) ?_ (.refl _ _)
      rintro d rfl hidle hbatch
      exact .dropped hvalid hidle hbatch
  | true =>
      simp only [Bool.not_true, Bool.false_eq_true, if_false]
      cases ha : s.sim.agents[e]? with
      | none => exact leads_gathering _ s tick
      | some a => exact leads_call (.update dt e) ha tick

theorem leads_ticking {dt : Float32} (s : Stage W M) (tick : Tick) (entities : List EntityId) :
    Leads (.update dt) s (s.ticking tick entities) (s.tickAll tick entities) := by
  induction entities generalizing s with
  | nil => exact .refl _ s
  | cons e rest ih =>
      rw [Stage.tickAll_cons]
      exact (leads_visiting s tick e).append (ih _)

/-- A reset that is pending is taken when a tick is dispatched. -/
theorem leads_reset {dt : Float32} (tick : Tick) (s : Stage W M)
    (hlatch : s.sim.commands.resetRequested = true) :
    Leads (.update dt) s [.dispatched tick, .reset] s.withoutReset := by
  rintro d ⟨rfl, hop, hidle, hbatch⟩
  have hdispatched := Step.dispatched tick hop hidle hbatch
  rw [hlatch] at hdispatched
  have hreset := Step.reset (d := { d with progress := .resetting }) rfl hbatch
  exact ⟨_, .cons hdispatched (.single hreset), rfl, hop, rfl, hbatch⟩

/-- A tick that is dispatched begins with the pending reset. -/
theorem leads_resetting {dt : Float32} (tick : Tick) (s : Stage W M) :
    Leads (.update dt) s (.dispatched tick :: s.resetting) s.applyReset := by
  rw [Stage.resetting, Stage.applyReset_eq]
  cases hlatch : s.sim.commands.resetRequested with
  | false =>
      rintro d ⟨rfl, hop, hidle, hbatch⟩
      -- taking a reset that is not pending leaves the stage as it is
      have hsame : d.stage.withoutReset = d.stage := by
        rw [Stage.withoutReset, Commands.takeReset, ← hlatch]
        rfl
      have hdispatched := Step.dispatched tick hop hidle hbatch
      rw [hlatch] at hdispatched
      exact ⟨_, .single hdispatched, hsame.symm, hop, rfl, hbatch⟩
  | true => exact (leads_reset tick s hlatch).append (leads_restoring dt _ _)

/-- **An operation that has been set about** comes to its end by what happens. -/
theorem leads_happenings (s : Stage W M) (op : Operation W M) :
    Leads op (s.outset op) (s.happenings op) (s.perform op) := by
  cases op with
  | spawn e entityType overrides =>
      exact leads_spawning (.spawn e entityType overrides) s { entityType, overrides }
  | update dt =>
      rw [Stage.outset, Stage.happenings, Stage.perform, Stage.update_eq]
      cases s.advance dt with
      | mk due u =>
          cases due with
          | none => exact .refl _ u
          | some tick => exact (leads_resetting tick u).append (leads_ticking _ tick _)
  | tickEntity e dt =>
      exact leads_calling (.tickEntity e dt) s _ fun t => by rw [Cause.call, Turn.after]
  | forceInterrupt e =>
      exact leads_calling (.forceInterrupt e) s _ fun t => by rw [Cause.call, Turn.after]
  | replanTo e pairs merge =>
      rw [Stage.outset, Stage.happenings, Stage.perform, Stage.replanTo_eq]
      cases s.encodeGoal e pairs with
      | mk result u =>
          cases result with
          | error err => exact .refl _ u
          | ok goal =>
              exact leads_calling (.replanTo e pairs goal merge) u _
                fun t => by rw [Cause.call, Turn.after]
  | _ => exact .refl _ _

/-- **Histories are made of steps**, and lead to the stage behind the operations. -/
theorem steps_history (ops : List (Operation W M)) (hidle : d.progress = .idle)
    (hbatch : d.batch = []) :
    ∃ d', Steps d (d.stage.history ops) d' ∧ d'.stage = ops.foldl Stage.perform d.stage ∧
      d'.progress = .idle ∧ d'.batch = [] := by
  induction ops generalizing d with
  | nil => exact ⟨d, .nil d, rfl, hidle, hbatch⟩
  | cons op rest ih =>
      obtain ⟨u, hsteps, hstage, hop, hu, hubatch⟩ := leads_happenings d.stage op
        { d with stage := d.stage.outset op, op := some op }
        ⟨rfl, rfl, hidle, hbatch⟩
      obtain ⟨d', hrest, hd'⟩ := ih hu hubatch
      rw [hstage] at hrest hd'
      exact ⟨d', .cons (.performed op hidle hbatch) (hsteps.append hrest), hd'⟩

/-- **Every point of a run has its docket**, from which what is left of the run goes on. -/
theorem exists_between (s : Stage W M) (ops : List (Operation W M))
    (hsplit : s.history ops = h ++ h') :
    ∃ d d', Steps { stage := s } h d ∧ Steps d h' d' ∧
      d'.stage = ops.foldl Stage.perform s ∧ d'.progress = .idle ∧ d'.batch = [] := by
  obtain ⟨d', hsteps, hd'⟩ := steps_history (d := { stage := s }) ops rfl rfl
  rw [hsplit] at hsteps
  obtain ⟨d, hbefore, hafter⟩ := hsteps.exists_of_append
  exact ⟨d, d', hbefore, hafter, hd'⟩

end Steps

end Docket

end PlanningAgents
