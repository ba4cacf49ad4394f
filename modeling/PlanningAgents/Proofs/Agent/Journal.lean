import PlanningAgents.Proofs.Agent.Parts

/-!
# PlanningAgents.Proofs.Agent.Journal

What handlers have been run, and in which order.  A call into an agent does not tell, but its
handlers can: a definition of which every handler notes its own runs in the world (`journaled`) is
carried out by the same calls, and does the same as the definition without notes.

A task that is parked remembers what it needs; with notes it remembers besides that it has been
parked, so that the note of its next run tells it from a fresh one.

Main statements:

* `Handler.run_journaled` — a handler with notes does what it does without them, and adds its note;
* `Turn.call_journaled` — so it is in a call.
-/

namespace PlanningAgents

variable {W M α β : Type}

/-! ## notes -/

/-- A run of a handler, by what it serves. -/
inductive Run (M : Type) where
  | start (action : String) (result : Except HandlerError Unit)
  /-- A run of a task, which goes on from what it remembers or is a fresh one. -/
  | resume (action : String) (task : Option M) (result : Except HandlerError (TaskProgress M))
  | finish (action : String)
  | abort (action : String) (reason : AbortReason)
  | update (name : String)
  | seed
  | selectGoal
  | noPlan

/-- The note of a run: what the handler saw at its beginning, and at its end. -/
structure Note (W M : Type) where
  run : Run M
  before : View W
  after : View W

/-- A world with the notes that have been made in it. -/
structure Journaled (W M : Type) where
  world : W
  notes : List (Note W M) := []

/-- Adds a note. -/
def Journaled.add (j : Journaled W M) (e : Note W M) : Journaled W M :=
  { j with notes := j.notes ++ [e] }

/-- What a handler without notes sees. -/
def View.plain (v : View (Journaled W M)) : View W := { v with world := v.world.world }

/-- A context in which notes have been made. -/
def Context.journaled (c : Context W) (notes : List (Note W M)) : Context (Journaled W M) :=
  { c with world := { world := c.world, notes } }

/-! ## handlers with notes -/

/-- An operation that leaves the notes alone. -/
def ContextOp.journaled : ContextOp W → ContextOp (Journaled W M)
  | .setAtom atom value => .setAtom atom value
  | .setGoal pairs => .setGoal pairs
  | .mergeGoal pairs => .mergeGoal pairs
  | .clearGoal => .clearGoal
  | .reportGoal goal reason => .reportGoal goal reason
  | .record kind message => .record kind message
  | .changeWorld f => .changeWorld fun j => { j with world := f j.world }
  | .changeBlackboard f => .changeBlackboard f
  | .requestReset => .requestReset
  | .requestInterrupt e => .requestInterrupt e

namespace Handler

/-- Notes a run that ends here. -/
def noted (run : Run M) (before : View W) (h : Handler (Journaled W M) β) :
    Handler (Journaled W M) β :=
  .look fun v => .act (.changeWorld (·.add { run, before, after := v.plain })) h

/-- The rest of a handler, with a note at its end. -/
def noting (label : Except HandlerError α → Run M) (f : α → β) (before : View W) :
    Handler W α → Handler (Journaled W M) β
  | .done a => noted (label (.ok a)) before (.done (f a))
  | .fail e => noted (label (.error e)) before (.fail e)
  | .look k => .look fun v => noting label f before (k v.plain)
  | .act op next => .act op.journaled (noting label f before next)

/-- A handler that notes its runs. -/
def journaled (h : Handler W α) (label : Except HandlerError α → Run M) (f : α → β) :
    Handler (Journaled W M) β :=
  .look fun v => h.noting label f v.plain

end Handler

/-- An operation on a context with notes does what it does without them. -/
theorem Context.perform_journaled (c : Context W) (notes : List (Note W M)) (op : ContextOp W) :
    (c.journaled notes).perform op.journaled = (c.perform op).journaled notes := by
  cases op with
  | setAtom atom value =>
      simp only [ContextOp.journaled, perform, journaled]
      split
      · rfl
      · rfl
  | setGoal pairs =>
      simp only [ContextOp.journaled, perform, journaled]
      split
      · rfl
      · rfl
  | mergeGoal pairs =>
      simp only [ContextOp.journaled, perform, journaled]
      split
      · rfl
      · rfl
  | clearGoal => rfl
  | reportGoal goal reason => rfl
  | record kind message => rfl
  | changeWorld f => rfl
  | changeBlackboard f => rfl
  | requestReset => rfl
  | requestInterrupt e => rfl

namespace Handler

theorem run_noting (label : Except HandlerError α → Run M) (f : α → β) (before : View W)
    (h : Handler W α) (c : Context W) (notes : List (Note W M)) :
    (h.noting label f before).run (c.journaled notes) =
      ((h.run c).1.map f, (h.run c).2.journaled
        (notes ++ [{ run := label (h.run c).1, before, after := (h.run c).2.view }])) := by
  induction h generalizing c with
  | done a => rfl
  | fail e => rfl
  | look k ih => exact ih _ c
  | act op next ih =>
      rw [noting, run, Context.perform_journaled, ih]
      rfl

/-- **A handler with notes** does what it does without them, and adds its note. -/
theorem run_journaled (h : Handler W α) (label : Except HandlerError α → Run M) (f : α → β)
    (c : Context W) (notes : List (Note W M)) :
    (h.journaled label f).run (c.journaled notes) =
      ((h.run c).1.map f, (h.run c).2.journaled
        (notes ++ [{ run := label (h.run c).1, before := c.view, after := (h.run c).2.view }])) :=
  run_noting label f c.view h c notes

end Handler

/-! ## definitions with notes -/

/-- The progress of a task that remembers besides that it has been parked. -/
def TaskProgress.journaled : TaskProgress M → TaskProgress (Option M)
  | .yielded memory => .yielded (some memory)
  | .returned status => .returned status

/-- The behaviour of an action, with notes. -/
def ActionHandlers.journaled (name : String) (h : ActionHandlers W M) :
    ActionHandlers (Journaled W M) (Option M) where
  start := h.start.journaled (.start name) id
  fresh := none
  resume task := (h.resume (task.getD h.fresh)).journaled (.resume name task) TaskProgress.journaled
  finish := h.finish.journaled (fun _ => .finish name) id
  abort reason := (h.abort reason).journaled (fun _ => .abort name reason) id

/-- The behaviour of agents, with notes. -/
def Bindings.journaled (b : Bindings W M) : Bindings (Journaled W M) (Option M) where
  actions := b.actions.map fun name h => h.journaled name
  goalSelectors := b.goalSelectors.map fun _ h => h.journaled (fun _ => .selectGoal) id
  updaters := b.updaters.map fun u => (u.1, u.2.journaled (fun _ => .update u.1) id)
  blackboardInit := b.blackboardInit.map fun _ h => h.journaled (fun _ => .seed) id
  noPlan := b.noPlan.map fun h => h.journaled (fun _ => .noPlan) id

/-- A definition of which every handler notes its runs. -/
def Definition.journaled (d : Definition W M) : Definition (Journaled W M) (Option M) where
  data := d.data
  bindings := d.bindings.journaled

/-- A queued action of which every handler notes its runs. -/
def ActionRecord.journaled (r : ActionRecord W M) : ActionRecord (Journaled W M) (Option M) :=
  { r with handlers := r.handlers.journaled r.name, task := r.task.map some }

/-- An agent of which every handler notes its runs. -/
def Agent.journaled (a : Agent W M) : Agent (Journaled W M) (Option M) :=
  { a with
    definition := a.definition.journaled, queue := a.queue.map ActionRecord.journaled }

/-! ## calls with notes -/

namespace Turn

variable (t : Turn W M) (notes : List (Note W M))

/-- A call in which every handler notes its runs. -/
def journaled : Turn (Journaled W M) (Option M) :=
  { t with agent := t.agent.journaled, world := { world := t.world, notes } }

/-- The note of a handler that is run now. -/
def note (h : Handler W α) (label : Except HandlerError α → Run M) : Note W M where
  run := label (h.run t.context).1
  before := t.context.view
  after := (h.run t.context).2.view

/-- A note tells how the handler ended. -/
theorem run_note {t u : Turn W M} {h : Handler W α} {label : Except HandlerError α → Run M}
    {r : Except HandlerError α} (hcall : t.call h = (r, u)) : (t.note h label).run = label r := by
  obtain ⟨rfl, -⟩ := Prod.mk.inj hcall
  rfl

/-- **Running a handler with notes** adds its note. -/
theorem run_journaled (h : Handler W α) (label : Except HandlerError α → Run M) (f : α → β) :
    (h.journaled label f).run (t.journaled notes).context =
      ((h.run t.context).1.map f,
        (h.run t.context).2.journaled (notes ++ [t.note h label])) :=
  h.run_journaled label f t.context notes

theorem call_journaled (h : Handler W α) (label : Except HandlerError α → Run M) (f : α → β) :
    (t.journaled notes).call (h.journaled label f) =
      ((t.call h).1.map f, (t.call h).2.journaled (notes ++ [t.note h label])) := by
  rw [call, run_journaled]
  rfl

/-- The notes do not change a result. -/
theorem map_id (r : Except HandlerError α) : r.map id = r := by
  cases r with
  | ok a => rfl
  | error e => rfl

theorem call_journaled_id (h : Handler W α) (label : Except HandlerError α → Run M) :
    (t.journaled notes).call (h.journaled label id) =
      ((t.call h).1, (t.call h).2.journaled (notes ++ [t.note h label])) := by
  rw [call_journaled, map_id]

theorem mapAgent_journaled {f : Agent W M → Agent W M}
    {g : Agent (Journaled W M) (Option M) → Agent (Journaled W M) (Option M)}
    (h : g t.agent.journaled = (f t.agent).journaled) :
    (t.journaled notes).mapAgent g = (t.mapAgent f).journaled notes := by
  rw [mapAgent, mapAgent, journaled, h]
  rfl

theorem mapFront_journaled {f : ActionRecord W M → ActionRecord W M}
    {g : ActionRecord (Journaled W M) (Option M) → ActionRecord (Journaled W M) (Option M)}
    (h : ∀ r : ActionRecord W M, g r.journaled = (f r).journaled) :
    (t.journaled notes).mapFront g = (t.mapFront f).journaled notes := by
  refine t.mapAgent_journaled notes ?_
  cases hqueue : t.agent.queue with
  | nil => simp [Agent.journaled, hqueue]
  | cons r rest => simp [Agent.journaled, hqueue, h]

theorem record_journaled (kind : TraceKind) (message : String) (extra : List (String × String)) :
    (t.journaled notes).record kind message extra =
      (t.record kind message extra).journaled notes := rfl

end Turn

end PlanningAgents
