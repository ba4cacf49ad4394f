import PlanningAgents.Proofs.Agent.Translation

/-!
# PlanningAgents.Proofs.Agent.Requests

What handlers ask for.  The commands that a call leaves behind do not tell: an interrupt that is
asked for twice is pending once.  So the handlers are moved to a world in which each request is
heard when it is made, where they do the same besides (`Translation.heard`), and the requests of a
call are those that have been heard at its end.

Main statements:

* `Handler.run_heard` — a handler that is heard does what it does anyway;
* `Turn.requests` — what the handlers of a call ask for, in order;
* `Turn.commands_after` — the commands behind a call are those before it, with its requests made.
-/

namespace PlanningAgents

variable {W M α : Type}

/-! ## requests -/

/-- What a handler may ask for. -/
inductive Request where
  | interrupt (e : EntityId)
  | reset
  deriving DecidableEq, Repr

/-- Makes a request. -/
def Commands.ask (c : Commands) : Request → Commands
  | .interrupt e => c.requestInterrupt e
  | .reset => c.requestReset

/-- The request that an operation makes. -/
def ContextOp.request? : ContextOp W → Option Request
  | .requestInterrupt e => some (.interrupt e)
  | .requestReset => some .reset
  | _ => none

/-- A world with the requests that have been heard in it. -/
structure Heard (W : Type) where
  world : W
  requests : List Request := []

/-- Hears a request. -/
def Heard.hear (w : Heard W) (r : Request) : Heard W := { w with requests := w.requests ++ [r] }

/-- What a handler sees that is not heard. -/
def View.unheard (v : View (Heard W)) : View W := { v with world := v.world.world }

/-- A context in which requests have been heard. -/
def Context.heard (c : Context W) (requests : List Request) : Context (Heard W) :=
  c.inWorld { world := c.world, requests } c.commands

/-- An operation in the world of which hearing requests is a part. -/
def ContextOp.heard : ContextOp W → ContextOp (Heard W)
  | .setAtom atom value => .setAtom atom value
  | .setGoal pairs => .setGoal pairs
  | .mergeGoal pairs => .mergeGoal pairs
  | .clearGoal => .clearGoal
  | .reportGoal goal reason => .reportGoal goal reason
  | .record kind message => .record kind message
  | .changeWorld f => .changeWorld fun w => { w with world := f w.world }
  | .changeBlackboard f => .changeBlackboard f
  | .requestReset => .requestReset
  | .requestInterrupt e => .requestInterrupt e

/-- An operation does there what it does anyway. -/
theorem Context.perform_heard (c : Context W) (requests : List Request) (op : ContextOp W) :
    (c.heard requests).perform op.heard = (c.perform op).heard requests := by
  cases op with
  | setAtom atom value =>
      simp only [ContextOp.heard, perform, heard, inWorld]
      split
      · rfl
      · rfl
  | setGoal pairs =>
      simp only [ContextOp.heard, perform, heard, inWorld]
      split
      · rfl
      · rfl
  | mergeGoal pairs =>
      simp only [ContextOp.heard, perform, heard, inWorld]
      split
      · rfl
      · rfl
  | _ => rfl

/-- An operation changes the commands only by the request that it makes. -/
theorem Context.commands_perform (c : Context W) (op : ContextOp W) :
    (c.perform op).commands = op.request?.elim c.commands c.commands.ask := by
  cases op with
  | setAtom atom value =>
      simp only [perform]
      split
      · rfl
      · rfl
  | setGoal pairs =>
      simp only [perform]
      split
      · rfl
      · rfl
  | mergeGoal pairs =>
      simp only [perform]
      split
      · rfl
      · rfl
  | _ => rfl

namespace Handler

/-- A handler of which every request is heard. -/
def heard : Handler W α → Handler (Heard W) α
  | .done a => .done a
  | .fail e => .fail e
  | .look k => .look fun v => (k v.unheard).heard
  | .act op next =>
    match op.request? with
    | none => .act op.heard next.heard
    | some r => .act op.heard (.act (.changeWorld (·.hear r)) next.heard)

/-- The requests that a handler makes, in order. -/
def requests : Handler W α → Context W → List Request
  | .done _, _ => []
  | .fail _, _ => []
  | .look k, c => (k c.view).requests c
  | .act op next, c => op.request?.toList ++ next.requests (c.perform op)

/-- **A handler that is heard** does what it does anyway, and all of its requests are heard. -/
theorem run_heard (h : Handler W α) (c : Context W) (requests : List Request) :
    h.heard.run (c.heard requests) =
      ((h.run c).1, (h.run c).2.heard (requests ++ h.requests c)) := by
  induction h generalizing c requests with
  | done a => rw [Handler.requests, List.append_nil]; rfl
  | fail e => rw [Handler.requests, List.append_nil]; rfl
  | look k ih => exact ih _ c requests
  | act op next ih =>
      cases hrequest : op.request? with
      | none =>
          simp only [heard, Handler.requests, hrequest, run, Context.perform_heard, ih,
            Option.toList_none, List.nil_append]
      | some r =>
          have hheard : ((c.perform op).heard requests).perform (.changeWorld (·.hear r)) =
              (c.perform op).heard (requests ++ [r]) := rfl
          simp only [heard, Handler.requests, hrequest, run, Context.perform_heard, hheard, ih,
            Option.toList_some, List.append_assoc]

/-- The commands behind a handler are those before it, with its requests made. -/
theorem commands_run (h : Handler W α) (c : Context W) :
    (h.run c).2.commands = (h.requests c).foldl Commands.ask c.commands := by
  induction h generalizing c with
  | done a => rfl
  | fail e => rfl
  | look k ih => exact ih _ c
  | act op next ih =>
      rw [run, Handler.requests, ih, Context.commands_perform]
      cases op.request? with
      | none => rfl
      | some r => rfl

end Handler

/-! ## calls -/

/-- **Handlers that are heard.**  From given commands on, all requests that have been heard have
been made. -/
def Translation.heard (before : Commands) : Translation W (Heard W) where
  handler := Handler.heard
  Fits world commands world' commands' :=
    world'.world = world ∧ commands' = commands ∧
      commands = world'.requests.foldl Commands.ask before
  run_handler h c world' commands' hfits := by
    obtain ⟨hworld, rfl, hcommands⟩ := hfits
    have hcontext : c.inWorld world' c.commands = c.heard world'.requests := by
      rw [Context.heard, ← hworld]
    refine ⟨{ world := (h.run c).2.world, requests := world'.requests ++ h.requests c },
      (h.run c).2.commands, ?_, rfl, rfl, ?_⟩
    · rw [hcontext, h.run_heard]
      rfl
    · rw [h.commands_run, hcommands, List.foldl_append]

namespace Turn

variable (t : Turn W M)

/-- The call with handlers that are heard. -/
def heard : Turn (Heard W) M :=
  t.translate (Translation.heard t.commands) { world := t.world } t.commands

/-- **What the handlers of a call ask for**, in order. -/
def requests (call : Call) : List Request := (t.heard.after call).world.requests

theorem mirrors_heard : (Translation.heard t.commands).Mirrors t t.heard :=
  ⟨{ world := t.world }, t.commands, rfl, rfl, rfl, rfl⟩

/-- **The commands behind a call** are those before it, with its requests made. -/
theorem commands_after (call : Call) :
    (t.after call).commands = (t.requests call).foldl Commands.ask t.commands := by
  obtain ⟨world, commands, hafter, hworld, hsame, hcommands⟩ := t.mirrors_heard.after call
  rw [requests, hafter]
  exact hcommands

end Turn

end PlanningAgents
