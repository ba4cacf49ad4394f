import PlanningAgents.Error

/-!
# PlanningAgents.Proofs.Attempt

Operations on a state that may fail, step by step: what a step leaves is what the next one finds,
and an error ends the operation with the state as it is by then.

Main statements:

* `Attempt.runOn_bind` — the steps of an operation run one after the other;
* `Attempt.Keeps` and its rules — what every step keeps, the whole operation keeps, whether or
  not it succeeds.
-/

namespace PlanningAgents

/-- Two steps that may fail succeed when the one does, and then the other. -/
theorem bind_eq_ok_iff {ε α β : Type} {x : Except ε α} {f : α → Except ε β} {b : β} :
    x >>= f = .ok b ↔ ∃ a, x = .ok a ∧ f a = .ok b := by
  cases x <;> simp [bind, Except.bind]

namespace Attempt

variable {σ α β : Type}

/-! ## running steps -/

@[simp] theorem runOn_get (s : σ) : (get : Attempt σ σ).runOn s = (.ok s, s) := rfl

@[simp] theorem runOn_set (t s : σ) : (set t : Attempt σ Unit).runOn s = (.ok (), t) := rfl

@[simp] theorem runOn_lift (x : Except AgentError α) (s : σ) :
    (liftM x : Attempt σ α).runOn s = (x, s) := by
  cases x <;> rfl

/-- The steps of an operation run one after the other, up to the first error. -/
theorem runOn_bind (x : Attempt σ α) (f : α → Attempt σ β) (s : σ) :
    (x >>= f).runOn s =
      match x.runOn s with
      | (.ok a, t) => (f a).runOn t
      | (.error e, t) => (.error e, t) := by
  show (ExceptT.bind x f).run s = _
  simp only [ExceptT.bind, ExceptT.run, ExceptT.mk, runOn]
  cases hx : x s with
  | mk r t =>
      cases r with
      | ok a => simp only [bind, StateT.bind, hx, ExceptT.bindCont]
      | error e =>
          simp only [bind, StateT.bind, hx, ExceptT.bindCont]
          rfl

/-- Two steps succeed when the one does, and then the other. -/
theorem runOn_bind_eq_ok_iff {x : Attempt σ α} {f : α → Attempt σ β} {s u : σ} {b : β} :
    (x >>= f).runOn s = (.ok b, u) ↔
      ∃ a t, x.runOn s = (.ok a, t) ∧ (f a).runOn t = (.ok b, u) := by
  rw [runOn_bind]
  cases x.runOn s with
  | mk r t =>
      cases r with
      | ok a =>
          constructor
          · exact fun h => ⟨a, t, rfl, h⟩
          · rintro ⟨_, _, ⟨rfl, rfl⟩, h⟩
            exact h
      | error e => simp

/-! ## what an operation keeps -/

/-- An operation keeps a property of the state, whether or not it succeeds. -/
def Keeps (P : σ → Prop) (x : Attempt σ α) : Prop := ∀ s, P s → P (x.runOn s).2

namespace Keeps

variable {P : σ → Prop}

theorem pure (a : α) : Keeps P (Pure.pure a : Attempt σ α) := fun _ hs => hs

/-- What both steps keep, the two of them keep. -/
theorem bind {x : Attempt σ α} {f : α → Attempt σ β} (hx : Keeps P x) (hf : ∀ a, Keeps P (f a)) :
    Keeps P (x >>= f) := by
  intro s hs
  have ht := hx s hs
  rw [runOn_bind]
  cases h : x.runOn s with
  | mk r t =>
      rw [h] at ht
      cases r with
      | ok a => exact hf a t ht
      | error e => exact ht

theorem modify {f : σ → σ} (h : ∀ s, P s → P (f s)) : Keeps P (modify f : Attempt σ Unit) := h

/-- What a step keeps for every element, the walk over a list keeps. -/
theorem forM {f : α → Attempt σ PUnit} (h : ∀ a, Keeps P (f a)) (xs : List α) :
    Keeps P (xs.forM f) := by
  induction xs with
  | nil => exact pure _
  | cons x xs ih => exact bind (h x) fun _ => ih

end Keeps

end Attempt

end PlanningAgents
