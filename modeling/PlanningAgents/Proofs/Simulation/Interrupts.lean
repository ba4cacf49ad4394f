import PlanningAgents.Proofs.Simulation.Docket

/-!
# PlanningAgents.Proofs.Simulation.Interrupts

No interrupt that a handler asks for is lost, and none is carried out twice.  A ledger is kept of
what happens: of the interrupts that have been asked for, what has become of them, which have been
taken to be carried out now and which are pending.  It is kept from the history alone, and agrees
with the stage at every point (`Docket.Records`).

The ledger balances at every point of every run: what has been asked for, without what was pending
already, is what has been settled, what has been taken and what is pending, in this order.  So
interrupts are carried out in the order in which they were first asked for.  They are carried out
while no other call is running, and those that are taken together are carried out to the last,
whatever is asked for meanwhile.

Main statements:

* `Ledger.next`, `Ledger.Balanced` — the ledger, and what it is for it to balance;
* `Docket.Step.records`, `Docket.Step.balanced` — every step is recorded, and keeps the balance;
* `Docket.Heeds`, `Docket.Step.heeds` — what is the case when something happens;
* `Docket.Steps.drained` — interrupts that have been taken are carried out to the last;
* `Stage.interrupts_conserved` — interrupts in every run, at each of its points.
-/

namespace PlanningAgents

variable {W M : Type}

/-! ## the ledger -/

/-- What has become of an interrupt that was asked for. -/
inductive Fate where
  | interrupted
  /-- There was no agent to interrupt. -/
  | missed
  /-- The simulation was shut down. -/
  | discarded
  deriving DecidableEq, Repr

/-- What is known of the interrupts that handlers have asked for. -/
structure Ledger where
  /-- All of them, but for those that were pending already. -/
  admitted : List EntityId := []
  /-- What has become of them. -/
  settled : List (EntityId × Fate) := []
  /-- Those that have been taken to be carried out now. -/
  batch : List EntityId := []
  pending : List EntityId := []
  deriving DecidableEq, Repr

namespace Ledger

/-- Records what happens. -/
def next (l : Ledger) : Happening W M → Ledger
  | .requested (.interrupt e) =>
    if e ∈ l.pending then l
    else { l with admitted := l.admitted ++ [e], pending := l.pending ++ [e] }
  | .gathered => { l with batch := l.pending, pending := [] }
  | .began .asked t =>
    { l with settled := l.settled ++ [(t.entity, .interrupted)], batch := l.batch.tail }
  | .missed e => { l with settled := l.settled ++ [(e, .missed)], batch := l.batch.tail }
  | .performed .shutdown =>
    { l with settled := l.settled ++ l.pending.map (·, .discarded), pending := [] }
  | _ => l

/-- **No interrupt is lost**, none is doubled, and they stay in order. -/
structure Balanced (l : Ledger) : Prop where
  conserved : l.admitted = l.settled.map Prod.fst ++ l.batch ++ l.pending
  nodup : l.pending.Nodup

variable {l : Ledger}

theorem Balanced.request (h : l.Balanced) (e : EntityId) :
    (l.next (.requested (.interrupt e) : Happening W M)).Balanced := by
  rw [next]
  by_cases he : e ∈ l.pending
  · rw [if_pos he]
    exact h
  · rw [if_neg he]
    refine ⟨?_, ?_⟩
    · simp only [h.conserved, List.append_assoc]
    · exact List.nodup_append.mpr ⟨h.nodup, List.nodup_singleton e, by
        rintro a ha b hb rfl
        exact he (List.mem_singleton.mp hb ▸ ha)⟩

/-- What is taken was pending. -/
theorem Balanced.gather (h : l.Balanced) (hbatch : l.batch = []) :
    (l.next (.gathered : Happening W M)).Balanced := by
  refine ⟨?_, List.nodup_nil⟩
  rw [next, h.conserved, hbatch, List.append_nil, List.append_nil]

/-- What is settled is the first of those that have been taken. -/
theorem Balanced.settle (h : l.Balanced) {e : EntityId} {rest : List EntityId}
    (hbatch : l.batch = e :: rest) (fate : Fate) :
    Balanced { l with settled := l.settled ++ [(e, fate)], batch := l.batch.tail } := by
  refine ⟨?_, h.nodup⟩
  rw [h.conserved, hbatch]
  simp only [List.map_append, List.map_cons, List.map_nil, List.tail_cons, List.append_assoc,
    List.cons_append, List.nil_append]

/-- A shutdown settles all that is pending. -/
theorem Balanced.discard (h : l.Balanced) (hbatch : l.batch = []) :
    (l.next (.performed .shutdown : Happening W M)).Balanced := by
  refine ⟨?_, List.nodup_nil⟩
  rw [next, h.conserved, hbatch]
  simp [Function.comp_def]

end Ledger

/-- Carrying out interrupts consists of these. -/
def Happening.Drains : Happening W M → Prop
  | .began cause _ => cause = .asked
  | .requested _ | .ended _ | .missed _ => True
  | _ => False

namespace Docket

/-! ## what an operation calls an agent for -/

theorem ne_asked_of_calls {op : Operation W M} {e : EntityId} {cause : Cause}
    (hcalls : op.Calls e cause) : cause ≠ .asked := by
  cases hcalls <;> exact nofun

/-- An agent that an operation interrupts is the one that it forces to be. -/
theorem forced_of_calls {op : Operation W M} {e : EntityId} {cause : Cause}
    (hcalls : op.Calls e cause) (hcall : cause.call = .interrupt) :
    cause = .forced ∧ op = .forceInterrupt e := by
  cases hcalls with
  | forceInterrupt e => exact ⟨rfl, rfl⟩
  | _ => cases hcall

/-- A call that an operation makes settles nothing. -/
theorem next_of_calls {op : Operation W M} {e : EntityId} {cause : Cause}
    (hcalls : op.Calls e cause) (l : Ledger) (t : Turn W M) : l.next (.began cause t) = l := by
  cases hcalls <;> rfl

/-! ## the ledger of a docket -/

/-- No call is running. -/
def Free (d : Docket W M) : Prop := ∀ cause t, d.progress ≠ .calling cause t

theorem free_of_idle {d : Docket W M} (hidle : d.progress = .idle) : d.Free := by
  intro cause t hcalling
  rw [hidle] at hcalling
  cases hcalling

/-- The ledger agrees with the stage. -/
structure Records (d : Docket W M) (l : Ledger) : Prop where
  batch : d.batch = l.batch
  pending : d.stage.sim.commands.interrupts = l.pending

/-- **What is the case when something happens.** -/
def Heeds (d : Docket W M) : Happening W M → Prop
  | .began cause t =>
    d.Free ∧ (cause.call = .interrupt →
      (cause = .asked ∧ d.batch.head? = some t.entity) ∨
        (cause = .forced ∧ d.op = some (.forceInterrupt t.entity)))
  | .requested _ => ∃ cause t, d.progress = .calling cause t
  | .ended e => ∃ cause t, d.progress = .calling cause t ∧ t.entity = e
  | .missed e => d.Free ∧ d.batch.head? = some e ∧ d.stage.sim.agents[e]? = none
  | .gathered | .performed _ => d.Free ∧ d.batch = []
  | _ => d.Free

variable [World W] {d d' : Docket W M} {l : Ledger} {x : Happening W M} {h : List (Happening W M)}

theorem Step.heeds (hstep : Step d x d') : d.Heeds x := by
  cases hstep with
  | performed op hidle hbatch => exact ⟨free_of_idle hidle, hbatch⟩
  | dispatched tick hop hidle hbatch => exact free_of_idle hidle
  | reset hdue hbatch =>
      intro cause t hcalling
      rw [hdue] at hcalling
      cases hcalling
  | made e hfound hidle hbatch => exact free_of_idle hidle
  | dropped hinvalid hidle hbatch => exact free_of_idle hidle
  | began tick hop hcalls ha hidle hbatch =>
      refine ⟨free_of_idle hidle, fun hcall => .inr ?_⟩
      obtain ⟨hforced, rfl⟩ := forced_of_calls hcalls hcall
      exact ⟨hforced, hop⟩
  | interrupted tick hbatch ha hidle =>
      refine ⟨free_of_idle hidle, fun _ => .inl ⟨rfl, ?_⟩⟩
      rw [hbatch]
      rfl
  | requested r hcalling => exact ⟨_, _, hcalling⟩
  | ended hcalling hcommands => exact ⟨_, _, hcalling, rfl⟩
  | gathered hfree hbatch =>
      refine ⟨fun cause t hcalling => ?_, hbatch⟩
      rw [hcalling] at hfree
      exact hfree.elim nofun nofun
  | missed hbatch ha hidle =>
      refine ⟨free_of_idle hidle, ?_, ha⟩
      rw [hbatch]
      rfl

/-- **Every step is recorded.** -/
theorem Step.records (hstep : Step d x d') (hd : d.Records l) : d'.Records (l.next x) := by
  obtain ⟨hbatch, hpending⟩ := hd
  cases hstep with
  | performed op hidle hnone =>
      have houtset := d.stage.commands_outset op
      cases op with
      | shutdown => exact ⟨hbatch, rfl⟩
      | _ => exact ⟨hbatch, (congrArg Commands.interrupts houtset).trans hpending⟩
  | began tick hop hcalls ha hidle hnone =>
      rw [next_of_calls hcalls]
      exact ⟨hbatch, hpending⟩
  | interrupted tick hnext ha hidle =>
      refine ⟨?_, hpending⟩
      rw [Ledger.next, ← hbatch, hnext]
      rfl
  | missed hnext ha hidle =>
      refine ⟨?_, hpending⟩
      rw [Ledger.next, ← hbatch, hnext]
      rfl
  | requested r hcalling =>
      cases r with
      | reset => exact ⟨hbatch, hpending⟩
      | interrupt e =>
          have hasked : (d.stage.ask (.interrupt e)).sim.commands.interrupts =
              (d.stage.sim.commands.requestInterrupt e).interrupts := rfl
          rw [Ledger.next, ← hpending]
          by_cases he : e ∈ d.stage.sim.commands.interrupts
          · rw [if_pos he]
            refine ⟨hbatch, ?_⟩
            rw [hasked, Commands.requestInterrupt, if_pos he, hpending]
          · rw [if_neg he]
            refine ⟨hbatch, ?_⟩
            rw [hasked, Commands.requestInterrupt, if_neg he]
  | ended hcalling hcommands =>
      exact ⟨hbatch, (congrArg Commands.interrupts hcommands).symm.trans hpending⟩
  | gathered hfree hnone => exact ⟨hpending, rfl⟩
  | _ => exact ⟨hbatch, hpending⟩

/-- **Every step keeps the balance.** -/
theorem Step.balanced (hstep : Step d x d') (hd : d.Records l) (hl : l.Balanced) :
    (l.next x).Balanced := by
  cases hstep with
  | performed op hidle hnone =>
      cases op with
      | shutdown => exact hl.discard (hd.batch.symm.trans hnone)
      | _ => exact hl
  | began tick hop hcalls ha hidle hnone =>
      rw [next_of_calls hcalls]
      exact hl
  | interrupted tick hnext ha hidle => exact hl.settle (hd.batch.symm.trans hnext) .interrupted
  | missed hnext ha hidle => exact hl.settle (hd.batch.symm.trans hnext) .missed
  | requested r hcalling =>
      cases r with
      | reset => exact hl
      | interrupt e => exact hl.request e
  | gathered hfree hnone => exact hl.gather (hd.batch.symm.trans hnone)
  | _ => exact hl

/-! ## what has been taken -/

/-- What happens begins with carrying out all interrupts that have been taken, and nothing else. -/
def Drained (d : Docket W M) (l : Ledger) (h : List (Happening W M)) : Prop :=
  ∃ h₁ h₂ d₁, h = h₁ ++ h₂ ∧ Steps d h₁ d₁ ∧ d₁.progress = .idle ∧ d₁.batch = [] ∧
    (h₁.foldl Ledger.next l).settled.map Prod.fst = l.settled.map Prod.fst ++ l.batch ∧
    ∀ y ∈ h₁, y.Drains

/-- When nothing is left to be carried out, something else may happen. -/
theorem drained_of_idle (hd : d.Records l) (hidle : d.progress = .idle) (hbatch : d.batch = [])
    (h : List (Happening W M)) : d.Drained l h := by
  refine ⟨[], h, d, rfl, .nil d, hidle, hbatch, ?_, List.forall_mem_nil _⟩
  rw [← hd.batch, hbatch, List.append_nil]
  rfl

theorem Drained.cons {rest : List (Happening W M)} (hrest : d'.Drained (l.next x) rest)
    (hstep : Step d x d') (hx : x.Drains)
    (hsettled : (l.next x).settled.map Prod.fst ++ (l.next x).batch =
      l.settled.map Prod.fst ++ l.batch) : d.Drained l (x :: rest) := by
  obtain ⟨h₁, h₂, d₁, rfl, hsteps, hidle, hbatch, hall, hdrains⟩ := hrest
  refine ⟨x :: h₁, h₂, d₁, rfl, .cons hstep hsteps, hidle, hbatch, ?_, ?_⟩
  · rw [List.foldl_cons, hall, hsettled]
  · exact List.forall_mem_cons.mpr ⟨hx, hdrains⟩

/-- **Interrupts that have been taken are carried out** to the last, and then the run goes on. -/
theorem Steps.drained (hsteps : Steps d h d') (hd : d.Records l)
    (hdraining : d.progress = .idle ∨ ∃ t, d.progress = .calling .asked t)
    (hidle : d'.progress = .idle) (hbatch : d'.batch = []) : d.Drained l h := by
  -- what may happen now is that the interrupt that is running goes on, or that the next one of
  -- those taken comes; anything else waits until none of them is left
  induction hsteps generalizing l with
  | nil d => exact drained_of_idle hd hidle hbatch []
  | @cons d d' d'' x rest hstep hrest ih =>
      have hdone (hfree : d.Free) (hnone : d.batch = []) : d.Drained l (x :: rest) := by
        refine drained_of_idle hd (hdraining.resolve_right ?_) hnone _
        rintro ⟨t, hcalling⟩
        exact hfree _ _ hcalling
      have hrecords := hstep.records hd
      have hheeds := hstep.heeds
      cases hstep with
      | interrupted tick hnext ha hidle' =>
          have hstep := Step.interrupted tick hnext ha hidle'
          refine (ih hrecords (.inr ⟨_, rfl⟩) hidle hbatch).cons hstep rfl ?_
          simp [Ledger.next, ← hd.batch, hnext, Stage.turn]
      | missed hnext ha hidle' =>
          have hstep := Step.missed hnext ha hidle'
          refine (ih hrecords (.inl hidle') hidle hbatch).cons hstep trivial ?_
          simp [Ledger.next, ← hd.batch, hnext]
      | requested r hcalling =>
          have hstep := Step.requested r hcalling
          refine (ih hrecords hdraining hidle hbatch).cons hstep trivial ?_
          cases r with
          | reset => rfl
          | interrupt e =>
              rw [Ledger.next]
              split
              · rfl
              · rfl
      | @ended cause t hcalling hcommands =>
          have hstep := Step.ended hcalling hcommands
          refine (ih hrecords (.inl ?_) hidle hbatch).cons hstep trivial rfl
          obtain hidle' | ⟨u, hasked⟩ := hdraining
          · exact absurd hcalling (free_of_idle hidle' cause t)
          · rw [hcalling] at hasked
            cases hasked
            rfl
      | performed op hidle' hnone => exact hdone (free_of_idle hidle') hnone
      | dispatched tick hop hidle' hnone => exact hdone (free_of_idle hidle') hnone
      | reset hdue hnone => exact hdone hheeds hnone
      | made e hfound hidle' hnone => exact hdone (free_of_idle hidle') hnone
      | dropped hinvalid hidle' hnone => exact hdone (free_of_idle hidle') hnone
      | began tick hop hcalls ha hidle' hnone => exact hdone (free_of_idle hidle') hnone
      | gathered hfree hnone => exact hdone hheeds.1 hnone

end Docket

namespace Stage

variable [World W]

open Docket in
/-- **Interrupts are conserved.**  At every point of every run, whatever the handlers do, the
interrupts that have been asked for, but for those that were pending already, are those that have
been settled, those taken to be carried out now, and those still pending, in this order.  An agent
is interrupted only when it is the first of those taken, or from outside, and never while another
call is running; and when the pending interrupts are taken, just these are carried out, in order
and to the last, before anything else happens. -/
theorem interrupts_conserved (config : SimulationConfig) (world : W) (ops : List (Operation W M))
    (n : Nat) :
    let s : Stage W M := { sim := .ofConfig config, world }
    let l : Ledger := ((s.history ops).take n).foldl Ledger.next {}
    l.admitted = l.settled.map Prod.fst ++ l.batch ++ l.pending ∧ l.pending.Nodup ∧
    ∃ d d' : Docket W M,
      Steps { stage := s } ((s.history ops).take n) d ∧ Steps d ((s.history ops).drop n) d' ∧
      d'.stage = ops.foldl Stage.perform s ∧ d'.progress = .idle ∧ d'.batch = [] ∧
      d.stage.sim.commands.interrupts = l.pending ∧ d.batch = l.batch ∧
      (∀ x rest, (s.history ops).drop n = x :: rest → d.Heeds x) ∧
      ∀ rest, (s.history ops).drop n = .gathered :: rest →
        ∃ d₁, Step d .gathered d₁ ∧ d₁.batch = l.pending ∧
          d₁.Drained (l.next (.gathered : Happening W M)) rest := by
  intro s l
  obtain ⟨d, d', hbefore, hafter, hstage, hidle, hbatch⟩ :=
    exists_between s ops (List.take_append_drop n _).symm
  obtain ⟨hrecords, hbalanced⟩ := hbefore.preserves (h := [])
    (P := fun h d => d.Records (h.foldl Ledger.next {}) ∧ (h.foldl Ledger.next {}).Balanced)
    (fun hstep ⟨hd, hl⟩ => by
      rw [List.foldl_append]
      exact ⟨hstep.records hd, hstep.balanced hd hl⟩)
    ⟨⟨rfl, rfl⟩, rfl, List.nodup_nil⟩
  refine ⟨hbalanced.conserved, hbalanced.nodup, d, d', hbefore, hafter, hstage, hidle, hbatch,
    hrecords.pending, hrecords.batch, ?_, ?_⟩
  · intro x rest hnext
    rw [hnext] at hafter
    cases hafter with
    | cons hstep hrest => exact hstep.heeds
  · intro rest hnext
    rw [hnext] at hafter
    cases hafter with
    | @cons _ d₁ _ _ _ hstep hrest =>
        have hrecords₁ := hstep.records hrecords
        refine ⟨d₁, hstep, hrecords₁.batch, ?_⟩
        cases hstep with
        | gathered hfree hnone => exact hrest.drained hrecords₁ (.inl rfl) hidle hbatch

end Stage

end PlanningAgents
