import PlanningAgents.Proofs.Simulation.Interrupts
import PlanningAgents.Proofs.Simulation.States

/-!
# PlanningAgents.Proofs.Simulation.Delays

When an interrupt comes late.  Interrupts that are asked for in a call are carried out right behind
it, but those that are asked for meanwhile are only taken behind the next call.  If that is a tick
of the entity that is to be interrupted, it is ticked before.  This is the only way for it to
happen (`LeftOver`), and then the interrupt is carried out right behind that tick.

Main statements:

* `LeftOver` — an interrupt that was asked for while interrupts were carried out;
* `Docket.Step.tells` — every step keeps to it that just these are pending between calls;
* `Stage.pending_at_tick_iff` — the interrupts that are pending when an agent is ticked;
* `Stage.ticked_guards` — guards who alarm one another, one of whom is ticked too early.
-/

namespace PlanningAgents

variable {W M : Type}

/-! ## interrupts that are left over -/

/-- An interrupt that was asked for is being carried out. -/
def Interrupting (h : List (Happening W M)) : Prop :=
  Outstanding (fun _ x => ∃ t, x = .began .asked t) (fun y => ∃ e, y = .ended e) h

/-- **An interrupt is left over**: it was asked for by a handler while an interrupt that had been
asked for was carried out, and interrupts have not been taken since. -/
def LeftOver (e : EntityId) (h : List (Happening W M)) : Prop :=
  Outstanding (fun before x => x = .requested (.interrupt e) ∧ Interrupting before)
    (fun y => y = .gathered ∨ y = .performed .shutdown) h

variable {h : List (Happening W M)} {x : Happening W M}

/-- Nothing is asked for, and nothing is taken. -/
def Happening.Aside : Happening W M → Prop
  | .requested (.interrupt _) | .gathered | .performed .shutdown => False
  | _ => True

/-- What is left over stays so until interrupts are taken. -/
theorem leftOver_concat_of_aside (hx : x.Aside) (e : EntityId) :
    LeftOver e (h ++ [x]) ↔ LeftOver e h := by
  rw [LeftOver, outstanding_concat]
  constructor
  · rintro (⟨rfl, -⟩ | ⟨hleft, -⟩)
    · exact absurd hx id
    · exact hleft
  · rintro hleft
    refine .inr ⟨hleft, ?_⟩
    rintro (rfl | rfl) <;> exact hx

theorem not_leftOver_concat (hx : x = .gathered ∨ x = .performed .shutdown) (e : EntityId) :
    ¬ LeftOver e (h ++ [x]) := by
  rw [LeftOver, outstanding_concat]
  rintro (⟨rfl, -⟩ | ⟨-, hnot⟩)
  · exact hx.elim nofun nofun
  · exact hnot hx

/-- An interrupt that is asked for is pending then. -/
theorem Commands.mem_requestInterrupt {c : Commands} {e e' : EntityId} :
    e' ∈ (c.requestInterrupt e).interrupts ↔ e' = e ∨ e' ∈ c.interrupts := by
  rw [requestInterrupt]
  split
  · next he =>
      refine ⟨.inr, ?_⟩
      rintro (rfl | he')
      · exact he
      · exact he'
  · rw [List.mem_append, List.mem_singleton, or_comm]

namespace Docket

/-- A call is running or over that the operation has made, and interrupts are to be taken then. -/
def Busy (d : Docket W M) : Prop :=
  d.progress = .called ∨ ∃ cause t, cause ≠ .asked ∧ d.progress = .calling cause t

/-- What has happened tells of the interrupts that are pending. -/
structure Tells (h : List (Happening W M)) (d : Docket W M) : Prop where
  interrupting : Interrupting h ↔ ∃ t, d.progress = .calling .asked t
  pending : ∀ e, LeftOver e h → e ∈ d.stage.sim.commands.interrupts
  leftOver : d.Busy ∨ ∀ e ∈ d.stage.sim.commands.interrupts, LeftOver e h

theorem not_busy_of_idle {d : Docket W M} (hidle : d.progress = .idle) : ¬ d.Busy := by
  rintro (hcalled | ⟨cause, t, -, hcalling⟩)
  · rw [hidle] at hcalled
    cases hcalled
  · rw [hidle] at hcalling
    cases hcalling

variable [World W] {d d' d'' : Docket W M}

/-! ## steps -/

/-- What has happened tells whether an interrupt is being carried out. -/
theorem Step.interrupting_iff (hstep : Step d x d')
    (hd : Interrupting h ↔ ∃ t, d.progress = .calling .asked t) :
    Interrupting (h ++ [x]) ↔ ∃ t, d'.progress = .calling .asked t := by
  rw [Interrupting, outstanding_concat, ← Interrupting.eq_def, hd]
  cases hstep with
  | performed op hidle hbatch => simp [hidle]
  | dispatched tick hop hidle hbatch =>
      simp only [hidle]
      split
      · simp
      · simp
  | reset hdue hbatch => simp [hdue]
  | made e hfound hidle hbatch => simp [hidle]
  | dropped hinvalid hidle hbatch => simp [hidle]
  | began tick hop hcalls ha hidle hbatch => simp [hidle, ne_asked_of_calls hcalls]
  | interrupted tick hbatch ha hidle => simp
  | requested r hcalling => simp
  | @ended cause t hcalling hcommands =>
      cases cause <;> simp [progressAfter]
  | gathered hfree hbatch =>
      have hnot : ¬ ∃ t, d.progress = .calling .asked t := by
        rintro ⟨t, hcalling⟩
        rw [hcalling] at hfree
        exact hfree.elim nofun nofun
      simp [hnot]
  | missed hbatch ha hidle => simp [hidle]

/-- A happening that leaves aside what is pending tells what was told before. -/
theorem Tells.aside (hd : d.Tells h) (hstep : Step d x d') (hx : x.Aside) (hfree : ¬ d.Busy)
    (hsame : d'.stage.sim.commands.interrupts = d.stage.sim.commands.interrupts) :
    d'.Tells (h ++ [x]) where
  interrupting := hstep.interrupting_iff hd.interrupting
  pending e hleft := by
    rw [hsame]
    exact hd.pending e ((leftOver_concat_of_aside hx e).mp hleft)
  leftOver := by
    refine .inr fun e he => ?_
    rw [hsame] at he
    exact (leftOver_concat_of_aside hx e).mpr (hd.leftOver.resolve_left hfree e he)

/-- What is asked for while an interrupt is carried out is left over. -/
theorem Tells.request (hd : d.Tells h) {r : Request} {cause : Cause} {t : Turn W M}
    (hcalling : d.progress = .calling cause t) :
    ({ d with stage := d.stage.ask r } : Docket W M).Tells (h ++ [.requested r]) := by
  have hinterrupting := (Step.requested r hcalling).interrupting_iff hd.interrupting
  cases r with
  | reset =>
      refine ⟨hinterrupting, fun e hleft => ?_, hd.leftOver.imp id fun hall e he => ?_⟩
      · exact hd.pending e ((leftOver_concat_of_aside (by trivial) e).mp hleft)
      · exact (leftOver_concat_of_aside (by trivial) e).mpr (hall e he)
  | interrupt e =>
      refine ⟨hinterrupting, fun e' hleft => Commands.mem_requestInterrupt.mpr ?_, ?_⟩
      · rw [LeftOver, outstanding_concat] at hleft
        obtain ⟨hnow, -⟩ | ⟨hbefore, -⟩ := hleft
        · cases hnow
          exact .inl rfl
        · exact .inr (hd.pending e' hbefore)
      · by_cases hcause : cause = .asked
        · subst hcause
          have hfree : ¬ d.Busy := by simp [Busy, hcalling]
          refine .inr fun e' he' => ?_
          rw [LeftOver, outstanding_concat]
          obtain rfl | he' := Commands.mem_requestInterrupt.mp he'
          · exact .inl ⟨rfl, hd.interrupting.mpr ⟨t, hcalling⟩⟩
          · exact .inr ⟨hd.leftOver.resolve_left hfree e' he', fun hx => hx.elim nofun nofun⟩
        · exact .inl (.inr ⟨cause, t, hcause, hcalling⟩)

/-- **Every step keeps to it** that what has happened tells which interrupts are pending. -/
theorem Step.tells (hstep : Step d x d') (hd : d.Tells h) : d'.Tells (h ++ [x]) := by
  have hinterrupting := hstep.interrupting_iff hd.interrupting
  cases hstep with
  | performed op hidle hbatch =>
      by_cases hop : op = .shutdown
      · subst hop
        exact ⟨hinterrupting, fun e hleft => absurd hleft (not_leftOver_concat (.inr rfl) e),
          .inr fun e he => absurd he List.not_mem_nil⟩
      · have hx : (Happening.performed op).Aside := by
          cases op with
          | shutdown => exact absurd rfl hop
          | _ => trivial
        refine hd.aside (.performed op hidle hbatch) hx (not_busy_of_idle hidle) ?_
        rw [d.stage.commands_outset]
        cases op with
        | shutdown => exact absurd rfl hop
        | _ => rfl
  | dispatched tick hop hidle hbatch =>
      exact hd.aside (.dispatched tick hop hidle hbatch) trivial (not_busy_of_idle hidle) rfl
  | reset hdue hbatch =>
      exact hd.aside (.reset hdue hbatch) trivial (by simp [Busy, hdue]) rfl
  | made e hfound hidle hbatch =>
      exact hd.aside (.made e hfound hidle hbatch) trivial (not_busy_of_idle hidle) rfl
  | dropped hinvalid hidle hbatch =>
      exact hd.aside (.dropped hinvalid hidle hbatch) trivial (not_busy_of_idle hidle) rfl
  | began tick hop hcalls ha hidle hbatch =>
      -- what is asked for from now on is pending without being left over, until interrupts are
      -- taken behind this call
      refine ⟨hinterrupting, fun e hleft => ?_, .inl (.inr ⟨_, _, ne_asked_of_calls hcalls, rfl⟩)⟩
      exact hd.pending e ((leftOver_concat_of_aside (by trivial) e).mp hleft)
  | interrupted tick hbatch ha hidle =>
      exact hd.aside (.interrupted tick hbatch ha hidle) trivial (not_busy_of_idle hidle) rfl
  | missed hbatch ha hidle =>
      exact hd.aside (.missed hbatch ha hidle) trivial (not_busy_of_idle hidle) rfl
  | requested r hcalling => exact hd.request hcalling
  | @ended cause t hcalling hcommands =>
      have hsame : (d.stage.settle t.entity (t.after cause.call)).sim.commands.interrupts =
          d.stage.sim.commands.interrupts := congrArg Commands.interrupts hcommands.symm
      by_cases hcause : cause = .asked
      · subst hcause
        exact hd.aside (.ended hcalling hcommands) trivial (by simp [Busy, hcalling]) hsame
      · refine ⟨hinterrupting, fun e hleft => ?_, .inl (.inl ?_)⟩
        · exact hsame ▸ hd.pending e ((leftOver_concat_of_aside (by trivial) e).mp hleft)
        · cases cause with
          | asked => exact absurd rfl hcause
          | _ => rfl
  | gathered hfree hbatch =>
      exact ⟨hinterrupting, fun e hleft => absurd hleft (not_leftOver_concat (.inl rfl) e),
        .inr fun e he => absurd he List.not_mem_nil⟩

/-! ## what follows a call -/

/-- A call that is running comes to its end. -/
theorem Steps.exists_ended {cause : Cause} {t : Turn W M} (hsteps : Steps d h d')
    (hcalling : d.progress = .calling cause t) (hidle : d'.progress = .idle) :
    ∃ (requests : List Request) (rest : List (Happening W M)) (d₁ : Docket W M),
      h = requests.map .requested ++ .ended t.entity :: rest ∧ Steps d₁ rest d' ∧
      d₁.progress = progressAfter cause ∧
      d₁.stage.sim.commands = (t.after cause.call).commands := by
  induction hsteps with
  | nil d =>
      rw [hcalling] at hidle
      cases hidle
  | @cons d d' d'' x rest hstep hrest ih =>
      have hallowed := hstep.allowed
      rw [hcalling] at hallowed
      obtain ⟨r, rfl⟩ | rfl := hallowed
      · cases hstep with
        | requested r hcalling' =>
            obtain ⟨requests, rest, d₁, rfl, hd₁⟩ := ih hcalling hidle
            exact ⟨r :: requests, rest, d₁, rfl, hd₁⟩
      · generalize hentity : t.entity = e at hstep
        cases hstep with
        | ended hcalling' hcommands =>
            rw [hcalling'] at hcalling
            cases hcalling
            exact ⟨[], rest, _, rfl, hrest, rfl, rfl⟩

/-- Behind a call that an operation has made, the pending interrupts are taken. -/
theorem Step.gathered_of_called (hstep : Step d x d') (hcalled : d.progress = .called) :
    x = .gathered ∧ d'.progress = .idle ∧
      d'.Records { batch := d.stage.sim.commands.interrupts } := by
  have hallowed := hstep.allowed
  rw [hcalled] at hallowed
  obtain rfl := hallowed
  cases hstep with
  | gathered hfree hbatch => exact ⟨rfl, rfl, rfl, rfl⟩

/-- Behind a call that an operation has made, all interrupts that are pending then are carried out
before anything else. -/
theorem Steps.exists_gathered {cause : Cause} {t : Turn W M} (hsteps : Steps d h d')
    (hcalling : d.progress = .calling cause t) (hcause : cause ≠ .asked)
    (hidle : d'.progress = .idle) (hbatch : d'.batch = []) :
    ∃ (requests : List Request) (rest : List (Happening W M)) (d₁ : Docket W M),
      h = requests.map .requested ++ .ended t.entity :: .gathered :: rest ∧
      d₁.Drained { batch := (t.after cause.call).commands.interrupts } rest := by
  obtain ⟨requests, rest, d₁, rfl, hrest, hprogress, hcommands⟩ :=
    hsteps.exists_ended hcalling hidle
  have hcalled : d₁.progress = .called := by
    rw [hprogress]
    cases cause with
    | asked => exact absurd rfl hcause
    | _ => rfl
  cases hrest with
  | nil =>
      rw [hcalled] at hidle
      cases hidle
  | @cons _ d₂ _ x rest hstep hrest =>
      obtain ⟨rfl, hidle₂, hrecords⟩ := hstep.gathered_of_called hcalled
      rw [hcommands] at hrecords
      exact ⟨requests, rest, d₂, rfl, hrest.drained hrecords (.inl hidle₂) hidle hbatch⟩

end Docket

/-- Requests are added behind those that are pending. -/
theorem Commands.prefix_foldl_ask (requests : List Request) (c : Commands) :
    c.interrupts <+: (requests.foldl Commands.ask c).interrupts := by
  induction requests generalizing c with
  | nil => exact List.prefix_refl _
  | cons r rest ih =>
      refine List.IsPrefix.trans ?_ (ih (c.ask r))
      cases r with
      | reset => exact List.prefix_refl _
      | interrupt e =>
          rw [ask, requestInterrupt]
          split
          · exact List.prefix_refl _
          · exact List.prefix_append _ _

namespace Stage

variable [World W]

open Docket in
/-- **An agent is ticked before its interrupt** exactly if that is left over.  When an agent is
ticked, the interrupts that are pending, its own or others, are those that handlers have asked for
while interrupts were carried out on request, and that have not been taken since.  All of them, and
then those that are asked for in the tick, are carried out right behind it. -/
theorem pending_at_tick_iff (config : SimulationConfig) (world : W) (ops : List (Operation W M))
    {before after : List (Happening W M)} {cause : Cause} {t : Turn W M}
    (hsplit : history { sim := .ofConfig config, world } ops = before ++ .began cause t :: after)
    (hcall : cause.call = .step) :
    (∀ e, e ∈ t.commands.interrupts ↔ LeftOver e before) ∧
    t.commands.interrupts <+: (t.after .step).commands.interrupts ∧
    ∃ (requests : List Request) (rest : List (Happening W M)) (d : Docket W M),
      after = requests.map .requested ++ .ended t.entity :: .gathered :: rest ∧
      d.Drained { batch := (t.after .step).commands.interrupts } rest := by
  have hcause : cause ≠ .asked := by
    rintro rfl
    cases hcall
  obtain ⟨d, d', hbefore, hafter, -, hidle, hbatch⟩ := exists_between _ ops hsplit
  have htells : d.Tells before := by
    refine hbefore.preserves (P := fun h d => d.Tells h) (h := []) (fun hstep => hstep.tells) ?_
    exact ⟨⟨fun h => absurd h not_outstanding_nil, nofun⟩,
      fun e h => absurd h not_outstanding_nil, .inr fun e he => absurd he List.not_mem_nil⟩
  cases hafter with
  | @cons _ d₁ _ _ _ hstep hrest =>
      cases hstep with
      | interrupted tick hbatch ha hidle => exact absurd rfl hcause
      | @began op e _ a tick hop hcalls ha hidle' hnone =>
          refine ⟨fun e => ⟨?_, htells.pending e⟩, ?_, ?_⟩
          · exact htells.leftOver.resolve_left (not_busy_of_idle hidle') e
          · rw [Turn.commands_after]
            exact Commands.prefix_foldl_ask _ _
          · rw [← hcall]
            exact hrest.exists_gathered rfl hcause hidle hbatch

end Stage

/-! ## three guards -/

/-- A guard who is to choose a goal alarms another one first: the third guard alarms the first, and
the first one the second. -/
def alarm : Handler Unit Unit :=
  .look fun v =>
    if v.entity = 3 then .act (.requestInterrupt 1) (.done ())
    else if v.entity = 1 then .act (.requestInterrupt 2) (.done ())
    else .done ()

/-- Guards who alarm one another. -/
def guards : Definition Unit Bool where
  data := { entityTypes := .ofList [("guard", ({} : EntityTypeSpec))] }
  bindings := { goalSelectors := .ofList [("guard", alarm)] }

/-- The call that begins, the entity that is called, and the interrupts that are pending. -/
def Happening.began? : Happening W M → Option (Cause × EntityId × List EntityId)
  | .began cause t => some (cause, t.entity, t.commands.interrupts)
  | _ => none

namespace Stage

/-- The guards come one after the other, and the second one is ticked. -/
def guardsOnWatch : List (Operation Unit Bool) :=
  [.registerDefinition guards, .spawn 2 "guard" none, .spawn 1 "guard" none,
    .spawn 3 "guard" none, .tickEntity 2 0]

/-- What happens when the guards are on watch. -/
def guardsHistory : List (Happening Unit Bool) :=
  history { sim := .ofConfig {}, world := () } guardsOnWatch

/-- The second guard is ticked while an interrupt of that guard is pending. -/
theorem exists_tick_guards :
    ∃ (after : List (Happening Unit Bool)) (t : Turn Unit Bool),
      guardsHistory = guardsHistory.take 24 ++ .began .ticked t :: after ∧
      t.entity = 2 ∧ t.commands.interrupts = [2] := by
  have htick : (guardsHistory[24]?.bind Happening.began?) = some (.ticked, 2, [2]) := by
    decide +kernel
  generalize guardsHistory = h at htick ⊢
  obtain ⟨x, hx, hbegan⟩ := Option.bind_eq_some_iff.mp htick
  obtain ⟨hlt, hat⟩ := List.getElem?_eq_some_iff.mp hx
  cases x with
  | began cause t =>
      obtain ⟨rfl, hentity, hpending⟩ : cause = .ticked ∧ t.entity = 2 ∧
          t.commands.interrupts = [2] := by
        simpa only [Happening.began?, Option.some.injEq, Prod.mk.injEq] using hbegan
      refine ⟨h.drop 25, t, ?_, hentity, hpending⟩
      rw [← hat, ← List.drop_eq_getElem_cons hlt, List.take_append_drop]
  | _ => cases hbegan

/-- The interrupt of the second guard is left over from that of the first one. -/
theorem pending_at_tick_guards :
    ∃ (after : List (Happening Unit Bool)) (t : Turn Unit Bool),
      guardsHistory = guardsHistory.take 24 ++ .began .ticked t :: after ∧
      Cause.ticked.call = .step ∧ t.entity = 2 ∧ LeftOver 2 (guardsHistory.take 24) := by
  obtain ⟨after, t, hsplit, hentity, hpending⟩ := exists_tick_guards
  obtain ⟨hiff, -, -⟩ := pending_at_tick_iff {} () guardsOnWatch hsplit rfl
  refine ⟨after, t, hsplit, rfl, hentity, (hiff 2).mp ?_⟩
  rw [hpending]
  exact List.mem_singleton_self 2

/-- **The second guard is ticked too early.**  An interrupt of that guard has been asked for and is
not settled, when the guard is ticked. -/
theorem ticked_guards :
    ∃ (after : List (Happening Unit Bool)) (t : Turn Unit Bool),
      guardsHistory = guardsHistory.take 24 ++ .began .ticked t :: after ∧
      t.entity = 2 ∧ t.commands.interrupts = [2] ∧
      (guardsHistory.take 24).filterMap Happening.began? =
        [(.spawned, 2, []), (.spawned, 1, []), (.asked, 2, []), (.spawned, 3, []),
          (.asked, 1, [])] ∧
      (guardsHistory.take 24).foldl Ledger.next {} =
        { admitted := [2, 1, 2], settled := [(2, .interrupted), (1, .interrupted)],
          pending := [2] } := by
  obtain ⟨after, t, hsplit, hentity, hpending⟩ := exists_tick_guards
  exact ⟨after, t, hsplit, hentity, hpending, by decide +kernel, by decide +kernel⟩

end Stage

end PlanningAgents
