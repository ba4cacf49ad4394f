import PlanningAgents.Proofs.Simulation.Updates

/-!
# PlanningAgents.Proofs.Simulation.Validity

Which ticks go to entities that the world holds.  A tick of all agents asks the world for each
entity when it is its turn, and so do its ticks reach no other one, whatever handlers have done to
the world by then.  A tick outside of the schedule does not ask.  It reaches every entity that has
an agent, and what becomes of an entity is noticed only when the next tick is due.

Main statements:

* `Happening.Held` — a tick, if it is one, goes to an entity that the world holds;
* `Stage.mem_history` — what happens, happens in one of the operations;
* `Stage.held_of_mem_happenings` — only a tick outside of the schedule can go to another entity;
* `Stage.ticks_held_iff` — when all ticks of a run go to entities that the world holds;
* `Stage.ticked_ghost` — a ghost, who is ticked.
-/

namespace PlanningAgents

variable {W M : Type}

namespace Happening

variable [World W] {x : Happening W M}

/-- A tick, if it is one, goes to an entity that the world holds when it begins. -/
def Held : Happening W M → Prop
  | .began cause t => cause.call = .step → World.isValid t.world t.entity = true
  | _ => True

/-- No agent is ticked in a reset. -/
theorem InReset.held (hx : x.InReset) : x.Held := by
  cases x with
  | began cause t =>
      obtain rfl | rfl := hx
      · exact nofun
      · exact nofun
  | _ => trivial

/-- A tick of all agents reaches those that the world holds. -/
theorem InTick.held {tick : Tick} (hx : x.InTick tick) : x.Held := by
  cases x with
  | began cause t =>
      obtain ⟨-, -, hvalid⟩ | rfl := hx
      · exact fun _ => hvalid
      · exact nofun
  | _ => trivial

end Happening

namespace Stage

section Ticks

variable [World W]

/-! ## operations -/

/-- **What happens, happens in one of the operations**, on the stage that those before it have left
behind. -/
theorem mem_history {s : Stage W M} {ops : List (Operation W M)} {x : Happening W M} :
    x ∈ s.history ops ↔ ∃ before op after, ops = before ++ op :: after ∧
      (x = .performed op ∨ x ∈ (before.foldl Stage.perform s).happenings op) := by
  induction ops generalizing s with
  | nil => simp [history]
  | cons op rest ih =>
      rw [history, List.mem_cons, List.mem_append, ih]
      constructor
      · rintro (rfl | hnow | ⟨before, op', after, rfl, hlater⟩)
        · exact ⟨[], op, rest, rfl, .inl rfl⟩
        · exact ⟨[], op, rest, rfl, .inr hnow⟩
        · exact ⟨op :: before, op', after, rfl, hlater⟩
      · rintro ⟨before, op', after, hsplit, hx⟩
        cases before with
        | nil =>
            cases hsplit
            exact hx.imp_right .inl
        | cons first before =>
            cases hsplit
            exact .inr (.inr ⟨before, op', after, rfl, hx⟩)

/-- When an agent is called, only that call can be a tick; the interrupts behind it are none. -/
theorem held_calling {s : Stage W M} {e : EntityId} {tick : Tick} {cause : Cause}
    {x : Happening W M} (hx : x ∈ s.calling e tick cause) :
    x.Held ∨ ∃ a, s.sim.agents[e]? = some a ∧ x = .began cause (s.turn e a tick) := by
  rw [calling] at hx
  cases ha : s.sim.agents[e]? with
  | none =>
      rw [ha] at hx
      exact absurd hx List.not_mem_nil
  | some a =>
      rw [ha] at hx
      obtain hcall | hbehind := List.mem_append.mp hx
      · obtain rfl | hrest := List.mem_cons.mp hcall
        · exact .inr ⟨a, rfl, rfl⟩
        · refine .inl ?_
          obtain hrequest | hended := List.mem_append.mp hrest
          · obtain ⟨r, -, rfl⟩ := List.mem_map.mp hrequest
            trivial
          · obtain rfl := List.mem_singleton.mp hended
            trivial
      · exact .inl (gathers_gathering _ tick x hbehind).inReset.held

/-- A call for anything but a tick ticks no agent. -/
theorem held_of_call_ne {s : Stage W M} {e : EntityId} {tick : Tick} {cause : Cause}
    {x : Happening W M} (hx : x ∈ s.calling e tick cause) (hcause : cause.call ≠ .step) :
    x.Held := by
  obtain hheld | ⟨a, -, rfl⟩ := held_calling hx
  · exact hheld
  · exact fun hcall => absurd hcall hcause

/-- **Only a tick outside of the schedule** can go to an entity that the world does not hold. -/
theorem held_of_mem_happenings {s : Stage W M} {op : Operation W M} {x : Happening W M}
    (hx : x ∈ s.happenings op) :
    x.Held ∨ ∃ e dt a, op = .tickEntity e dt ∧ s.sim.agents[e]? = some a ∧
      x = .began .ticked (s.turn e a { s.sim.scheduler.last with dt }) := by
  cases op with
  | spawn e entityType overrides => exact .inl (inReset_spawning s e _ x hx).held
  | update dt =>
      refine .inl ?_
      cases hdue : (s.advance dt).1 with
      | none =>
          rw [(update_of_not_due hdue).1] at hx
          exact absurd hx List.not_mem_nil
      | some tick =>
          rw [(update_of_due hdue).1, List.mem_cons, List.mem_append] at hx
          obtain rfl | hreset | htick := hx
          · trivial
          · obtain rfl | hreset := inReset_resetting _ x hreset
            · trivial
            · exact hreset.held
          · exact (inTick_ticking _ tick _ x htick).held
  | tickEntity e dt =>
      refine (held_calling hx).imp_right ?_
      rintro ⟨a, ha, hbegan⟩
      exact ⟨e, dt, a, rfl, ha, hbegan⟩
  | forceInterrupt e => exact .inl (held_of_call_ne hx Call.noConfusion)
  | replanTo e pairs merge =>
      rw [happenings] at hx
      cases hencode : s.encodeGoal e pairs with
      | mk result u =>
          rw [hencode] at hx
          cases result with
          | error err => exact absurd hx List.not_mem_nil
          | ok goal => exact .inl (held_of_call_ne hx Call.noConfusion)
  | _ => exact absurd hx List.not_mem_nil

/-- A tick outside of the schedule is run for every entity that has an agent. -/
theorem mem_happenings_tickEntity {s : Stage W M} {e : EntityId} {a : Agent W M}
    (ha : s.sim.agents[e]? = some a) (dt : Float32) :
    .began .ticked (s.turn e a { s.sim.scheduler.last with dt }) ∈
      s.happenings (.tickEntity e dt) := by
  rw [happenings, calling, ha]
  exact List.mem_append_left _ List.mem_cons_self

open Docket in
/-- **When all ticks go to entities that the world holds.**  In every run, on any world and with any
handlers, the ticks that are due reach only entities that the world holds when they begin.  That
all other ticks do so too is up to those who ask for them: a tick outside of the schedule must
never be asked for an entity that has an agent and that the world does not hold at that time. -/
theorem ticks_held_iff (config : SimulationConfig) (world : W) (ops : List (Operation W M)) :
    let start : Stage W M := { sim := .ofConfig config, world }
    (∃ d, Steps { stage := start } (start.history ops) d ∧
      d.stage = ops.foldl Stage.perform start) ∧
    (∀ t, .began .due t ∈ start.history ops → World.isValid t.world t.entity = true) ∧
    ((∀ cause t, .began cause t ∈ start.history ops → cause.call = .step →
        World.isValid t.world t.entity = true) ↔
      ∀ before e dt after, ops = before ++ .tickEntity e dt :: after →
        e ∈ (before.foldl Stage.perform start).sim.agents →
          World.isValid (before.foldl Stage.perform start).world e = true) := by
  intro start
  obtain ⟨d, hsteps, hstage, -⟩ := steps_history (d := { stage := start }) ops rfl rfl
  refine ⟨⟨d, hsteps, hstage⟩, fun t ht => ?_, fun hall before e dt after hops he => ?_,
    fun hasked cause t ht hcall => ?_⟩
  · obtain ⟨before, op, after, -, hperformed | hmem⟩ := mem_history.mp ht
    · cases hperformed
    · obtain hheld | ⟨e, dt, a, -, -, hbegan⟩ := held_of_mem_happenings hmem
      · exact hheld rfl
      · cases hbegan
  · obtain ⟨a, ha⟩ := Option.isSome_iff_exists.mp (Std.ExtTreeMap.mem_iff_isSome_getElem?.mp he)
    have hticked := mem_history.mpr
      ⟨before, _, after, hops, .inr (mem_happenings_tickEntity ha dt)⟩
    exact hall .ticked _ hticked rfl
  · obtain ⟨before, op, after, hops, hperformed | hmem⟩ := mem_history.mp ht
    · cases hperformed
    · obtain hheld | ⟨e, dt, a, rfl, ha, hbegan⟩ := held_of_mem_happenings hmem
      · exact hheld hcall
      · cases hbegan
        refine hasked before e dt after hops ?_
        rw [Std.ExtTreeMap.mem_iff_isSome_getElem?, ha]
        rfl

end Ticks

end Stage

/-! ## a ghost -/

/-- A world in which entities die, and which remembers who has looked around in it. -/
structure Graveyard where
  dead : List EntityId := []
  witnesses : List EntityId := []

instance : World Graveyard where
  isValid w e := !w.dead.contains e

/-- Those who look around in the graveyard on every tick. -/
def watchers : Definition Graveyard Bool where
  data := { entityTypes := .ofList [("watcher", ({} : EntityTypeSpec))] }
  bindings.updaters :=
    [("look", .look fun v =>
      .act (.changeWorld fun w => { w with witnesses := w.witnesses ++ [v.entity] }) (.done ()))]

namespace Stage

/-- The graveyard before anyone comes. -/
def emptyGraveyard : Stage Graveyard Bool :=
  { sim := .ofConfig {}, world := ({} : Graveyard) }

/-- A watcher comes to the graveyard, and dies there. -/
def burial : List (Operation Graveyard Bool) :=
  [.registerDefinition watchers, .spawn 1 "watcher" none,
    .changeWorld fun w => { w with dead := [1] }]

/-- **A ghost is ticked.**  The world does not hold the entity any more, and the handlers of its
agent still act in it. -/
theorem ticked_ghost :
    let haunting := burial ++ [Operation.tickEntity 1 0]
    ∃ t : Turn Graveyard Bool,
      .began .ticked t ∈ emptyGraveyard.history haunting ∧ Cause.ticked.call = .step ∧
      t.entity = 1 ∧ World.isValid t.world t.entity = false ∧ t.world.witnesses = [] ∧
      (haunting.foldl perform emptyGraveyard).world.witnesses = [1] := by
  have hthere :
      ((burial.foldl perform emptyGraveyard).sim.agents[(1 : EntityId)]?.isSome) = true := by
    decide +kernel
  obtain ⟨a, ha⟩ := Option.isSome_iff_exists.mp hthere
  have hticked := mem_history.mpr
    ⟨burial, _, [], rfl, .inr (mem_happenings_tickEntity ha 0)⟩
  have hgone : World.isValid (burial.foldl perform emptyGraveyard).world 1 = false := by
    decide +kernel
  have hunseen : (burial.foldl perform emptyGraveyard).world.witnesses = [] := by decide +kernel
  exact ⟨_, hticked, rfl, rfl, hgone, hunseen, by decide +kernel⟩

end Stage

end PlanningAgents
