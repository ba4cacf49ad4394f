import PlanningAgents.Proofs.Simulation.Interrupts
import PlanningAgents.Proofs.Simulation.Tables

/-!
# PlanningAgents.Proofs.Simulation.Updates

What an update does.  When a tick is due, the pending reset comes first, and then every entity has
its turn, once, in ascending order: its agent is ticked if the world holds the entity then, and
dropped with its record if not.  Whatever handlers do meanwhile, no other entity comes or goes, and
the entities that are left are those that have been ticked.  When no tick is due nothing happens.

Main statements:

* `Happening.InReset`, `Happening.InTick` — what happens in a reset, and in a tick of all agents;
* `Happening.visit?` — the turns of entities;
* `Stage.visits_ticking`, `Stage.ticked_tickAll` — a tick gives a turn to each, and what it leaves;
* `Stage.update_ticks_each` — updates in every run.
-/

namespace PlanningAgents

variable {W M α : Type}

namespace Happening

/-- What happens in a reset. -/
def InReset : Happening W M → Prop
  | .began cause _ => cause = .spawned ∨ cause = .asked
  | .made _ _ _ | .requested _ | .ended _ | .gathered | .missed _ => True
  | _ => False

/-- What happens in a tick of all agents: those are ticked that the world holds when it is their
turn, and those are dropped that it does not. -/
def InTick [World W] (tick : Tick) : Happening W M → Prop
  | .began cause t =>
    (cause = .due ∧ t.tick = tick ∧ World.isValid t.world t.entity = true) ∨ cause = .asked
  | .dropped e world => World.isValid world e = false
  | .requested _ | .ended _ | .gathered | .missed _ => True
  | _ => False

/-- The turn of an entity, and whether it is ticked. -/
def visit? : Happening W M → Option (EntityId × Bool)
  | .began cause t => if cause.call = .step then some (t.entity, true) else none
  | .dropped e _ => some (e, false)
  | _ => none

theorem visit?_of_inReset {x : Happening W M} (hx : x.InReset) : x.visit? = none := by
  cases x with
  | began cause t =>
      obtain rfl | rfl := hx
      · rfl
      · rfl
  | performed op => exact absurd hx id
  | dispatched tick => exact absurd hx id
  | reset => exact absurd hx id
  | dropped e world => exact absurd hx id
  | _ => rfl

/-- Interrupts are taken and carried out. -/
def Gathers (x : Happening W M) : Prop := x.Drains ∨ x = .gathered

theorem Gathers.inReset {x : Happening W M} (hx : x.Gathers) : x.InReset := by
  obtain hx | rfl := hx
  · cases x with
    | began cause t => exact .inr hx
    | performed op => exact hx
    | dispatched tick => exact hx
    | reset => exact hx
    | dropped e world => exact hx
    | _ => trivial
  · trivial

theorem Gathers.inTick [World W] {x : Happening W M} (hx : x.Gathers) (tick : Tick) :
    x.InTick tick := by
  obtain hx | rfl := hx
  · cases x with
    | began cause t => exact .inr hx
    | performed op => exact hx
    | dispatched tick => exact hx
    | reset => exact hx
    | made e r d => exact hx
    | dropped e world => exact absurd hx id
    | _ => trivial
  · trivial

end Happening

/-! ## calls -/

/-- What happens in a call is its beginning, its requests and its end. -/
theorem Turn.forall_happenings {t : Turn W M} {cause : Cause} {P : Happening W M → Prop}
    (hbegan : P (.began cause t)) (hrequested : ∀ r, P (.requested r))
    (hended : P (.ended t.entity)) : ∀ x ∈ t.happenings cause, P x := by
  rw [happenings, List.forall_mem_cons]
  refine ⟨hbegan, fun x hx => ?_⟩
  rw [List.mem_append, List.mem_map, List.mem_singleton] at hx
  obtain ⟨r, -, rfl⟩ | rfl := hx
  · exact hrequested r
  · exact hended

/-- What a call is told by is told by its beginning, where requests and ends do not tell. -/
theorem Turn.filterMap_happenings {t : Turn W M} {cause : Cause} {f : Happening W M → Option α}
    (hrequested : ∀ r, f (.requested r) = none) (hended : f (.ended t.entity) = none) :
    (t.happenings cause).filterMap f = (f (.began cause t)).toList := by
  have hrest : ((t.requests cause.call).map Happening.requested ++
      [Happening.ended t.entity]).filterMap f = [] := by
    refine List.filterMap_eq_nil_iff.mpr fun x hx => ?_
    rw [List.mem_append, List.mem_map, List.mem_singleton] at hx
    obtain ⟨r, -, rfl⟩ | rfl := hx
    · exact hrequested r
    · exact hended
  rw [happenings, List.filterMap_cons, hrest]
  cases f (.began cause t) with
  | none => rfl
  | some b => rfl

namespace Stage

variable {s s' : Stage W M} {e : EntityId} {a : Agent W M}

theorem drains_interrupting (s : Stage W M) (tick : Tick) (batch : List EntityId) :
    ∀ x ∈ s.interrupting tick batch, x.Drains := by
  induction batch generalizing s with
  | nil => exact List.forall_mem_nil _
  | cons e rest ih =>
      rw [interrupting]
      cases s.sim.agents[e]? with
      | none => exact List.forall_mem_cons.mpr ⟨trivial, ih s⟩
      | some a =>
          refine List.forall_mem_append.mpr ⟨?_, ih _⟩
          exact Turn.forall_happenings rfl (fun _ => trivial) trivial

theorem gathers_gathering (s : Stage W M) (tick : Tick) : ∀ x ∈ s.gathering tick, x.Gathers := by
  refine List.forall_mem_cons.mpr ⟨.inr rfl, fun x hx => .inl ?_⟩
  exact drains_interrupting _ tick _ x hx

/-- Carrying out interrupts gives no entity its turn. -/
theorem visits_gathering (s : Stage W M) (tick : Tick) :
    (s.gathering tick).filterMap Happening.visit? = [] :=
  List.filterMap_eq_nil_iff.mpr fun x hx =>
    Happening.visit?_of_inReset (s.gathers_gathering tick x hx).inReset

/-- A tick is due when the simulation is not paused and the scheduler says so. -/
theorem advance_fst (s : Stage W M) (dt : Float32) :
    (s.advance dt).1 = if s.sim.paused then none else (s.sim.scheduler.advance dt).1 := by
  rw [advance]
  split
  · rfl
  · rfl

/-! ## resets -/

theorem inReset_calling (s : Stage W M) (e : EntityId) (tick : Tick) :
    ∀ x ∈ s.calling e tick .spawned, x.InReset := by
  rw [calling]
  cases s.sim.agents[e]? with
  | none => exact List.forall_mem_nil _
  | some a =>
      refine List.forall_mem_append.mpr ⟨?_, fun x hx => (gathers_gathering _ tick x hx).inReset⟩
      exact Turn.forall_happenings (.inl rfl) (fun _ => trivial) trivial

theorem inReset_spawning (s : Stage W M) (e : EntityId) (r : SpawnRecord) :
    ∀ x ∈ s.spawning e r, x.InReset := by
  rw [spawning]
  cases s.definition? r with
  | none => exact List.forall_mem_nil _
  | some d =>
      refine List.forall_mem_cons.mpr ⟨trivial, ?_⟩
      cases (s.load r d).1 with
      | error err => exact List.forall_mem_nil _
      | ok done => exact inReset_calling _ e _

theorem inReset_restoring (s : Stage W M) (records : List (EntityId × SpawnRecord)) :
    ∀ x ∈ s.restoring records, x.InReset := by
  induction records generalizing s with
  | nil => exact List.forall_mem_nil _
  | cons record rest ih => exact List.forall_mem_append.mpr ⟨s.inReset_spawning _ _, ih _⟩

/-- Behind its beginning, a reset is what resets are. -/
theorem inReset_resetting (s : Stage W M) : ∀ x ∈ s.resetting, x = .reset ∨ x.InReset := by
  rw [resetting]
  split
  · exact List.forall_mem_cons.mpr ⟨.inl rfl, fun x hx => .inr (inReset_restoring _ _ x hx)⟩
  · exact List.forall_mem_nil _

/-! ## turns -/

/-- What a tick leaves behind: all but those that have been dropped. -/
structure Ticked (s s' : Stage W M) (visits : List (EntityId × Bool)) : Prop where
  agents : ∀ e, e ∈ s'.sim.agents ↔ e ∈ s.sim.agents ∧ (e, false) ∉ visits
  spawns : ∀ e, s'.sim.spawns[e]? = if (e, false) ∈ visits then none else s.sim.spawns[e]?

/-- The entities that are left behind are those that have been ticked. -/
theorem Ticked.keys {visits : List (EntityId × Bool)} (h : s.Ticked s' visits)
    (hkeys : visits.map Prod.fst = s.sim.agents.keys) :
    s'.sim.agents.keys = (visits.filter (·.2)).map Prod.fst := by
  have hordered : (visits.map Prod.fst).Pairwise fun a b => compare a b = .lt :=
    hkeys ▸ Std.ExtTreeMap.ordered_keys
  have hnodup : (visits.map Prod.fst).Nodup := hkeys ▸ Std.ExtTreeMap.nodup_keys
  have hsublist : ((visits.filter (·.2)).map Prod.fst).Sublist (visits.map Prod.fst) :=
    List.filter_sublist.map Prod.fst
  refine SortedMap.keys_eq_of_mem_iff (hordered.sublist hsublist) fun e => ?_
  rw [h.agents, ← Std.ExtTreeMap.mem_keys, ← hkeys]
  constructor
  · rintro ⟨he, hkept⟩
    obtain ⟨⟨e', ticked⟩, hvisit, rfl⟩ := List.mem_map.mp he
    cases ticked with
    | true => exact List.mem_map_of_mem (List.mem_filter.mpr ⟨hvisit, rfl⟩)
    | false => exact absurd hvisit hkept
  · rintro he
    obtain ⟨⟨e', ticked⟩, hfiltered, rfl⟩ := List.mem_map.mp he
    obtain ⟨hvisit, rfl⟩ := List.mem_filter.mp hfiltered
    refine ⟨List.mem_map_of_mem hvisit, fun hdropped => ?_⟩
    cases List.inj_on_of_nodup_map hnodup hvisit hdropped rfl

section Ticks

variable [World W]

theorem inTick_visiting (s : Stage W M) (tick : Tick) (e : EntityId) :
    ∀ x ∈ s.visiting tick e, x.InTick tick := by
  rw [visiting]
  cases hvalid : World.isValid s.world e with
  | false => exact List.forall_mem_cons.mpr ⟨hvalid, List.forall_mem_nil _⟩
  | true =>
      simp only [Bool.not_true, Bool.false_eq_true, if_false]
      cases s.sim.agents[e]? with
      | none => exact fun x hx => (s.gathers_gathering tick x hx).inTick tick
      | some a =>
          refine List.forall_mem_append.mpr
            ⟨?_, fun x hx => (gathers_gathering _ tick x hx).inTick tick⟩
          exact Turn.forall_happenings (.inl ⟨rfl, rfl, hvalid⟩) (fun _ => trivial) trivial

theorem inTick_ticking (s : Stage W M) (tick : Tick) (entities : List EntityId) :
    ∀ x ∈ s.ticking tick entities, x.InTick tick := by
  induction entities generalizing s with
  | nil => exact List.forall_mem_nil _
  | cons e rest ih => exact List.forall_mem_append.mpr ⟨s.inTick_visiting tick e, ih _⟩

/-- **An entity has its turn** once, and is ticked if the world holds it. -/
theorem visits_visiting (he : e ∈ s.sim.agents) (tick : Tick) :
    (s.visiting tick e).filterMap Happening.visit? = [(e, World.isValid s.world e)] := by
  obtain ⟨a, ha⟩ := Option.isSome_iff_exists.mp (Std.ExtTreeMap.mem_iff_isSome_getElem?.mp he)
  rw [visiting]
  cases hvalid : World.isValid s.world e with
  | false => rfl
  | true =>
      simp only [Bool.not_true, Bool.false_eq_true, if_false, ha]
      rw [List.filterMap_append, visits_gathering, List.append_nil,
        Turn.filterMap_happenings (fun _ => rfl) rfl]
      rfl

theorem keeps_visit (hvalid : World.isValid s.world e = true) (tick : Tick) :
    s.Keeps (s.visit tick e) := by
  rw [visit, hvalid]
  simp only [Bool.not_true, Bool.false_eq_true, if_false]
  cases ha : s.sim.agents[e]? with
  | none => exact keeps_applyInterrupts s tick
  | some a => exact (keeps_afterCall ha tick .step).trans (keeps_applyInterrupts _ tick)

theorem visit_of_invalid (hvalid : World.isValid s.world e = false) (tick : Tick) :
    s.visit tick e = s.mapSim fun sim => (sim.destroy e).2 := by
  rw [visit, hvalid]
  rfl

/-- **In a tick all entities have their turns**, in order, and only those are dropped that the world
does not hold. -/
theorem ticked_tickAll {entities : List EntityId} (tick : Tick)
    (hmem : ∀ e ∈ entities, e ∈ s.sim.agents) (hnodup : entities.Nodup) :
    ((s.ticking tick entities).filterMap Happening.visit?).map Prod.fst = entities ∧
      s.Ticked (s.tickAll tick entities)
        ((s.ticking tick entities).filterMap Happening.visit?) := by
  induction entities generalizing s with
  | nil =>
      refine ⟨rfl, fun e => ?_, fun e => ?_⟩
      · exact ⟨fun he => ⟨he, List.not_mem_nil⟩, And.left⟩
      · exact (if_neg List.not_mem_nil).symm
  | cons e rest ih =>
      obtain ⟨he, hrest⟩ := List.forall_mem_cons.mp hmem
      obtain ⟨hfresh, hnodup⟩ := List.nodup_cons.mp hnodup
      rw [ticking, tickAll_cons, List.filterMap_append, visits_visiting he]
      cases hvalid : World.isValid s.world e with
      | true =>
          have hkeeps := keeps_visit hvalid tick
          obtain ⟨hkeys, hagents, hspawns⟩ :=
            ih (s := s.visit tick e) (fun e' he' => (hkeeps.agents e').mpr (hrest e' he')) hnodup
          refine ⟨?_, fun e' => ?_, fun e' => ?_⟩
          · rw [List.map_append, hkeys]
            rfl
          · rw [hagents, hkeeps.agents]
            simp
          · rw [hspawns, hkeeps.spawns]
            simp
      | false =>
          -- the entities whose turn is still to come are others, so that they are all still there
          have hdropped := visit_of_invalid hvalid tick
          have hleft (e' : EntityId) :
              e' ∈ (s.visit tick e).sim.agents ↔ e' ≠ e ∧ e' ∈ s.sim.agents := by
            rw [hdropped]
            exact SortedMap.mem_erase_iff
          have hrecords (e' : EntityId) : (s.visit tick e).sim.spawns[e']? =
              if e' = e then none else s.sim.spawns[e']? := by
            rw [hdropped]
            exact SortedMap.getElem?_erase _ _ _
          obtain ⟨hkeys, hagents, hspawns⟩ := ih (s := s.visit tick e)
            (fun e' he' => (hleft e').mpr ⟨fun h => hfresh (h ▸ he'), hrest e' he'⟩) hnodup
          refine ⟨?_, fun e' => ?_, fun e' => ?_⟩
          · rw [List.map_append, hkeys]
            rfl
          · rw [hagents, hleft]
            simp only [List.cons_append, List.nil_append, List.mem_cons, Prod.mk.injEq, and_true]
            tauto
          · rw [hspawns, hrecords]
            simp only [List.cons_append, List.nil_append, List.mem_cons, Prod.mk.injEq, and_true]
            by_cases he' : e' = e
            · simp [he']
            · simp [he']

/-! ## updates -/

/-- When no tick is due, an update does nothing but count the time. -/
theorem update_of_not_due {dt : Float32} (h : (s.advance dt).1 = none) :
    s.happenings (.update dt) = [] ∧ (s.update dt).2.sim.agents = s.sim.agents ∧
      (s.update dt).2.sim.spawns = s.sim.spawns ∧
      (s.update dt).2.sim.commands = s.sim.commands ∧ (s.update dt).2.world = s.world := by
  have hsame : (s.advance dt).2.sim.agents = s.sim.agents ∧
      (s.advance dt).2.sim.spawns = s.sim.spawns ∧
      (s.advance dt).2.sim.commands = s.sim.commands ∧ (s.advance dt).2.world = s.world := by
    rw [advance]
    split
    · exact ⟨rfl, rfl, rfl, rfl⟩
    · exact ⟨rfl, rfl, rfl, rfl⟩
  rw [happenings, update_eq]
  cases hadvance : s.advance dt with
  | mk due u =>
      rw [hadvance] at h hsame
      cases h
      exact ⟨rfl, hsame⟩

/-- When a tick is due, an update is the pending reset and a tick of all agents. -/
theorem update_of_due {dt : Float32} {tick : Tick} (h : (s.advance dt).1 = some tick) :
    s.happenings (.update dt) = .dispatched tick :: ((s.advance dt).2.resetting ++
        (s.advance dt).2.applyReset.ticking tick (s.advance dt).2.applyReset.sim.agents.keys) ∧
      (s.update dt).2 = (s.advance dt).2.applyReset.tickAll tick
        (s.advance dt).2.applyReset.sim.agents.keys := by
  rw [happenings, update_eq]
  cases hadvance : s.advance dt with
  | mk due u =>
      rw [hadvance] at h
      cases h
      exact ⟨rfl, rfl⟩

open Docket in
/-- **An update ticks each agent once.**  In every run, an update for which a tick is due gives a
turn to each of the entities that are there, in ascending order; the pending reset comes before and
does not change which these are.  An entity is ticked if the world holds it when it is its turn, and
dropped with its record if not; no other entity comes or goes.  An update for which none is due
runs no handler, and changes neither agents, records, commands nor the world. -/
theorem update_ticks_each (config : SimulationConfig) (world : W) (ops : List (Operation W M))
    (dt : Float32) :
    let s : Stage W M := ops.foldl Stage.perform { sim := .ofConfig config, world }
    ((s.update dt).1 = if s.sim.paused then none else (s.sim.scheduler.advance dt).1) ∧
    (∃ d, Steps { stage := s } (.performed (.update dt) :: s.happenings (.update dt)) d ∧
      d.stage = (s.update dt).2) ∧
    match (s.update dt).1 with
    | none =>
      s.happenings (.update dt) = [] ∧ (s.update dt).2.sim.agents = s.sim.agents ∧
        (s.update dt).2.sim.spawns = s.sim.spawns ∧
        (s.update dt).2.sim.commands = s.sim.commands ∧ (s.update dt).2.world = s.world
    | some tick =>
      ∃ restored ticked, s.happenings (.update dt) = .dispatched tick :: (restored ++ ticked) ∧
        (∀ x ∈ restored, x = .reset ∨ x.InReset) ∧ (∀ x ∈ ticked, x.InTick tick) ∧
        (s.advance dt).2.applyReset.sim.agents.keys = s.sim.agents.keys ∧
        s.sim.agents.keys.Pairwise (· < ·) ∧
        (ticked.filterMap Happening.visit?).map Prod.fst = s.sim.agents.keys ∧
        (s.update dt).2.sim.agents.keys =
          ((ticked.filterMap Happening.visit?).filter (·.2)).map Prod.fst ∧
        ∀ e, (s.update dt).2.sim.spawns[e]? =
          if (e, false) ∈ ticked.filterMap Happening.visit? then none else s.sim.spawns[e]? := by
  intro s
  have hdue : (s.update dt).1 = (s.advance dt).1 := by rw [update_eq]
  have hreachable : s.Reachable := (Reachable.setUp config world).foldl ops
  refine ⟨hdue.trans (s.advance_fst dt), ?_, ?_⟩
  · obtain ⟨d, hsteps, hstage, -⟩ := steps_history (d := { stage := s }) [.update dt] rfl rfl
    rw [history, history, List.append_nil] at hsteps
    exact ⟨d, hsteps, hstage⟩
  · rw [hdue]
    cases hadvance : (s.advance dt).1 with
    | none => exact update_of_not_due hadvance
    | some tick =>
        have hkeeps : s.Keeps (s.advance dt).2.applyReset :=
          (s.keeps_advance dt).trans (hreachable.tabled.outset (.update dt)).keeps_applyReset
        obtain ⟨hhappenings, hstage⟩ := update_of_due hadvance
        obtain ⟨hkeys, hticked⟩ := ticked_tickAll (s := (s.advance dt).2.applyReset) tick
          (fun e he => Std.ExtTreeMap.mem_keys.mp he) Std.ExtTreeMap.nodup_keys
        refine ⟨_, _, hhappenings, inReset_resetting _, inTick_ticking _ tick _, hkeeps.keys, ?_,
          ?_, ?_, ?_⟩
        · exact Std.ExtTreeMap.ordered_keys.imp fun h => Std.compare_eq_lt.mp h
        · rw [hkeys, hkeeps.keys]
        · rw [hstage]
          exact hticked.keys hkeys
        · intro e
          rw [hstage, hticked.spawns, hkeeps.spawns]

end Ticks

end Stage

end PlanningAgents
