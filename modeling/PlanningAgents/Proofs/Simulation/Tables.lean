import Mathlib.Data.List.Sort
import PlanningAgents.Proofs.Simulation.Docket

/-!
# PlanningAgents.Proofs.Simulation.Tables

The tables of a simulation.  Every agent is recorded together with how it was made, and nothing else
is, and what is recorded can be made again: its type has a prototype (`Stage.Tabled`).  This holds
at every point of every run, since each step keeps it.

Calls, and the interrupts that follow them, do not touch the tables at all (`Stage.Keeps`).  So a
reset makes again what is recorded, and leaves the same entities behind.

Main statements:

* `Stage.Tabled`, `Docket.Step.tabled`, `Stage.Reachable.tabled` — what the tables say;
* `Stage.Keeps` — a stage with the same entities, records and prototypes as an earlier one;
* `Stage.keeps_applyInterrupts`, `Stage.Tabled.keeps_applyReset` — interrupts and resets keep them.
-/

namespace PlanningAgents

variable {W M α : Type}

namespace SortedMap

variable {κ : Type} [Ord κ] [Std.TransOrd κ] [Std.LawfulEqOrd κ]

/-- The keys are the ascending list of what is in the map. -/
theorem keys_eq_of_mem_iff {m : SortedMap κ α} {l : List κ}
    (hl : l.Pairwise fun a b => compare a b = .lt) (h : ∀ k, k ∈ m ↔ k ∈ l) : m.keys = l := by
  have hnodup : l.Nodup := by
    refine hl.imp fun {a b} hlt hab => ?_
    rw [hab, Std.ReflOrd.compare_self] at hlt
    cases hlt
  have hperm : m.keys.Perm l := (List.perm_ext_iff_of_nodup Std.ExtTreeMap.nodup_keys hnodup).mpr
    fun k => Std.ExtTreeMap.mem_keys.trans (h k)
  refine hperm.eq_of_pairwise (fun a b _ _ hlt hgt => ?_) Std.ExtTreeMap.ordered_keys hl
  rw [Std.OrientedCmp.gt_of_lt hlt] at hgt
  cases hgt

/-- Writing the value that is there already changes nothing. -/
theorem insert_of_getElem? [DecidableEq κ] {m : SortedMap κ α} {k : κ} {v : α}
    (h : m[k]? = some v) : m.insert k v = m := by
  apply Std.ExtTreeMap.ext_getElem?
  intro j
  rw [getElem?_insert]
  split
  · next hj => rw [hj, h]
  · rfl

theorem mem_insert_iff {m : SortedMap κ α} {k j : κ} {v : α} :
    j ∈ m.insert k v ↔ j = k ∨ j ∈ m := by
  rw [Std.ExtTreeMap.mem_insert, Std.LawfulEqCmp.compare_eq_iff_eq, eq_comm]

theorem mem_erase_iff {m : SortedMap κ α} {k j : κ} : j ∈ m.erase k ↔ j ≠ k ∧ j ∈ m := by
  rw [Std.ExtTreeMap.mem_erase, ne_eq, Std.LawfulEqCmp.compare_eq_iff_eq, eq_comm]

omit [Std.LawfulEqOrd κ] in
theorem mem_of_getElem? {m : SortedMap κ α} {k : κ} {v : α} (h : m[k]? = some v) : k ∈ m := by
  rw [Std.ExtTreeMap.mem_iff_isSome_getElem?, h]
  rfl

end SortedMap

/-- A definition that is registered serves the types that it declares, and no others. -/
theorem Simulation.getElem?_registerDefinition (s : Simulation W M) (d : Definition W M)
    (entityType : String) :
    (s.registerDefinition d).prototypes[entityType]? =
      if entityType ∈ d.data.entityTypes then some d else s.prototypes[entityType]? := by
  rw [registerDefinition]
  simp only [← Std.ExtTreeMap.mem_keys]
  generalize d.data.entityTypes.keys = types
  induction types generalizing s with
  | nil => rfl
  | cons t rest ih =>
      rw [List.foldl_cons, ih, registerPrototype, SortedMap.getElem?_insert]
      simp only [List.mem_cons]
      by_cases hrest : entityType ∈ rest
      · rw [if_pos hrest, if_pos (.inr hrest)]
      · simp only [hrest, if_false, or_false]

/-- Registering a definition drops no prototype. -/
theorem Simulation.mem_registerDefinition {s : Simulation W M} {entityType : String}
    (h : entityType ∈ s.prototypes) (d : Definition W M) :
    entityType ∈ (s.registerDefinition d).prototypes := by
  rw [Std.ExtTreeMap.mem_iff_isSome_getElem?] at h ⊢
  rw [getElem?_registerDefinition]
  split
  · rfl
  · exact h

namespace Stage

variable {s s' s'' : Stage W M} {e : EntityId} {a : Agent W M}

/-! ## what may be left alone -/

/-- **A stage with the same entities, records and prototypes** as an earlier one. -/
structure Keeps (s s' : Stage W M) : Prop where
  agents : ∀ e, e ∈ s'.sim.agents ↔ e ∈ s.sim.agents
  spawns : s'.sim.spawns = s.sim.spawns
  prototypes : s'.sim.prototypes = s.sim.prototypes
  config : s'.sim.config = s.sim.config

namespace Keeps

theorem refl (s : Stage W M) : s.Keeps s := ⟨fun _ => .rfl, rfl, rfl, rfl⟩

theorem trans (h : s.Keeps s') (h' : s'.Keeps s'') : s.Keeps s'' where
  agents e := (h'.agents e).trans (h.agents e)
  spawns := h'.spawns.trans h.spawns
  prototypes := h'.prototypes.trans h.prototypes
  config := h'.config.trans h.config

/-- The entities are listed alike. -/
theorem keys (h : s.Keeps s') : s'.sim.agents.keys = s.sim.agents.keys :=
  SortedMap.keys_eq_of_mem_iff Std.ExtTreeMap.ordered_keys
    fun e => (h.agents e).trans Std.ExtTreeMap.mem_keys.symm

/-- Agents are made of the same definitions. -/
theorem definition? (h : s.Keeps s') (r : SpawnRecord) : s'.definition? r = s.definition? r :=
  definition?_of_eq h.prototypes h.config r

end Keeps

theorem keeps_setAgent (he : e ∈ s.sim.agents) (a : Agent W M) :
    s.Keeps (s.mapSim (·.setAgent e a)) := by
  refine ⟨fun e' => SortedMap.mem_insert_iff.trans ⟨?_, .inr⟩, rfl, rfl, rfl⟩
  rintro (rfl | he')
  · exact he
  · exact he'

/-! ## what the tables say -/

/-- **What the tables say.**  Just the agents are recorded, and their types have prototypes. -/
structure Tabled (s : Stage W M) : Prop where
  mem_iff : ∀ e, e ∈ s.sim.agents ↔ e ∈ s.sim.spawns
  prototype : ∀ (e : EntityId) (r : SpawnRecord), s.sim.spawns[e]? = some r →
    r.entityType ∈ s.sim.prototypes

namespace Tabled

theorem of_eq (h : s.Tabled) (hagents : s'.sim.agents = s.sim.agents)
    (hspawns : s'.sim.spawns = s.sim.spawns) (hprototypes : s'.sim.prototypes = s.sim.prototypes) :
    s'.Tabled := by
  refine ⟨?_, ?_⟩
  · rw [hagents, hspawns]
    exact h.mem_iff
  · rw [hspawns, hprototypes]
    exact h.prototype

theorem of_keeps (h : s.Tabled) (hkeeps : s.Keeps s') : s'.Tabled := by
  refine ⟨fun e => ?_, ?_⟩
  · rw [hkeeps.spawns, hkeeps.agents]
    exact h.mem_iff e
  · rw [hkeeps.spawns, hkeeps.prototypes]
    exact h.prototype

theorem keys_eq (h : s.Tabled) : s.sim.agents.keys = s.sim.spawns.keys :=
  SortedMap.keys_eq_of_mem_iff Std.ExtTreeMap.ordered_keys
    fun e => (h.mem_iff e).trans Std.ExtTreeMap.mem_keys.symm

/-- An agent may change in its place. -/
theorem settle (h : s.Tabled) {t : Turn W M} (he : e ∈ s.sim.agents) : (s.settle e t).Tabled :=
  (h.of_keeps (keeps_setAgent he t.agent)).of_eq rfl rfl rfl

/-- An agent is recorded when it is made. -/
theorem install (h : s.Tabled) {r : SpawnRecord} {d : Definition W M}
    (hfound : s.definition? r = some d) : (s.install e r d).Tabled := by
  obtain ⟨prototype, hprototype, -⟩ := Option.map_eq_some_iff.mp hfound
  refine ⟨fun e' => ?_, fun e' r' hr' => ?_⟩
  · refine SortedMap.mem_insert_iff.trans (.trans ?_ SortedMap.mem_insert_iff.symm)
    exact or_congr_right (h.mem_iff e')
  · have hrecorded : (s.sim.spawns.insert e r)[e']? = some r' := hr'
    rw [SortedMap.getElem?_insert] at hrecorded
    split at hrecorded
    · cases hrecorded
      exact SortedMap.mem_of_getElem? hprototype
    · exact h.prototype e' r' hrecorded

/-- An agent is dropped together with its record. -/
theorem destroy (h : s.Tabled) (e : EntityId) :
    (s.mapSim fun sim => (sim.destroy e).2).Tabled := by
  refine ⟨fun e' => ?_, fun e' r hr => ?_⟩
  · refine SortedMap.mem_erase_iff.trans (.trans ?_ SortedMap.mem_erase_iff.symm)
    rw [h.mem_iff]
  · have hrecorded : (s.sim.spawns.erase e)[e']? = some r := hr
    rw [SortedMap.getElem?_erase] at hrecorded
    split at hrecorded
    · cases hrecorded
    · exact h.prototype e' r hrecorded

theorem onAgent (h : s.Tabled) (e : EntityId) (f : Agent W M → Except AgentError α × Agent W M) :
    ({ s with sim := (s.sim.onAgent e f).2 } : Stage W M).Tabled := by
  obtain hsame | ⟨a, b, ha, hset⟩ := s.sim.onAgent_cases e f
  · rw [hsame]
    exact h
  · rw [hset]
    exact h.of_keeps (keeps_setAgent (SortedMap.mem_of_getElem? ha) b)

/-- Setting about an operation keeps what the tables say. -/
theorem outset [World W] (h : s.Tabled) (op : Operation W M) : (s.outset op).Tabled := by
  cases op with
  | registerPrototype entityType d =>
      exact ⟨h.mem_iff, fun e r hr => SortedMap.mem_insert_iff.mpr (.inr (h.prototype e r hr))⟩
  | registerDefinition d =>
      have haside := s.sim.registerDefinition_aside d
      refine ⟨?_, fun e r hr => Simulation.mem_registerDefinition (h.prototype e r ?_) d⟩
      · simp only [Stage.outset, perform, mapSim]
        rw [haside]
        exact h.mem_iff
      · simp only [Stage.outset, perform, mapSim] at hr
        rw [haside] at hr
        exact hr
  | update dt =>
      rw [Stage.outset, advance]
      split
      · exact h
      · exact h.of_eq rfl rfl rfl
  | destroy e => exact h.destroy e
  | shutdown =>
      exact ⟨fun e => iff_of_false Std.ExtTreeMap.not_mem_empty Std.ExtTreeMap.not_mem_empty,
        fun e r hr => absurd (SortedMap.mem_of_getElem? hr) Std.ExtTreeMap.not_mem_empty⟩
  | write e w => exact h.onAgent e _
  | replanTo e pairs merge => exact h.onAgent e (·.encode pairs)
  | reloadActions e specs => exact h.onAgent e _
  | reportGoal e goal reason => exact h.onAgent e _
  | _ => exact h.of_eq rfl rfl rfl

end Tabled

end Stage

namespace Docket

variable [World W] {d d' : Docket W M} {x : Happening W M}

/-- What the tables say, and the agent that is called is among them. -/
structure Tabled (d : Docket W M) : Prop where
  stage : d.stage.Tabled
  calling : ∀ cause t, d.progress = .calling cause t → t.entity ∈ d.stage.sim.agents

/-- **Every step keeps what the tables say.** -/
theorem Step.tabled (hstep : Step d x d') (hd : d.Tabled) : d'.Tabled := by
  -- a call puts its agent back when it ends, which adds none, as the agent was there all along
  obtain ⟨hstage, hcalled⟩ := hd
  cases hstep with
  | performed op hidle hbatch =>
      exact ⟨hstage.outset op, fun cause t ht => nomatch hidle.symm.trans ht⟩
  | dispatched tick hop hidle hbatch =>
      refine ⟨hstage, fun cause t ht => ?_⟩
      simp only at ht
      split at ht
      · cases ht
      · cases ht
  | reset hdue hbatch => exact ⟨hstage.of_eq rfl rfl rfl, fun cause t ht => nomatch ht⟩
  | made e hfound hidle hbatch =>
      exact ⟨hstage.install hfound, fun cause t ht => nomatch hidle.symm.trans ht⟩
  | dropped hinvalid hidle hbatch =>
      exact ⟨hstage.destroy _, fun cause t ht => nomatch hidle.symm.trans ht⟩
  | began tick hop hcalls ha hidle hbatch =>
      refine ⟨hstage, fun cause t ht => ?_⟩
      cases ht
      exact SortedMap.mem_of_getElem? ha
  | interrupted tick hbatch ha hidle =>
      refine ⟨hstage, fun cause t ht => ?_⟩
      cases ht
      exact SortedMap.mem_of_getElem? ha
  | requested r hcalling => exact ⟨hstage.of_eq rfl rfl rfl, hcalled⟩
  | @ended cause t hcalling hcommands =>
      refine ⟨hstage.settle (hcalled cause t hcalling), fun cause' t' ht => ?_⟩
      cases cause <;> cases ht
  | gathered hfree hbatch => exact ⟨hstage.of_eq rfl rfl rfl, fun cause t ht => nomatch ht⟩
  | missed hbatch ha hidle => exact ⟨hstage, hcalled⟩

end Docket

namespace Stage

variable {s s' s'' : Stage W M} {e : EntityId} {a : Agent W M}

/-- **On every stage the tables say so**, whatever has been done to it. -/
theorem Reachable.tabled [World W] (h : s.Reachable) : s.Tabled := by
  induction h with
  | setUp config world =>
      exact ⟨fun e => iff_of_false Std.ExtTreeMap.not_mem_empty Std.ExtTreeMap.not_mem_empty,
        fun e r hr => absurd (SortedMap.mem_of_getElem? hr) Std.ExtTreeMap.not_mem_empty⟩
  | @perform s _ op ih =>
      obtain ⟨d, hsteps, hstage, -⟩ := Docket.steps_history (d := { stage := s }) [op] rfl rfl
      have hd : d.Tabled := hsteps.preserves (P := fun _ d => d.Tabled) (h := [])
        (fun hstep => hstep.tabled) ⟨ih, fun cause t ht => nomatch ht⟩
      have hperform : d.stage = s.perform op := hstage
      exact hperform ▸ hd.stage

/-! ## calls and interrupts -/

theorem keeps_afterCall (ha : s.sim.agents[e]? = some a) (tick : Tick) (call : Call) :
    s.Keeps (s.afterCall e a tick call) := by
  have hset := keeps_setAgent (SortedMap.mem_of_getElem? ha) ((s.turn e a tick).after call).agent
  exact ⟨hset.agents, rfl, rfl, rfl⟩

theorem keeps_interruptAll (s : Stage W M) (tick : Tick) (batch : List EntityId) :
    s.Keeps (s.interruptAll tick batch) := by
  induction batch generalizing s with
  | nil => exact .refl s
  | cons e rest ih =>
      cases ha : s.sim.agents[e]? with
      | none =>
          rw [interruptAll_cons_none ha]
          exact ih s
      | some a =>
          rw [interruptAll_cons_some ha]
          exact (keeps_afterCall ha tick .interrupt).trans (ih _)

/-- **Interrupts leave the tables alone.** -/
theorem keeps_applyInterrupts (s : Stage W M) (tick : Tick) : s.Keeps (s.applyInterrupts tick) := by
  have hgathered : s.Keeps s.gathered := ⟨fun _ => .rfl, rfl, rfl, rfl⟩
  exact hgathered.trans (keeps_interruptAll _ tick _)

theorem keeps_callAgent (s : Stage W M) (e : EntityId) (tick : Tick)
    {f : Turn W M → α × Turn W M} {call : Call} (hf : ∀ t, t.after call = (f t).2) :
    s.Keeps (s.callAgent e tick f).2 := by
  cases ha : s.sim.agents[e]? with
  | none =>
      rw [callAgent_of_none ha]
      exact .refl s
  | some a =>
      rw [callAgent_of_some ha tick hf]
      exact (keeps_afterCall ha tick call).trans (keeps_applyInterrupts _ tick)

/-! ## resets -/

/-- An agent that is made again as it is recorded keeps its place. -/
theorem keeps_install {r : SpawnRecord} (he : e ∈ s.sim.agents) (hr : s.sim.spawns[e]? = some r)
    (d : Definition W M) : s.Keeps (s.install e r d) := by
  have hset := keeps_setAgent he (s.fresh e r d)
  exact ⟨hset.agents, SortedMap.insert_of_getElem? hr, rfl, rfl⟩

theorem keeps_spawn {r : SpawnRecord} (he : e ∈ s.sim.agents) (hr : s.sim.spawns[e]? = some r) :
    s.Keeps (s.spawn e r.entityType r.overrides).2 := by
  rw [spawn_eq]
  cases s.definition? r with
  | none => exact .refl s
  | some d =>
      simp only
      cases (s.load r d).1 with
      | error err => exact keeps_install he hr d
      | ok done =>
          exact (keeps_install he hr d).trans
            (keeps_callAgent _ e _ fun t => by rw [Turn.after])

theorem keeps_respawnAll {records : List (EntityId × SpawnRecord)}
    (hrecords : ∀ p ∈ records, p.1 ∈ s.sim.agents ∧ s.sim.spawns[p.1]? = some p.2) :
    s.Keeps (s.respawnAll records) := by
  induction records generalizing s with
  | nil => exact .refl s
  | cons record rest ih =>
      obtain ⟨⟨he, hr⟩, hrest⟩ := List.forall_mem_cons.mp hrecords
      have hkeeps := keeps_spawn he hr
      refine hkeeps.trans (ih fun p hp => ?_)
      rw [hkeeps.spawns]
      exact ⟨(hkeeps.agents p.1).mpr (hrest p hp).1, (hrest p hp).2⟩

/-- What is recorded is there. -/
theorem Tabled.mem_toList (h : s.Tabled) :
    ∀ p ∈ s.sim.spawns.toList, p.1 ∈ s.sim.agents ∧ s.sim.spawns[p.1]? = some p.2 := by
  rintro ⟨e, r⟩ hp
  have hr := Std.ExtTreeMap.mem_toList_iff_getElem?_eq_some.mp hp
  exact ⟨(h.mem_iff e).mpr (SortedMap.mem_of_getElem? hr), hr⟩

theorem keeps_withoutReset (s : Stage W M) : s.Keeps s.withoutReset :=
  ⟨fun _ => .rfl, rfl, rfl, rfl⟩

/-- **A reset leaves the tables as they are.** -/
theorem Tabled.keeps_applyReset (h : s.Tabled) : s.Keeps s.applyReset := by
  rw [applyReset_eq]
  split
  · exact s.keeps_withoutReset.trans (keeps_respawnAll h.mem_toList)
  · exact s.keeps_withoutReset

/-- Frame time leaves requests alone. -/
theorem commands_advance [World W] (s : Stage W M) (dt : Float32) :
    (s.advance dt).2.sim.commands = s.sim.commands := s.commands_outset (.update dt)

/-- Frame time leaves the tables as they are. -/
theorem keeps_advance (s : Stage W M) (dt : Float32) : s.Keeps (s.advance dt).2 := by
  rw [advance]
  split
  · exact .refl s
  · exact ⟨fun _ => .rfl, rfl, rfl, rfl⟩

end Stage

end PlanningAgents
