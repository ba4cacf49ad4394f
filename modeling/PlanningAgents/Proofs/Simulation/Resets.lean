import PlanningAgents.Proofs.Simulation.Updates

/-!
# PlanningAgents.Proofs.Simulation.Resets

Resets.  A reset that has been asked for, from outside or by a handler, is outstanding until it is
carried out or the simulation is shut down (`ResetPending`).  It is carried out at the beginning of
the next tick that is dispatched, before any agent is ticked, and at no other time.  A handler that
asks for one while a reset is carried out asks for another, which waits for the tick after.

A reset makes again just the entities that are there, in ascending order, each as it is recorded and
from the prototype that its type has then, whether or not that can be loaded.

Main statements:

* `ResetPending`, `Docket.Step.latched` — every step keeps to it that this is what is outstanding;
* `Stage.Tabled.made_restoring_spawns` — what a reset makes;
* `Stage.launches_restoring` — each agent that a reset makes is launched, if it can be loaded;
* `Stage.resets_exact` — resets in every run.
-/

namespace PlanningAgents

variable {W M : Type}

/-- **A reset is outstanding**: it has been asked for, and neither has one been carried out since,
nor has the simulation been shut down. -/
def ResetPending (h : List (Happening W M)) : Prop :=
  Outstanding (fun _ x => x = .requested .reset ∨ x = .performed .requestReset)
    (fun y => y = .reset ∨ y = .performed .shutdown) h

/-- The agent that is made, the record of it, and the definition that it is made of. -/
def Happening.made? : Happening W M → Option (EntityId × SpawnRecord × Definition W M)
  | .made e r d => some (e, r, d)
  | _ => none

/-- Nothing happens that resets depend on. -/
def Happening.LeavesResets : Happening W M → Prop
  | .requested .reset | .reset | .performed .requestReset | .performed .shutdown => False
  | _ => True

variable {h : List (Happening W M)} {x : Happening W M}

theorem resetPending_concat_iff (hx : x.LeavesResets) :
    ResetPending (h ++ [x]) ↔ ResetPending h := by
  rw [ResetPending, outstanding_concat]
  constructor
  · rintro ((rfl | rfl) | ⟨hpending, -⟩)
    · exact absurd hx id
    · exact absurd hx id
    · exact hpending
  · intro hpending
    refine .inr ⟨hpending, ?_⟩
    rintro (rfl | rfl) <;> exact hx

namespace Docket

variable {d d' : Docket W M}

/-- What has happened tells whether a reset is pending; and one is about to be carried out only when
a tick has just been dispatched. -/
structure Latched (h : List (Happening W M)) (d : Docket W M) : Prop where
  pending : d.stage.sim.commands.resetRequested = true ↔ ResetPending h
  due : d.progress = .resetting → ∃ before tick, h = before ++ [.dispatched tick]

theorem Latched.aside (hd : d.Latched h) (hx : x.LeavesResets)
    (hsame : d'.stage.sim.commands.resetRequested = d.stage.sim.commands.resetRequested)
    (hprogress : d'.progress ≠ .resetting) : d'.Latched (h ++ [x]) where
  pending := by rw [hsame, hd.pending, resetPending_concat_iff hx]
  due hdue := absurd hdue hprogress

variable [World W]

/-- Setting about an operation, whether or not it is for resets. -/
theorem Latched.performed (hd : d.Latched h) (op : Operation W M) (hidle : d.progress = .idle) :
    ({ d with stage := d.stage.outset op, op := some op } : Docket W M).Latched
      (h ++ [.performed op]) := by
  have houtset := d.stage.commands_outset op
  have hnot (hdue : d.progress = .resetting) :
      ∃ before tick, h ++ [.performed op] = before ++ [.dispatched tick] := by
    rw [hidle] at hdue
    cases hdue
  refine ⟨?_, hnot⟩
  cases op with
  | shutdown =>
      refine iff_of_false (by rw [houtset]; exact nofun) ?_
      rw [ResetPending, outstanding_concat]
      rintro ((hx | hx) | ⟨-, hnone⟩)
      · cases hx
      · cases hx
      · exact hnone (.inr rfl)
  | requestReset =>
      refine iff_of_true (by rw [houtset]; rfl) ?_
      rw [ResetPending, outstanding_concat]
      exact .inl (.inr rfl)
  | _ =>
      refine .trans ?_ (resetPending_concat_iff (by trivial)).symm
      rw [houtset]
      exact hd.pending

/-- **Every step keeps to it** that what has happened tells whether a reset is pending. -/
theorem Step.latched (hstep : Step d x d') (hd : d.Latched h) : d'.Latched (h ++ [x]) := by
  cases hstep with
  | performed op hidle hbatch => exact hd.performed op hidle
  | dispatched tick hop hidle hbatch =>
      refine ⟨?_, fun _ => ⟨h, tick, rfl⟩⟩
      exact hd.pending.trans (resetPending_concat_iff (by trivial)).symm
  | reset hdue hbatch =>
      refine ⟨iff_of_false Bool.false_ne_true ?_, fun hdue' => by cases hdue'⟩
      rw [ResetPending, outstanding_concat]
      rintro ((hx | hx) | ⟨-, hnone⟩)
      · cases hx
      · cases hx
      · exact hnone (.inl rfl)
  | made e hfound hidle hbatch => exact hd.aside trivial rfl (by simp [hidle])
  | dropped hinvalid hidle hbatch => exact hd.aside trivial rfl (by simp [hidle])
  | began tick hop hcalls ha hidle hbatch => exact hd.aside trivial rfl (by simp)
  | interrupted tick hbatch ha hidle => exact hd.aside trivial rfl (by simp)
  | requested r hcalling =>
      have hnot : d.progress ≠ .resetting := by simp [hcalling]
      cases r with
      | interrupt e =>
          refine hd.aside trivial ?_ hnot
          simp only [Stage.ask, Stage.mapSim, Commands.ask, Commands.requestInterrupt]
          split
          · rfl
          · rfl
      | reset =>
          refine ⟨iff_of_true rfl ?_, fun hdue => absurd hdue hnot⟩
          rw [ResetPending, outstanding_concat]
          exact .inl (.inl rfl)
  | @ended cause t hcalling hcommands =>
      refine hd.aside trivial (congrArg Commands.resetRequested hcommands.symm) ?_
      cases cause <;> simp [progressAfter]
  | gathered hfree hbatch => exact hd.aside trivial rfl (by simp)
  | missed hbatch ha hidle => exact hd.aside trivial rfl (by simp [hidle])

/-- When a reset is due it comes next. -/
theorem Step.reset_iff (hstep : Step d x d') : x = .reset ↔ d.progress = .resetting := by
  constructor
  · rintro rfl
    cases hstep
    assumption
  · intro hdue
    have hallowed := hstep.allowed
    rwa [hdue] at hallowed

/-- A reset comes behind a tick that has been dispatched exactly if one is pending. -/
theorem Steps.head?_eq_reset_iff {tick : Tick} (hstep : Step d (.dispatched tick) d')
    {d'' : Docket W M} (hrest : Steps d' h d'') (hidle : d''.progress = .idle) :
    h.head? = some .reset ↔ d.stage.sim.commands.resetRequested = true := by
  have hprogress : d'.progress = .resetting ↔ d.stage.sim.commands.resetRequested = true := by
    cases hstep with
    | dispatched tick hop hidle' hbatch =>
        simp only
        split
        · next hlatch => exact iff_of_true rfl hlatch
        · next hlatch => exact iff_of_false nofun hlatch
  rw [← hprogress]
  cases hrest with
  | nil =>
      refine iff_of_false nofun ?_
      rw [hidle]
      exact nofun
  | @cons _ _ _ x rest hnext hrest =>
      rw [List.head?_cons, Option.some.injEq]
      exact hnext.reset_iff

end Docket

namespace Stage

variable {s : Stage W M}

/-! ## what a reset makes -/

theorem made_gathering (s : Stage W M) (tick : Tick) :
    (s.gathering tick).filterMap Happening.made? = [] := by
  refine List.filterMap_eq_nil_iff.mpr fun x hx => ?_
  obtain hdrains | rfl := s.gathers_gathering tick x hx
  · cases x with
    | made e r d => exact absurd hdrains id
    | _ => rfl
  · rfl

theorem made_calling (s : Stage W M) (e : EntityId) (tick : Tick) (cause : Cause) :
    (s.calling e tick cause).filterMap Happening.made? = [] := by
  rw [calling]
  cases s.sim.agents[e]? with
  | none => rfl
  | some a =>
      rw [List.filterMap_append, Turn.filterMap_happenings (fun _ => rfl) rfl, made_gathering]
      rfl

/-- An agent that has been made is launched at once, if its definition can be loaded. -/
def Launches (s : Stage W M) (e : EntityId) (r : SpawnRecord) (d : Definition W M)
    (after : List (Happening W M)) : Prop :=
  (s.load r d).1 = .ok () → ∃ rest, after =
    ((s.install e r d).turn e (s.load r d).2 s.sim.scheduler.last).happenings .spawned ++ rest

/-- Behind an agent that is made there is its launch, and no other agent is made. -/
theorem exists_spawning_eq {e : EntityId} {r : SpawnRecord} {d : Definition W M}
    (hfound : s.definition? r = some d) :
    ∃ behind, s.spawning e r = .made e r d :: behind ∧
      behind.filterMap Happening.made? = [] ∧ ∀ rest, s.Launches e r d (behind ++ rest) := by
  rw [spawning, hfound]
  simp only
  cases hload : (s.load r d).1 with
  | error err => exact ⟨_, rfl, rfl, fun rest hok => absurd (hload.symm.trans hok) (by simp)⟩
  | ok done =>
      have hplace : (s.install e r d).sim.agents[e]? = some (s.load r d).2 := by
        rw [install, agents_setAgent, fresh]
        split
        · next a heq => rw [heq]
        · next err a heq => simp [heq] at hload
      refine ⟨_, rfl, made_calling _ _ _ _, fun rest _ => ?_⟩
      rw [calling, hplace, List.append_assoc]
      exact ⟨_, rfl⟩

theorem made_spawning {e : EntityId} {r : SpawnRecord} {d : Definition W M}
    (hfound : s.definition? r = some d) :
    (s.spawning e r).filterMap Happening.made? = [(e, r, d)] := by
  obtain ⟨behind, hspawning, hnone, -⟩ := exists_spawning_eq (e := e) hfound
  rw [hspawning, List.filterMap_cons, hnone]
  rfl

/-- Where an agent is made, nothing has happened before, and it is launched. -/
theorem launches_spawning {e e' : EntityId} {r r' : SpawnRecord} {d : Definition W M}
    {before after : List (Happening W M)}
    (hsplit : s.spawning e r = before ++ .made e' r' d :: after) :
    before = [] ∧ ∀ rest, s.Launches e' r' d (after ++ rest) := by
  cases hfound : s.definition? r with
  | none => simp [spawning, hfound] at hsplit
  | some d' =>
      obtain ⟨behind, hspawning, hnone, hlaunches⟩ := exists_spawning_eq (e := e) hfound
      rw [hspawning] at hsplit
      cases before with
      | nil =>
          obtain ⟨hfirst, rfl⟩ := List.cons.inj hsplit
          cases hfirst
          exact ⟨rfl, hlaunches⟩
      | cons x before =>
          obtain ⟨-, rfl⟩ := List.cons.inj hsplit
          have hmade : Happening.made? (.made e' r' d) = none :=
            List.filterMap_eq_nil_iff.mp hnone _ (List.mem_append_right _ List.mem_cons_self)
          cases hmade

/-- Records are made again in order, each from the prototype that it has then. -/
theorem made_restoring {records : List (EntityId × SpawnRecord)}
    (hrecords : ∀ p ∈ records, p.1 ∈ s.sim.agents ∧ s.sim.spawns[p.1]? = some p.2)
    (hfound : ∀ p ∈ records, (s.definition? p.2).isSome) :
    ((s.restoring records).filterMap Happening.made?).map (fun m => (m.1, m.2.1)) = records ∧
      ∀ m ∈ (s.restoring records).filterMap Happening.made?, s.definition? m.2.1 = some m.2.2 := by
  induction records generalizing s with
  | nil => exact ⟨rfl, List.forall_mem_nil _⟩
  | cons record rest ih =>
      obtain ⟨e, r⟩ := record
      obtain ⟨⟨he, hr⟩, hrest⟩ := List.forall_mem_cons.mp hrecords
      obtain ⟨hfirst, hothers⟩ := List.forall_mem_cons.mp hfound
      obtain ⟨d, hd⟩ := Option.isSome_iff_exists.mp hfirst
      -- the rest is still recorded, and its prototypes are the same, when this one has been made
      have hkeeps := keeps_spawn he hr
      obtain ⟨hmade, hdefinitions⟩ := ih (s := (s.spawn e r.entityType r.overrides).2)
        (fun p hp => by
          rw [hkeeps.spawns]
          exact ⟨(hkeeps.agents p.1).mpr (hrest p hp).1, (hrest p hp).2⟩)
        (fun p hp => by
          rw [hkeeps.definition?]
          exact hothers p hp)
      rw [restoring, List.filterMap_append, made_spawning hd]
      refine ⟨?_, List.forall_mem_cons.mpr ⟨hd, fun m hm => ?_⟩⟩
      · rw [List.singleton_append, List.map_cons, hmade]
      · rw [← hkeeps.definition? m.2.1]
        exact hdefinitions m hm

/-- What is recorded has a prototype, and so it can be made again. -/
theorem Tabled.isSome_definition? (h : s.Tabled) :
    ∀ p ∈ s.sim.spawns.toList, (s.definition? p.2).isSome := by
  rintro ⟨e, r⟩ hp
  have hr := Std.ExtTreeMap.mem_toList_iff_getElem?_eq_some.mp hp
  rw [definition?, Option.isSome_map]
  exact Std.ExtTreeMap.mem_iff_isSome_getElem?.mp (h.prototype e r hr)

/-- **A reset makes just the agents that are there**, in order and as they are recorded, each from
the prototype that it has then. -/
theorem Tabled.made_restoring_spawns (h : s.Tabled) :
    ((s.restoring s.sim.spawns.toList).filterMap Happening.made?).map Prod.fst =
        s.sim.agents.keys ∧
      ∀ m ∈ (s.restoring s.sim.spawns.toList).filterMap Happening.made?,
        s.sim.spawns[m.1]? = some m.2.1 ∧ s.definition? m.2.1 = some m.2.2 := by
  obtain ⟨hmade, hdefinitions⟩ := made_restoring h.mem_toList h.isSome_definition?
  generalize (s.restoring s.sim.spawns.toList).filterMap Happening.made? = made at *
  refine ⟨?_, fun m hm => ⟨?_, hdefinitions m hm⟩⟩
  · calc made.map Prod.fst
        = (made.map fun m => (m.1, m.2.1)).map Prod.fst := by rw [List.map_map]; rfl
      _ = s.sim.spawns.toList.map Prod.fst := by rw [hmade]
      _ = s.sim.agents.keys := by rw [Std.ExtTreeMap.map_fst_toList_eq_keys, h.keys_eq]
  · refine Std.ExtTreeMap.mem_toList_iff_getElem?_eq_some.mp ?_
    rw [← hmade]
    exact List.mem_map_of_mem hm

/-! ## resets in a run -/

section Run

variable [World W]

open Docket in
/-- **Every agent that a reset makes** is launched at once, if its definition can be loaded. -/
theorem launches_restoring (dt : Float32) {records : List (EntityId × SpawnRecord)} {e : EntityId}
    {r : SpawnRecord} {d : Definition W M} {before after : List (Happening W M)}
    (hsplit : s.restoring records = before ++ .made e r d :: after) :
    ∃ u, Leads (.update dt) s before u ∧ u.Launches e r d after := by
  induction records generalizing s before with
  | nil => simp [restoring] at hsplit
  | cons record rest ih =>
      obtain ⟨e', r'⟩ := record
      rw [restoring] at hsplit
      have hspawn := leads_spawning (.reset dt e') s r'
      obtain ⟨middle, rfl, hrest⟩ | ⟨middle, hfirst, hrest⟩ := List.append_eq_append_iff.mp hsplit
      · obtain ⟨u, hleads, hlaunches⟩ := ih hrest
        exact ⟨u, hspawn.append hleads, hlaunches⟩
      · cases middle with
        | nil =>
            have hnext : (s.spawn e' r'.entityType r'.overrides).2.restoring rest =
                [] ++ .made e r d :: after := hrest.symm
            obtain ⟨u, hleads, hlaunches⟩ := ih hnext
            rw [List.append_nil] at hfirst
            rw [← hfirst]
            have hboth := hspawn.append hleads
            rw [List.append_nil] at hboth
            exact ⟨u, hboth, hlaunches⟩
        | cons x middle =>
            obtain ⟨rfl, rfl⟩ := List.cons.inj hrest
            obtain ⟨rfl, hlaunches⟩ := launches_spawning hfirst
            exact ⟨s, .refl _ _, hlaunches _⟩

open Docket in
/-- An update for which a tick is due begins with the reset that is pending. -/
theorem Tabled.update_of_reset (h : s.Tabled) {dt : Float32} {tick : Tick}
    (hdue : (s.advance dt).1 = some tick) (hlatch : s.sim.commands.resetRequested = true) :
    ∃ restored ticked,
      s.happenings (.update dt) = .dispatched tick :: .reset :: (restored ++ ticked) ∧
      (∀ x ∈ restored, x.InReset) ∧ (∀ x ∈ ticked, x.InTick tick) ∧
      (restored.filterMap Happening.made?).map Prod.fst = s.sim.agents.keys ∧
      (∀ m ∈ restored.filterMap Happening.made?,
        s.sim.spawns[m.1]? = some m.2.1 ∧ s.definition? m.2.1 = some m.2.2) ∧
      Leads (.update dt) (s.advance dt).2 (.dispatched tick :: .reset :: restored)
        (s.advance dt).2.applyReset ∧
      ∀ before e r d after, restored = before ++ .made e r d :: after →
        ∃ u, Leads (.update dt) (s.advance dt).2 (.dispatched tick :: .reset :: before) u ∧
          u.Launches e r d after := by
  have hkeeps : s.Keeps (s.advance dt).2.withoutReset :=
    (s.keeps_advance dt).trans (keeps_withoutReset _)
  obtain ⟨hkeys, hmade⟩ := (h.of_keeps hkeeps).made_restoring_spawns
  have hhappenings := (update_of_due hdue).1
  have hpending : (s.advance dt).2.sim.commands.resetRequested = true := by
    rw [commands_advance]
    exact hlatch
  have hleads : Leads (.update dt) _ _ _ := leads_resetting tick (s.advance dt).2
  rw [resetting, if_pos hpending] at hhappenings hleads
  refine ⟨_, _, hhappenings, inReset_restoring _ _, inTick_ticking _ tick _, ?_, ?_, hleads, ?_⟩
  · exact hkeys.trans hkeeps.keys
  · intro m hm
    rw [← hkeeps.spawns, ← hkeeps.definition? m.2.1]
    exact hmade m hm
  · intro before e r d after hsplit
    obtain ⟨u, hbefore, hlaunches⟩ := launches_restoring dt hsplit
    exact ⟨u, (leads_reset tick _ hpending).append hbefore, hlaunches⟩

/-- An update for which a tick is due makes nothing when no reset is pending. -/
theorem update_of_no_reset {dt : Float32} {tick : Tick} (hdue : (s.advance dt).1 = some tick)
    (hlatch : s.sim.commands.resetRequested = false) :
    ∃ ticked, s.happenings (.update dt) = .dispatched tick :: ticked ∧
      ∀ x ∈ ticked, x.InTick tick := by
  have hhappenings := (update_of_due hdue).1
  rw [resetting, commands_advance, if_neg (ne_true_of_eq_false hlatch), List.nil_append]
    at hhappenings
  exact ⟨_, hhappenings, inTick_ticking _ tick _⟩

open Docket in
/-- At every point of a run, what has happened tells whether a reset is pending. -/
theorem exists_latched (hstart : s.sim.commands.resetRequested = false)
    (ops : List (Operation W M)) {before after : List (Happening W M)}
    (hsplit : s.history ops = before ++ after) :
    ∃ d d', d.Latched before ∧ Steps d after d' ∧ d'.stage = ops.foldl Stage.perform s ∧
      d'.progress = .idle := by
  obtain ⟨d, d', hbefore, hafter, hstage, hidle, -⟩ := exists_between s ops hsplit
  have hd := hbefore.preserves (P := fun h d => d.Latched h) (h := [])
    (fun hstep => hstep.latched)
    ⟨iff_of_false (ne_true_of_eq_false hstart) not_outstanding_nil, nofun⟩
  exact ⟨d, d', hd, hafter, hstage, hidle⟩

open Docket in
/-- **Resets are exact**, in every run and whatever the handlers do.  Just the agents are recorded,
and their types have prototypes.  A reset is pending when it has been asked for, and has neither
been carried out since nor been given up by a shutdown.  It is carried out exactly when a tick is
dispatched while it is pending, before anything else happens.  It makes again just the entities that
are there, in ascending order and as they are recorded, each of the definition that its prototype
gives then, launches each that can be loaded, and leaves the tables as they are; and otherwise an
update makes none.  What is told of a run leads to the stage behind it, and what is told of a reset
to the stage behind that. -/
theorem resets_exact (config : SimulationConfig) (world : W) (ops : List (Operation W M)) :
    let start : Stage W M := { sim := .ofConfig config, world }
    let s := ops.foldl Stage.perform start
    (s.sim.agents.keys = s.sim.spawns.keys ∧
      ∀ (e : EntityId) (r : SpawnRecord), s.sim.spawns[e]? = some r →
        r.entityType ∈ s.sim.prototypes) ∧
    (s.sim.commands.resetRequested = true ↔ ResetPending (start.history ops)) ∧
    (∀ before tick after, start.history ops = before ++ .dispatched tick :: after →
      (after.head? = some .reset ↔ ResetPending before)) ∧
    (∀ before after, start.history ops = before ++ .reset :: after →
      ∃ before' tick, before = before' ++ [.dispatched tick]) ∧
    (∃ d, Steps { stage := start } (start.history ops) d ∧ d.stage = s) ∧
    ∀ dt tick, (s.update dt).1 = some tick →
      s.sim.agents.keys.Pairwise (· < ·) ∧
      (s.advance dt).2.applyReset.sim.agents.keys = s.sim.agents.keys ∧
      (s.advance dt).2.applyReset.sim.spawns = s.sim.spawns ∧
      (s.sim.commands.resetRequested = true → ∃ restored ticked,
        s.happenings (.update dt) = .dispatched tick :: .reset :: (restored ++ ticked) ∧
        (∀ x ∈ restored, x.InReset) ∧ (∀ x ∈ ticked, x.InTick tick) ∧
        (restored.filterMap Happening.made?).map Prod.fst = s.sim.agents.keys ∧
        (∀ m ∈ restored.filterMap Happening.made?,
          s.sim.spawns[m.1]? = some m.2.1 ∧ s.definition? m.2.1 = some m.2.2) ∧
        Leads (.update dt) (s.advance dt).2 (.dispatched tick :: .reset :: restored)
          (s.advance dt).2.applyReset ∧
        ∀ before e r d after, restored = before ++ .made e r d :: after →
          ∃ u, Leads (.update dt) (s.advance dt).2 (.dispatched tick :: .reset :: before) u ∧
            u.Launches e r d after) ∧
      (s.sim.commands.resetRequested = false → ∃ ticked,
        s.happenings (.update dt) = .dispatched tick :: ticked ∧
        ∀ x ∈ ticked, x.InTick tick) := by
  intro start s
  have htabled : s.Tabled := ((Reachable.setUp config world).foldl ops).tabled
  refine ⟨⟨htabled.keys_eq, htabled.prototype⟩, ?_, ?_, ?_, ?_, ?_⟩
  · obtain ⟨d, d', hd, hafter, hstage, -⟩ :=
      exists_latched (s := start) rfl ops (List.append_nil _).symm
    cases hafter
    have hs : d.stage = s := hstage
    exact hs ▸ hd.pending
  · intro before tick after hsplit
    obtain ⟨d, d', hd, hafter, -, hidle⟩ := exists_latched rfl ops hsplit
    cases hafter with
    | cons hstep hrest => exact (hrest.head?_eq_reset_iff hstep hidle).trans hd.pending
  · intro before after hsplit
    obtain ⟨d, d', hd, hafter, -⟩ := exists_latched rfl ops hsplit
    cases hafter with
    | cons hstep hrest => exact hd.due (hstep.reset_iff.mp rfl)
  · obtain ⟨d, hsteps, hstage, -⟩ := steps_history (d := { stage := start }) ops rfl rfl
    exact ⟨d, hsteps, hstage⟩
  · intro dt tick hupdate
    have hdue : (s.advance dt).1 = some tick := by
      rw [update_eq] at hupdate
      exact hupdate
    have hkeeps : s.Keeps (s.advance dt).2.applyReset :=
      (s.keeps_advance dt).trans (htabled.outset (.update dt)).keeps_applyReset
    refine ⟨?_, hkeeps.keys, hkeeps.spawns, htabled.update_of_reset hdue, update_of_no_reset hdue⟩
    exact Std.ExtTreeMap.ordered_keys.imp fun hlt => Std.compare_eq_lt.mp hlt

end Run

end Stage

end PlanningAgents
