import PlanningAgents.Proofs.Agent.Loading
import PlanningAgents.Proofs.Agent.Moves
import PlanningAgents.Proofs.Planner.Merging

/-!
# PlanningAgents.Proofs.Agent.Order

The states of an agent are in the terms of its table.  An agent holds states in many places: four of
its own, those that its plan expects, the effects of what it has queued, and the conditions and
effects of its actions.  All of them are covered by the table of its atoms (`Agent.Orderly`), while
handlers extend this table and loads replace it.

The actions of the planner are the sums of those that the definition has of their names
(`Agent.Loaded`), so whatever refers to the definition by name refers to the planner as well.

Main statements:

* `Agent.Move.orderly`, `Agent.Moves.orderly` — every move keeps an agent in order;
* `Agent.Orderly.after` — so does every call, if a goal that it brings is in the terms of the table;
* `Agent.Orderly.write`, `Agent.Orderly.loadActions`, `Agent.Orderly.loadWorldState` — so do writes
  and loads;
* `Agent.covers_of_buildPlanner` — a planner that is built tells the sums of the actions.
-/

namespace PlanningAgents

variable {W M α : Type}

/-! ## what the planner holds -/

namespace Planner

/-- The states of a plan are in the terms in which its beginning and the effects of actions are. -/
theorem Executes.covers {p : Planner} {s : WorldState} {names : List String}
    {states : List WorldState} (h : p.Executes s names states) {t : AtomTable} (hs : t.Covers s)
    (hposts : ∀ a ∈ p.actions, t.Covers a.post) : ∀ u ∈ states, t.Covers u := by
  induction h with
  | nil => exact nofun
  | cons hstep _ ih =>
      obtain ⟨a, ha, -, rfl⟩ := step?_eq_some_iff.mp hstep
      have hnext := hs.apply (hposts a (action?_eq_some ha).1)
      intro u hu
      obtain rfl | hu := List.mem_cons.mp hu
      · exact hnext
      · exact ih hnext u hu

/-- So are those of every plan that is made. -/
theorem covers_plan {p : Planner} (hp : p.Built) {s goal : WorldState} {t : AtomTable}
    (hs : t.Covers s) (hposts : ∀ a ∈ p.actions, t.Covers a.post) :
    ∀ u ∈ (p.plan s goal).states, t.Covers u := by
  rw [plan]
  obtain ⟨-, hplan⟩ | ⟨-, ⟨n, hn, hgoal, hplan⟩ | hplan⟩ := p.planWithCap_cases s goal p.maxPlanLen
  · rw [hplan]
    exact List.forall_mem_nil _
  · rw [hplan]
    exact (hn.solves hp hgoal).executes.covers hs hposts
  · rw [hplan]
    exact List.forall_mem_nil _

end Planner

/-! ## handlers -/

/-- The state and the goal of a context are in the terms of its table. -/
structure Context.Orderly (c : Context W) : Prop where
  valid : c.atoms.Valid
  current : c.atoms.Covers c.current
  goal : c.atoms.Covers c.goal

/-- **Every operation keeps a context in order.** -/
theorem Context.Orderly.perform {c : Context W} (h : c.Orderly) (op : ContextOp W) :
    (c.perform op).Orderly := by
  have hext := c.extends_perform op
  cases op with
  | setAtom atom value =>
      rw [Context.perform] at hext ⊢
      split at hext
      · next current atoms hset =>
          exact ⟨hext.valid h.valid, h.current.write h.valid AtomTable.writes_set hset,
            h.goal.extends hext⟩
      · exact h
  | setGoal pairs =>
      rw [Context.perform] at hext ⊢
      split at hext
      · next goal atoms hencode =>
          exact ⟨hext.valid h.valid, h.current.extends hext,
            AtomTable.covers_of_encode h.valid hencode⟩
      · exact ⟨hext.valid h.valid, h.current.extends hext, h.goal.extends hext⟩
  | mergeGoal pairs =>
      rw [Context.perform] at hext ⊢
      split at hext
      · next patch atoms hencode =>
          exact ⟨hext.valid h.valid, h.current.extends hext,
            (h.goal.extends hext).apply (AtomTable.covers_of_encode h.valid hencode)⟩
      · exact ⟨hext.valid h.valid, h.current.extends hext, h.goal.extends hext⟩
  | clearGoal => exact ⟨h.valid, h.current, c.atoms.covers_empty⟩
  | reportGoal goal reason => exact ⟨h.valid, h.current, h.goal⟩
  | record kind message => exact ⟨h.valid, h.current, h.goal⟩
  | changeWorld f => exact ⟨h.valid, h.current, h.goal⟩
  | changeBlackboard f => exact ⟨h.valid, h.current, h.goal⟩
  | requestReset => exact ⟨h.valid, h.current, h.goal⟩
  | requestInterrupt e => exact ⟨h.valid, h.current, h.goal⟩

namespace Agent

/-- The actions of the planner, if there are any, are the sums of those of the definition, in terms
from which a table goes on. -/
def LoadedIn (a : Agent W M) (t : AtomTable) : Prop :=
  a.planner.actions = [] ∨
    ∃ p : Planner, p.Tells (ActionSpec.merge (·.pre) a.definition.data.actions)
        (ActionSpec.merge (·.post) a.definition.data.actions) ∧
      a.planner.actions = p.actions ∧ t.Extends p.atoms

/-- The table of an agent goes on from the terms of its actions. -/
def Loaded (a : Agent W M) : Prop := a.LoadedIn a.atoms

/-- All states of an agent are in the terms of its table. -/
structure Orderly (a : Agent W M) : Prop where
  valid : a.atoms.Valid
  built : a.planner.Built
  loaded : a.Loaded
  current : a.atoms.Covers a.current
  cached : a.atoms.Covers a.cached
  planStart : a.atoms.Covers a.planStart
  goal : a.atoms.Covers a.goal
  /-- What the plan expects. -/
  plan : ∀ s ∈ a.plan.states, a.atoms.Covers s
  /-- The effects of what is queued. -/
  queue : ∀ r ∈ a.queue, a.atoms.Covers r.post

variable {a b : Agent W M} {events : List (Event W M)}

/-- What calls and writes do leaves the actions in the terms that they have been loaded in. -/
theorem LoadedIn.continues {t : AtomTable} (h : a.LoadedIn t) (hcontinues : b.Continues a) :
    b.LoadedIn t := by
  rwa [LoadedIn, hcontinues.actions, hcontinues.definition]

theorem Loaded.continues (h : a.Loaded) (hcontinues : b.Continues a) : b.Loaded := by
  refine (LoadedIn.continues h hcontinues).imp_right fun ⟨p, htells, hactions, hext⟩ => ?_
  exact ⟨p, htells, hactions, hcontinues.atoms.trans hext⟩

/-- What a planner has been built with it is still built with. -/
theorem built_of_continues (h : a.planner.Built) (hcontinues : b.Continues a) :
    b.planner.Built := by
  have hplanner : b.planner =
      { atoms := b.planner.atoms, actions := a.planner.actions, config := a.planner.config } := by
    rw [← hcontinues.actions, ← hcontinues.config]
  exact hplanner ▸ h.withAtoms b.planner.atoms

/-- The conditions and effects of actions are in the terms of the table. -/
theorem Loaded.covers (h : a.Loaded) :
    ∀ x ∈ a.planner.actions, a.atoms.Covers x.pre ∧ a.atoms.Covers x.post := by
  obtain hnone | ⟨p, htells, hactions, hext⟩ := h
  · rw [hnone]
    exact nofun
  · rw [hactions]
    exact fun x hx => ⟨(htells.covers x hx).1.extends hext, (htells.covers x hx).2.extends hext⟩

/-- Actions are distinct, and no more than a planner may hold. -/
theorem Loaded.length_le (h : a.Loaded) : a.planner.actions.length ≤ maxActions := by
  obtain hnone | ⟨p, htells, hactions, -⟩ := h
  · rw [hnone]
    exact Nat.zero_le _
  · rw [hactions]
    exact htells.sound.length_le

namespace Orderly

/-- The effects of an action that is found under a name are in the terms of the table. -/
theorem covers_post (h : a.Orderly) (name : String) :
    a.atoms.Covers (((a.planner.action? name).map (·.post)).getD .empty) := by
  cases hfound : a.planner.action? name with
  | none => exact a.atoms.covers_empty
  | some x => exact (h.loaded.covers x (Planner.action?_eq_some hfound).1).2

/-- Handlers and writes keep an agent in order, if they do so with its state and its goal. -/
theorem of_kept_eq (h : a.Orderly) (hkept : b.kept = a.kept) (hcontinues : b.Continues a)
    (hcurrent : b.atoms.Covers b.current) (hgoal : b.atoms.Covers b.goal) : b.Orderly := by
  have hcached : b.cached = a.cached := (congrArg Agent.cached hkept :)
  have hplanStart : b.planStart = a.planStart := (congrArg Agent.planStart hkept :)
  have hplan : b.plan = a.plan := (congrArg Agent.plan hkept :)
  have hqueue : b.queue = a.queue := (congrArg Agent.queue hkept :)
  have hext := hcontinues.atoms
  exact
    { valid := hext.valid h.valid
      built := built_of_continues h.built hcontinues
      loaded := h.loaded.continues hcontinues
      current := hcurrent
      cached := hcached ▸ h.cached.extends hext
      planStart := hplanStart ▸ h.planStart.extends hext
      goal := hgoal
      plan := hplan ▸ fun s hs => (h.plan s hs).extends hext
      queue := hqueue ▸ fun r hr => (h.queue r hr).extends hext }

end Orderly

/-! ## writes -/

/-- A table that goes on from the one of an agent, with a state and a goal in its terms. -/
theorem Orderly.rewrite (h : a.Orderly) {t : AtomTable} (hext : t.Extends a.atoms)
    {current goal : WorldState} (hcurrent : t.Covers current) (hgoal : t.Covers goal) :
    Orderly { a.withAtoms t with current, goal } :=
  h.of_kept_eq (b := { a.withAtoms t with current, goal }) rfl ⟨rfl, hext⟩ hcurrent hgoal

theorem Orderly.withAtoms (h : a.Orderly) {t : AtomTable} (hext : t.Extends a.atoms) :
    (a.withAtoms t).Orderly :=
  h.rewrite hext (h.current.extends hext) (h.goal.extends hext)

/-- **Writes keep an agent in order.** -/
theorem Orderly.write (h : a.Orderly) (w : Write) : (a.write w).Orderly := by
  cases w with
  | setAtom atom value =>
      simp only [Agent.write, setAtom]
      split
      · next current t hset =>
          have hext := AtomTable.extends_set hset
          exact h.rewrite hext (h.current.write h.valid AtomTable.writes_set hset)
            (h.goal.extends hext)
      · exact h
  | patchAtom atom value =>
      simp only [Agent.write, patchAtom]
      split
      · next i hindex =>
          obtain ⟨hi, -⟩ := List.getElem?_eq_some_iff.mp (AtomTable.getElem?_of_index? hindex)
          exact h.rewrite (.refl _) (h.current.set h.valid hi value) h.goal
      · exact h
  | encode pairs => exact h.withAtoms (a.atoms.extends_encode pairs)
  | setGoal pairs =>
      simp only [Agent.write, setGoal, encode]
      cases hencode : a.atoms.encode pairs with
      | mk result t =>
          have hext := AtomTable.extends_of_encode hencode
          cases result with
          | error e => exact h.withAtoms hext
          | ok goal =>
              exact h.rewrite hext (h.current.extends hext)
                (AtomTable.covers_of_encode h.valid hencode)
  | mergeGoal pairs =>
      simp only [Agent.write, mergeGoal, encode]
      cases hencode : a.atoms.encode pairs with
      | mk result t =>
          have hext := AtomTable.extends_of_encode hencode
          cases result with
          | error e => exact h.withAtoms hext
          | ok patch =>
              exact h.rewrite hext (h.current.extends hext)
                ((h.goal.extends hext).apply (AtomTable.covers_of_encode h.valid hencode))
  | changeBlackboard f => exact { h with }
  | changeTrace f => exact { h with }

/-! ## moves -/

/-- What a handler leaves is in order. -/
theorem Orderly.call {t : Turn W M} (h : t.agent.Orderly) (handler : Handler W α) :
    (t.call handler).2.agent.Orderly := by
  have hcontext : (handler.run t.context).2.Orderly :=
    handler.run_preserves (fun c op hc => hc.perform op) t.context ⟨h.valid, h.current, h.goal⟩
  exact h.of_kept_eq (t.kept_call handler) (t.continues_call handler) hcontext.current hcontext.goal

/-- The front keeps its effects, whatever else of it changes. -/
theorem Orderly.modifyHead (h : a.Orderly) {f : ActionRecord W M → ActionRecord W M}
    (hpost : ∀ r, (f r).post = r.post) : Orderly { a with queue := a.queue.modifyHead f } := by
  refine { h with queue := ?_ }
  show ∀ r ∈ a.queue.modifyHead f, a.atoms.Covers r.post
  cases hqueue : a.queue with
  | nil => exact nofun
  | cons front rest =>
      intro r hr
      obtain rfl | hr := List.mem_cons.mp hr
      · exact hpost front ▸ h.queue front (hqueue ▸ List.mem_cons_self)
      · exact h.queue r (hqueue ▸ List.mem_cons_of_mem _ hr)

/-- **Every move keeps an agent in order.** -/
theorem Move.orderly (h : Move a events b) (ha : a.Orderly) : b.Orderly := by
  cases h with
  | run t h hlabel => exact ha.call h
  | start hcons hdue => exact (ha.call _).modifyHead fun _ => rfl
  | aside trace blackboard actionIndex dirty => exact { ha with }
  | clearGoal => exact { ha with goal := a.atoms.covers_empty }
  | remember => exact { ha with cached := ha.current }
  | depart => exact { ha with cached := ha.current, planStart := ha.current }
  | touch hcons hphase => exact ha.modifyHead fun _ => rfl
  | retry hcons hphase hleft =>
      have hdue := ha.modifyHead (f := ({ · with task := none, phase := .created })) fun _ => rfl
      exact { hdue with }
  | effect hcons hphase =>
      have hpost := ha.queue _ (hcons ▸ List.mem_cons_self)
      exact { ha with current := ha.current.apply hpost }
  | pop hcons hphase =>
      exact { ha with queue := fun r hr => ha.queue r (List.mem_of_mem_tail hr) }
  | giveUp hcons hphase hleft => exact { ha with queue := nofun }
  | drop hphase => exact { ha with queue := nofun }
  | plan hqueue =>
      have hposts := fun x hx => (ha.loaded.covers x hx).2
      exact { ha with plan := Planner.covers_plan ha.built ha.current hposts }
  | reset hqueue => exact { ha with }
  | enqueue hqueue hretries =>
      refine { ha with queue := fun r hr => ?_ }
      obtain ⟨place, -, hrecord⟩ := List.mem_filterMap.mp hr
      rw [(of_recordAt?_eq_some hrecord).2.2.1]
      exact ha.covers_post place.1

/-- So do moves. -/
theorem Moves.orderly (h : Moves a events b) (ha : a.Orderly) : b.Orderly := by
  induction h with
  | nil => exact ha
  | snoc _ hmove ih => exact hmove.orderly ih

/-- **Every call keeps an agent in order**, if the goal that it brings is in the terms of the
table. -/
theorem Orderly.after {t : Turn W M} (h : t.agent.Orderly) (hrest : t.agent.AtRest) {call : Call}
    (hgoal : ∀ goal merge, call = .replanTo goal merge → t.agent.atoms.Covers goal) :
    (t.after call).agent.Orderly := by
  obtain ⟨events, hmoves, -⟩ := Turn.does_after hrest call
  refine hmoves.orderly ?_
  cases call with
  | replanTo goal merge =>
      have hcovers := hgoal goal merge rfl
      refine { h with goal := ?_ }
      show t.agent.atoms.Covers (if merge then t.agent.goal.apply goal else goal)
      split
      · exact h.goal.apply hcovers
      · exact hcovers
  | launch => exact h
  | step => exact h
  | replan => exact h
  | interrupt => exact h

/-! ## loads -/

theorem orderly_ofDefinition (entityType : String) (definition : Definition W M)
    (config : AgentConfig) : (ofDefinition entityType definition config).Orderly where
  valid := AtomTable.valid_ofCap _ _
  built := .empty _ _
  loaded := .inl rfl
  current := AtomTable.covers_empty _
  cached := AtomTable.covers_empty _
  planStart := AtomTable.covers_empty _
  goal := AtomTable.covers_empty _
  plan := nofun
  queue := nofun

/-- A planner that is built tells the sums of the actions, with all states in its terms. -/
theorem covers_of_buildPlanner {specs : List ActionSpec} {planner : Planner} {states : Reencoded}
    (h : a.buildPlanner specs = .ok (planner, states)) :
    (∃ p : Planner, p.Tells (ActionSpec.merge (·.pre) specs) (ActionSpec.merge (·.post) specs) ∧
      planner.actions = p.actions ∧ planner.atoms.Extends p.atoms ∧
      p.atoms.Extends a.blankPlanner.atoms) ∧
    planner.atoms.Covers states.current ∧ planner.atoms.Covers states.cached ∧
      planner.atoms.Covers states.planStart ∧ planner.atoms.Covers states.goal := by
  obtain ⟨p, t₁, t₂, t₃, hrun, hplanner, hcurrent, hcached, hplanStart, hgoal⟩ :=
    steps_of_buildPlanner h
  have htells := Planner.tells_addSpecs hrun
  have henlarged := (Planner.sound_blank _ _ _).of_needs (Planner.needs_addSpecs specs) hrun
  have hvalid := htells.sound.atoms
  have h₁ := AtomTable.extends_of_encodeRegistering hcurrent
  have h₂ := AtomTable.extends_of_encodeRegistering hcached
  have h₃ := AtomTable.extends_of_encodeRegistering hplanStart
  have h₄ := AtomTable.extends_of_encodeRegistering hgoal
  have hvalid₁ := h₁.valid hvalid
  have hvalid₂ := h₂.valid hvalid₁
  have hvalid₃ := h₃.valid hvalid₂
  refine ⟨⟨p, htells, (congrArg Planner.actions hplanner :), ((h₄.trans h₃).trans h₂).trans h₁,
    henlarged.atoms.toExtends⟩, ?_, ?_, ?_, ?_⟩
  · exact (AtomTable.covers_of_encodeRegistering hvalid hcurrent).extends ((h₄.trans h₃).trans h₂)
  · exact (AtomTable.covers_of_encodeRegistering hvalid₁ hcached).extends (h₄.trans h₃)
  · exact (AtomTable.covers_of_encodeRegistering hvalid₂ hplanStart).extends h₄
  · exact AtomTable.covers_of_encodeRegistering hvalid₃ hgoal

/-- Actions that are loaded are those that the planner holds. -/
theorem Loaded.loadActions (h : a.Loaded) (specs : List ActionSpec) :
    (a.loadActions specs).2.Loaded := by
  rw [Agent.loadActions]
  split
  · exact h
  · next hbuild =>
      obtain ⟨⟨p, htells, hactions, hext, -⟩, -⟩ := covers_of_buildPlanner hbuild
      exact .inr ⟨p, htells, hactions, hext⟩

/-- **Loading actions keeps an agent in order.** -/
theorem Orderly.loadActions (h : a.Orderly) (specs : List ActionSpec) :
    (a.loadActions specs).2.Orderly := by
  rw [Agent.loadActions]
  split
  · exact { h with }
  · next planner states hbuild =>
      obtain ⟨⟨p, htells, hactions, hext, -⟩, hcurrent, hcached, hplanStart, hgoal⟩ :=
        covers_of_buildPlanner hbuild
      exact
        { valid := hext.valid htells.sound.atoms
          built := built_of_buildPlanner hbuild
          loaded := .inr ⟨p, htells, hactions, hext⟩
          current := hcurrent
          cached := hcached
          planStart := hplanStart
          goal := hgoal
          plan := List.forall_mem_nil _
          queue := List.forall_mem_nil _ }

/-- Where a type is encoded, its first state is, and then its goal. -/
theorem steps_of_encodeType {spec : EntityTypeSpec} {initial goal : WorldState} {t : AtomTable}
    (h : a.encodeType spec = .ok (initial, goal, t)) :
    ∃ u, a.atoms.encodeRegistering spec.initial.toList = (.ok initial, u) ∧
      u.encodeRegistering spec.goal.toList = (.ok goal, t) := by
  rw [encodeType] at h
  obtain ⟨initial, hinitial, h⟩ := bind_eq_ok_iff.mp h
  obtain ⟨goal, hgoal, h⟩ := bind_eq_ok_iff.mp h
  obtain ⟨rfl, hrest⟩ := Prod.mk.inj (Except.ok.inj h)
  obtain ⟨rfl, rfl⟩ := Prod.mk.inj hrest
  exact ⟨_, Prod.ext hinitial rfl, Prod.ext hgoal rfl⟩

/-- Loading a type leaves alone what the agent has been loaded with otherwise. -/
theorem extends_loadWorldState (a : Agent W M) (spec : EntityTypeSpec) :
    (a.loadWorldState spec).2.atoms.Extends a.atoms ∧
      (a.loadWorldState spec).2.definition = a.definition ∧
      (a.loadWorldState spec).2.planner.actions = a.planner.actions ∧
      (a.loadWorldState spec).2.queue = a.queue := by
  rw [Agent.loadWorldState]
  split
  · exact ⟨.refl _, rfl, rfl, rfl⟩
  · next initial goal t hencode =>
      obtain ⟨u, hinitial, hgoal⟩ := steps_of_encodeType hencode
      have hext := (AtomTable.extends_of_encodeRegistering hgoal).trans
        (AtomTable.extends_of_encodeRegistering hinitial)
      exact ⟨hext, rfl, rfl, rfl⟩

/-- **Loading a type keeps an agent in order.** -/
theorem Orderly.loadWorldState (h : a.Orderly) (spec : EntityTypeSpec) :
    (a.loadWorldState spec).2.Orderly := by
  rw [Agent.loadWorldState]
  split
  · exact { h with }
  · next initial goal t hencode =>
      obtain ⟨u, hinitial, hgoal⟩ := steps_of_encodeType hencode
      have h₁ := AtomTable.extends_of_encodeRegistering hinitial
      have h₂ := AtomTable.extends_of_encodeRegistering hgoal
      have hcovers := (AtomTable.covers_of_encodeRegistering h.valid hinitial).extends h₂
      have hloaded := h.rewrite (h₂.trans h₁) hcovers
        (AtomTable.covers_of_encodeRegistering (h₁.valid h.valid) hgoal)
      exact { hloaded with cached := hcovers, planStart := hcovers }

theorem Orderly.loadDefinition (h : a.Orderly) : a.loadDefinition.2.Orderly := by
  have hactions := h.loadActions a.definition.data.actions
  rw [Agent.loadDefinition]
  split
  · exact h
  · next spec _ =>
      split
      · next e b hload =>
          rw [hload] at hactions
          exact hactions
      · next b hload =>
          rw [hload] at hactions
          exact hactions.loadWorldState spec

end Agent

end PlanningAgents
