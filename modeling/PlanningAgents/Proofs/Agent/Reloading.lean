import PlanningAgents.Proofs.Agent.Order
import PlanningAgents.Proofs.Planner.Encoding

/-!
# PlanningAgents.Proofs.Agent.Reloading

An agent's actions, loaded once more.  The planner of an agent holds what the actions of its
definition say, whatever has been registered since they were loaded (`Agent.Encoded`).  When they
are loaded again, the table is rebuilt and atoms may get other numbers, but the actions, the state
and the goal say the same by name: so the agent plans as it would have.

Main statements:

* `Agent.Reachable.encoded` — the planner of every agent holds the actions of its definition;
* `Agent.plan_reload` — loading them again leaves alone what is planned.
-/

namespace PlanningAgents

namespace Agent

variable {W M : Type} {a b : Agent W M} {specs : List ActionSpec}

/-- The planner holds what the actions of the definition say, unless none have been loaded. -/
def Encoded (a : Agent W M) : Prop :=
  a.planner.actions = [] ∨ a.planner.Encodes a.definition.data.actions

/-- A planner that is built holds what the actions say. -/
theorem encodes_of_buildPlanner {planner : Planner} {states : Reencoded}
    (h : a.buildPlanner specs = .ok (planner, states)) : planner.Encodes specs := by
  obtain ⟨p, t₁, t₂, t₃, hrun, hplanner, hcurrent, hcached, hplanStart, hgoal⟩ :=
    steps_of_buildPlanner h
  have hext : planner.atoms.Extends p.atoms :=
    (((AtomTable.extends_of_encodeRegistering hgoal).trans
      (AtomTable.extends_of_encodeRegistering hplanStart)).trans
      (AtomTable.extends_of_encodeRegistering hcached)).trans
      (AtomTable.extends_of_encodeRegistering hcurrent)
  exact (Planner.encodes_of_addSpecs hrun).1.extends (Planner.tells_addSpecs hrun).sound.atoms
    (congrArg Planner.actions hplanner :) hext

/-- Actions that have been loaded are held. -/
theorem encodes_of_loadActions (h : (a.loadActions specs).1 = .ok ()) :
    (a.loadActions specs).2.planner.Encodes specs := by
  rw [Agent.loadActions] at h ⊢
  cases hbuild : a.buildPlanner specs with
  | error e =>
      rw [hbuild] at h
      cases h
  | ok built => exact encodes_of_buildPlanner hbuild

namespace Encoded

/-- Atoms that are registered make no difference. -/
theorem register (h : a.Encoded) (hvalid : a.atoms.Valid) (hext : b.atoms.Extends a.atoms)
    (hactions : b.planner.actions = a.planner.actions) (hdefinition : b.definition = a.definition) :
    b.Encoded := by
  rw [Encoded, hactions, hdefinition]
  exact h.imp_right (·.extends hvalid hactions hext)

theorem loadActions (h : a.Encoded) (specs : List ActionSpec) :
    (a.loadActions specs).2.Encoded := by
  rw [Agent.loadActions]
  split
  · exact h
  · next hbuild => exact .inr (encodes_of_buildPlanner hbuild)

theorem loadWorldState (h : a.Encoded) (hvalid : a.atoms.Valid) (spec : EntityTypeSpec) :
    (a.loadWorldState spec).2.Encoded := by
  obtain ⟨hext, hdefinition, hactions, -⟩ := a.extends_loadWorldState spec
  exact h.register hvalid hext hactions hdefinition

theorem loadDefinition (h : a.Encoded) (hvalid : a.atoms.Valid) : a.loadDefinition.2.Encoded := by
  have hactions := h.loadActions a.definition.data.actions
  have hatoms := valid_loadActions hvalid a.definition.data.actions
  rw [Agent.loadDefinition]
  split
  · exact h
  · next spec _ =>
      split
      · next e b hload =>
          rw [hload] at hactions
          exact hactions
      · next b hload =>
          rw [hload] at hactions hatoms
          exact hactions.loadWorldState hatoms spec

end Encoded

/-- **The planner of every agent** holds the actions of its definition. -/
theorem Reachable.encoded (h : a.Reachable) : a.Encoded := by
  induction h using Reachable.inductOn with
  | ofDefinition entityType definition config => exact .inl rfl
  | loadDefinition h ih => exact ih.loadDefinition h.valid_atoms
  | loadActions _ specs ih => exact ih.loadActions specs
  | loadWorldState h spec ih => exact ih.loadWorldState h.valid_atoms spec
  | @write a h w ih =>
      have hkept := a.continues_write w
      exact ih.register h.valid_atoms hkept.atoms hkept.actions hkept.definition
  | @after t h _ call ih =>
      have hkept := t.continues_after call
      exact ih.register h.valid_atoms hkept.atoms hkept.actions hkept.definition

/-- **Loading the actions again leaves alone what is planned.**  The table is rebuilt, in whatever
order, and from the state to the goal in its terms the same actions are found, at the same cost and
through states that say the same by name. -/
theorem plan_reload (h : a.Reachable) (horderly : a.Orderly) (hloaded : a.planner.actions ≠ [])
    (hreload : (a.loadActions a.definition.data.actions).1 = .ok ()) (cap : Nat) :
    let b := (a.loadActions a.definition.data.actions).2
    let plan := a.planner.planWithCap a.current a.goal cap
    let plan' := b.planner.planWithCap b.current b.goal cap
    plan'.actions = plan.actions ∧ plan'.cost = plan.cost ∧ plan'.outcome = plan.outcome ∧
      List.Forall₂ (a.atoms.SaysAlike b.atoms) plan.states plan'.states := by
  have hb := horderly.loadActions a.definition.data.actions
  have hencodes := h.encoded.resolve_left hloaded
  have hencodes' := encodes_of_loadActions hreload
  obtain ⟨-, -, hloads⟩ | ⟨-, ⟨e, herror⟩, -⟩ := loadActions_cases horderly.valid
    a.definition.data.actions
  · have hbudget := congrArg PlannerConfig.maxExpansions hloads.config
    exact (hencodes.saysAlike hencodes' horderly.valid hb.valid hbudget).planWithCap
      ⟨horderly.current, hb.current, hloads.current⟩ ⟨horderly.goal, hb.goal, hloads.goal⟩ cap
  · rw [hreload] at herror
    cases herror

end Agent

end PlanningAgents
