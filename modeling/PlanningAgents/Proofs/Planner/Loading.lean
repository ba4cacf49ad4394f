import PlanningAgents.Proofs.Atoms.Registration
import PlanningAgents.Proofs.Planner.Execution

/-!
# PlanningAgents.Proofs.Planner.Loading

What authored actions need of a planner.  Every operation that puts a planner together registers
names of actions and of atoms, and fails exactly where one of them does not fit
(`Planner.Needs`).  Needs add up: what two steps need together, they need one after the other,
since nothing that has been registered is ever given up.

Main statements:

* `Planner.Needs.bind`, `Planner.Needs.forM` — the needs of steps add up;
* `Planner.needs_addSpecs` — authored actions need their names, and the atoms that they mention.
-/

namespace PlanningAgents

/-- The atoms that an authored action mentions in its conditions and effects. -/
def ActionSpec.mentioned (spec : ActionSpec) : List String := spec.pre.keys ++ spec.post.keys

namespace Planner

variable {α β : Type} {p q r : Planner} {actions actions' atoms atoms' : List String}

/-- A planner as its operations make it. -/
structure Sound (p : Planner) : Prop where
  atoms : p.atoms.Valid
  nodup : p.NamesDistinct
  length_le : p.actions.length ≤ maxActions

/-- A planner goes on from another one, with actions and atoms registered and no others. -/
structure Enlarged (q p : Planner) (actions atoms : List String) : Prop where
  sound : q.Sound
  atoms : q.atoms.Registered p.atoms atoms
  names : (q.actions.map (·.name)).toFinset = (p.actions.map (·.name) ++ actions).toFinset
  config : q.config = p.config

/-- There is room for actions and for atoms. -/
def Takes (p : Planner) (actions atoms : List String) : Prop :=
  (p.actions.map (·.name) ++ actions).toFinset.card ≤ maxActions ∧ p.atoms.Fits atoms

/-- An operation registers actions and atoms: it succeeds exactly where there is room for them. -/
def Needs (x : Attempt Planner α) (actions atoms : List String) : Prop :=
  ∀ p : Planner, p.Sound →
    (p.Takes actions atoms ∧ ∃ a q, x.runOn p = (.ok a, q) ∧ q.Enlarged p actions atoms) ∨
    ¬ p.Takes actions atoms ∧ ∃ e, (x.runOn p).1 = .error e

/-! ## room -/

theorem Takes.left (h : p.Takes (actions ++ actions') (atoms ++ atoms')) :
    p.Takes actions atoms := by
  refine ⟨(Finset.card_le_card ?_).trans h.1, h.2.left⟩
  rw [← List.append_assoc, List.toFinset_append (l := _ ++ actions)]
  exact Finset.subset_union_left

theorem Enlarged.takes_iff (h : q.Enlarged p actions atoms) :
    q.Takes actions' atoms' ↔ p.Takes (actions ++ actions') (atoms ++ atoms') := by
  rw [Takes, Takes, h.atoms.fits_iff, ← List.append_assoc, List.toFinset_append, h.names,
    ← List.toFinset_append]

theorem Enlarged.trans (h : r.Enlarged q actions' atoms') (h' : q.Enlarged p actions atoms) :
    r.Enlarged p (actions ++ actions') (atoms ++ atoms') where
  sound := h.sound
  atoms := h.atoms.trans h'.atoms
  names := by
    rw [h.names, List.toFinset_append, h'.names, ← List.toFinset_append, List.append_assoc]
  config := h.config.trans h'.config

/-- In a sound planner there is room for nothing. -/
theorem Sound.takes_nil (h : p.Sound) : p.Takes [] [] := by
  refine ⟨?_, h.atoms.fits_of_subset (List.nil_subset _)⟩
  rw [List.append_nil]
  exact (List.toFinset_card_le _).trans (by rw [List.length_map]; exact h.length_le)

namespace Needs

theorem pure (a : α) : Needs (Pure.pure a) [] [] := by
  intro p hp
  exact .inl ⟨hp.takes_nil, a, p, rfl, hp, hp.atoms.registered_nil, by rw [List.append_nil], rfl⟩

/-- **The needs of two steps** add up. -/
theorem bind {x : Attempt Planner α} {f : α → Attempt Planner β} (hx : Needs x actions atoms)
    (hf : ∀ a, Needs (f a) actions' atoms') :
    Needs (x >>= f) (actions ++ actions') (atoms ++ atoms') := by
  intro p hp
  rw [Attempt.runOn_bind]
  obtain ⟨-, a, q, hrun, hq⟩ | ⟨hfull, e, hrun⟩ := hx p hp
  · rw [hrun, ← hq.takes_iff]
    obtain ⟨htakes, b, r, hrest, hr⟩ | hrest := hf a q hq.sound
    · exact .inl ⟨htakes, b, r, hrest, hr.trans hq⟩
    · exact .inr hrest
  · refine .inr ⟨fun htakes => hfull htakes.left, e, ?_⟩
    cases hresult : x.runOn p with
    | mk result q =>
        rw [hresult] at hrun
        obtain rfl : result = .error e := hrun
        rfl

/-- The needs of a walk over a list are those of its steps. -/
theorem forM {f : α → Attempt Planner PUnit} {names atoms : α → List String}
    (h : ∀ a, Needs (f a) (names a) (atoms a)) (xs : List α) :
    Needs (xs.forM f) (xs.flatMap names) (xs.flatMap atoms) := by
  induction xs with
  | nil => exact pure _
  | cons x xs ih => exact bind (h x) fun _ => ih

/-- Only which names are needed counts. -/
theorem congr {x : Attempt Planner α} (h : Needs x actions atoms)
    (hactions : actions.toFinset = actions'.toFinset) (hatoms : atoms.toFinset = atoms'.toFinset) :
    Needs x actions' atoms' := by
  intro p hp
  have hnames : (p.actions.map (·.name) ++ actions).toFinset =
      (p.actions.map (·.name) ++ actions').toFinset := by
    rw [List.toFinset_append, hactions, ← List.toFinset_append]
  have hall : (p.atoms.names ++ atoms).toFinset = (p.atoms.names ++ atoms').toFinset := by
    rw [List.toFinset_append, hatoms, ← List.toFinset_append]
  have htakes : p.Takes actions atoms ↔ p.Takes actions' atoms' := by
    rw [Takes, Takes, AtomTable.Fits, AtomTable.Fits, hnames, hall]
  obtain ⟨hroom, a, q, hrun, hq⟩ | ⟨hfull, herror⟩ := h p hp
  · exact .inl ⟨htakes.mp hroom, a, q, hrun, hq.sound,
      ⟨hq.atoms.toExtends, hq.atoms.sound, hq.atoms.toFinset_names.trans hall⟩,
      hq.names.trans hnames, hq.config⟩
  · exact .inr ⟨fun hroom => hfull (htakes.mpr hroom), herror⟩

end Needs

/-! ## the operations of a planner -/

/-- Making sure of an action needs its name. -/
theorem needs_ensureAction (name : String) : Needs (ensureAction name) [name] [] := by
  intro p hp
  simp only [ensureAction, Attempt.runOn_bind, Attempt.runOn_get]
  have hfits := hp.takes_nil.2
  have hlength := hp.length_le
  cases hfound : p.action? name with
  | some a =>
      left
      obtain ⟨hmem, rfl⟩ := action?_eq_some hfound
      have hname : a.name ∈ p.actions.map (·.name) := List.mem_map_of_mem hmem
      have hsame : (p.actions.map (·.name) ++ [a.name]).toFinset =
          (p.actions.map (·.name)).toFinset := by
        rw [List.toFinset_append, Finset.union_eq_left]
        simpa using hname
      refine ⟨⟨?_, hfits⟩, (), p, rfl, hp, hp.atoms.registered_nil, hsame.symm, rfl⟩
      rw [hsame]
      exact (List.toFinset_card_le _).trans (by rw [List.length_map]; exact hlength)
  | none =>
      have hnew : name ∉ p.actions.map (·.name) := by
        intro hmem
        obtain ⟨a, ha, hname⟩ := List.mem_map.mp hmem
        have hnone := List.find?_eq_none.mp hfound a ha
        exact hnone (by simpa using hname)
      have hnodup : (p.actions.map (·.name) ++ [name]).Nodup :=
        List.Nodup.append hp.nodup (List.nodup_singleton _) (by simpa using hnew)
      have hcard : (p.actions.map (·.name) ++ [name]).toFinset.card = p.actions.length + 1 := by
        rw [List.toFinset_card_of_nodup hnodup, List.length_append, List.length_map,
          List.length_singleton]
      by_cases hfull : maxActions ≤ p.actions.length
      · right
        refine ⟨fun htakes => ?_, .actionCapExceeded name maxActions, ?_⟩
        · have hroom := htakes.1
          omega
        · simp only [Option.isSome_none, Bool.false_eq_true, if_false, hfull, if_true]
          rfl
      · left
        refine ⟨⟨by omega, hfits⟩, (),
          { p with actions := p.actions ++ [({ name } : PlannerAction)] }, ?_, ?_⟩
        · simp only [Option.isSome_none, Bool.false_eq_true, if_false, hfull]
          rfl
        · have hnames : (p.actions ++ [({ name } : PlannerAction)]).map (·.name) =
              p.actions.map (·.name) ++ [name] := List.map_append
          refine ⟨⟨hp.atoms, ?_, ?_⟩, hp.atoms.registered_nil, congrArg List.toFinset hnames, rfl⟩
          · rw [NamesDistinct, hnames]
            exact hnodup
          · show (p.actions ++ [({ name } : PlannerAction)]).length ≤ maxActions
            rw [List.length_append, List.length_singleton]
            omega

/-- Registering an atom needs its name. -/
theorem needs_registerAtom (name : String) : Needs (registerAtom name) [] [name] := by
  intro p hp
  have hroom := hp.takes_nil.1
  simp only [registerAtom, Attempt.runOn_bind, Attempt.runOn_get, Attempt.runOn_lift]
  obtain ⟨hfits, i, atoms, hregister, hatoms, -⟩ | ⟨hfull, hregister⟩ :=
    AtomTable.register_cases hp.atoms name
  · rw [hregister]
    exact .inl ⟨⟨hroom, hfits⟩, i, { p with atoms }, rfl, ⟨hatoms.sound, hp.nodup, hp.length_le⟩,
      hatoms, by rw [List.append_nil], rfl⟩
  · rw [hregister]
    exact .inr ⟨fun htakes => hfull htakes.2, _, rfl⟩

/-- Changing an action needs nothing. -/
theorem needs_modifyAction (name : String) {f : PlannerAction → PlannerAction}
    (hf : ∀ a, (f a).name = a.name) :
    Needs (modify (·.modifyAction name f) : Attempt Planner Unit) [] [] := by
  intro p hp
  have hnames := map_name_modifyAction p name hf
  refine .inl ⟨hp.takes_nil, (), p.modifyAction name f, rfl, ⟨hp.atoms, ?_, ?_⟩,
    hp.atoms.registered_nil, ?_, rfl⟩
  · rw [NamesDistinct, hnames]
    exact hp.nodup
  · rw [modifyAction, List.length_map]
    exact hp.length_le
  · rw [hnames, List.append_nil]

theorem needs_setCost (action : String) (cost : UInt32) :
    Needs (Planner.setCost action cost) [action] [] :=
  (needs_ensureAction action).bind fun _ => needs_modifyAction action fun _ => rfl

theorem needs_setPre (action atom : String) (value : Bool) :
    Needs (Planner.setPre action atom value) [action] [atom] :=
  (needs_ensureAction action).bind fun _ =>
    (needs_registerAtom atom).bind fun _ => needs_modifyAction action fun _ => rfl

theorem needs_setPost (action atom : String) (value : Bool) :
    Needs (Planner.setPost action atom value) [action] [atom] :=
  (needs_ensureAction action).bind fun _ =>
    (needs_registerAtom atom).bind fun _ => needs_modifyAction action fun _ => rfl

/-- An authored action needs its name, and the atoms that it mentions. -/
theorem needs_addSpec (spec : ActionSpec) :
    Needs (Planner.addSpec spec) [spec.name] spec.mentioned := by
  unfold addSpec
  have hsteps := (needs_setCost spec.name spec.cost).bind fun _ =>
    (Needs.forM (fun a : String × Bool => needs_setPre spec.name a.1 a.2) spec.pre.toList).bind
      fun _ => Needs.forM (fun a : String × Bool => needs_setPost spec.name a.1 a.2)
        spec.post.toList
  refine hsteps.congr ?_ ?_
  · ext name
    simp only [List.mem_toFinset, List.mem_append, List.mem_singleton, List.mem_flatMap]
    refine ⟨?_, .inl⟩
    rintro (h | ⟨-, -, h⟩ | ⟨-, -, h⟩) <;> exact h
  · congr 1
    rw [List.nil_append, ActionSpec.mentioned, ← Std.ExtTreeMap.map_fst_toList_eq_keys,
      ← Std.ExtTreeMap.map_fst_toList_eq_keys, List.map_eq_flatMap, List.map_eq_flatMap]

/-- **Authored actions need their names**, and the atoms that they mention. -/
theorem needs_addSpecs (specs : List ActionSpec) :
    Needs (Planner.addSpecs specs) (specs.map (·.name)) (specs.flatMap ActionSpec.mentioned) := by
  have hwalk := Needs.forM needs_addSpec specs
  rw [← List.map_eq_flatMap] at hwalk
  exact hwalk

/-- A planner without actions and atoms is sound. -/
theorem sound_blank (cap : Nat) (autoRegister : Bool) (config : PlannerConfig) :
    Sound { atoms := .ofCap cap autoRegister, config } where
  atoms := AtomTable.valid_ofCap cap autoRegister
  nodup := List.nodup_nil
  length_le := Nat.zero_le _

end Planner

end PlanningAgents
