import PlanningAgents.Proofs.Agent.Steady
import PlanningAgents.Proofs.Planner.Loading

/-!
# PlanningAgents.Proofs.Agent.Loading

Loading into an agent is all or nothing.  A load goes through exactly where there is room for the
names that it needs, and then every state of the agent says the same by name as before, or what has
been loaded; a load that does not go through leaves its dirty mark and nothing else.

The states of an agent are moved into a new table one after the other, so their names, and those of
the actions, have to fit into one table together (`Agent.namesSpecified`).

Main statements:

* `Agent.Reachable.valid_atoms` — the atoms of every agent are a valid table;
* `Agent.of_buildPlanner`, `Agent.of_encodeType` — the states keep their meaning in a planner that
  is built, or take on that of a type that is encoded;
* `Agent.loadActions_cases`, `Agent.loadWorldState_cases` — a load goes through exactly where there
  is room;
* `Agent.Reachable.loads_all_or_nothing` — every load is all or nothing, and keeps meaning.
-/

namespace PlanningAgents

variable {W M : Type}

/-! ## moving states between tables -/

namespace AtomTable

variable {t u : AtomTable} {names : List String}

/-- The atoms that a state specifies. -/
def specified (t : AtomTable) (s : WorldState) : List String := (t.toMap s).keys

theorem toFinset_specified (t : AtomTable) (s : WorldState) :
    (t.specified s).toFinset = ((t.read s).map Prod.fst).toFinset := by
  ext name
  rw [List.mem_toFinset, List.mem_toFinset, specified, toMap, Std.ExtTreeMap.mem_keys,
    Std.ExtTreeMap.mem_ofList, List.contains_iff_mem]

/-- What has been registered fits. -/
theorem Registered.fits (h : u.Registered t names) : t.Fits names := by
  rw [Fits, ← h.toFinset_names, ← h.cap]
  exact (List.toFinset_card_le _).trans h.sound.length_le

/-- **Pairs that are encoded** behind registered names have their own registered, and the state
stands for their map. -/
theorem Registered.of_encodeRegistering (h : u.Registered t names) {pairs : List (String × Bool)}
    {s : WorldState} {v : AtomTable} (hrun : u.encodeRegistering pairs = (.ok s, v)) :
    v.Registered t (names ++ pairs.map Prod.fst) ∧ v.Extends u ∧
      ∀ w : AtomTable, w.Valid → w.Extends v → w.toMap s = .ofList pairs := by
  obtain ⟨-, s', v', hrun', hv, hmap⟩ | ⟨-, e, herror⟩ := encodeRegistering_cases h.sound pairs
  · obtain ⟨hs, rfl⟩ := Prod.mk.inj (hrun.symm.trans hrun')
    obtain rfl := Except.ok.inj hs
    exact ⟨hv.trans h, hv.toExtends, hmap⟩
  · rw [hrun] at herror
    cases herror

/-- Pairs are encoded behind registered names if all of the names fit. -/
theorem Registered.exists_encodeRegistering (h : u.Registered t names)
    {pairs : List (String × Bool)} (hfits : t.Fits (names ++ pairs.map Prod.fst)) :
    ∃ s v, u.encodeRegistering pairs = (.ok s, v) ∧
      v.Registered t (names ++ pairs.map Prod.fst) := by
  obtain ⟨-, s, v, hrun, hv, -⟩ | ⟨hfull, -⟩ := encodeRegistering_cases h.sound pairs
  · exact ⟨s, v, hrun, hv.trans h⟩
  · exact absurd (h.fits_iff.mpr hfits) hfull

end AtomTable

namespace Agent

/-! ## the atoms of an agent -/

/-- The atoms that the states of an agent specify. -/
def namesSpecified (a : Agent W M) : List String :=
  a.atoms.specified a.current ++ a.atoms.specified a.cached ++ a.atoms.specified a.planStart ++
    a.atoms.specified a.goal

/-- There is room for actions, and for the atoms that they mention beside those that the states of
the agent specify. -/
def TakesActions (a : Agent W M) (specs : List ActionSpec) : Prop :=
  (specs.map (·.name)).toFinset.card ≤ maxActions ∧
    (specs.flatMap ActionSpec.mentioned ++ a.namesSpecified).toFinset.card ≤ a.atoms.cap

/-- There is room for the atoms of an entity type, beside those that are registered. -/
def TakesType (a : Agent W M) (spec : EntityTypeSpec) : Prop :=
  (a.atoms.names ++ spec.initial.keys ++ spec.goal.keys).toFinset.card ≤ a.atoms.cap

variable {a b : Agent W M}

/-! ## actions -/

/-- The names that a planner for actions has to take, one state after the other. -/
def namesToPlan (a : Agent W M) (specs : List ActionSpec) : List String :=
  specs.flatMap ActionSpec.mentioned ++ (a.atoms.read a.current).map Prod.fst ++
    (a.atoms.read a.cached).map Prod.fst ++ (a.atoms.read a.planStart).map Prod.fst ++
    (a.atoms.read a.goal).map Prod.fst

/-- The planner in which loading begins. -/
def blankPlanner (a : Agent W M) : Planner :=
  { atoms := .ofCap a.atoms.cap a.atoms.autoRegister, config := a.planner.config }

theorem takesActions_iff (h : a.atoms.Valid) (specs : List ActionSpec) :
    a.TakesActions specs ↔ (specs.map (·.name)).toFinset.card ≤ maxActions ∧
      a.blankPlanner.atoms.Fits (a.namesToPlan specs) := by
  have hcap : min a.atoms.cap maxAtoms = a.atoms.cap := Nat.min_eq_left h.cap_le
  rw [TakesActions, AtomTable.Fits, blankPlanner, AtomTable.ofCap, List.nil_append, hcap,
    namesSpecified, namesToPlan]
  simp only [List.toFinset_append, AtomTable.toFinset_specified, Finset.union_assoc]

/-- **A planner is built if there is room** for all that it has to take. -/
theorem exists_buildPlanner (h : a.atoms.Valid) {specs : List ActionSpec}
    (hroom : a.TakesActions specs) : ∃ r, a.buildPlanner specs = .ok r := by
  obtain ⟨hcount, hgoal⟩ := (takesActions_iff h specs).mp hroom
  have hplanStart := hgoal.left
  have hcached := hplanStart.left
  have hcurrent := hcached.left
  obtain ⟨-, done, p, hrun, hp⟩ | ⟨hfull, -⟩ :=
    Planner.needs_addSpecs specs a.blankPlanner (Planner.sound_blank _ _ _)
  · obtain ⟨s₁, t₁, hrun₁, h₁⟩ := hp.atoms.exists_encodeRegistering hcurrent
    obtain ⟨s₂, t₂, hrun₂, h₂⟩ := h₁.exists_encodeRegistering hcached
    obtain ⟨s₃, t₃, hrun₃, h₃⟩ := h₂.exists_encodeRegistering hplanStart
    obtain ⟨s₄, t₄, hrun₄, h₄⟩ := h₃.exists_encodeRegistering hgoal
    refine ⟨({ p with atoms := t₄ }, ⟨s₁, s₂, s₃, s₄⟩), ?_⟩
    simp only [blankPlanner, atoms] at hrun hrun₁ hrun₂ hrun₃ hrun₄
    simp only [buildPlanner, hrun, WorldState.remap, hrun₁, hrun₂, hrun₃, hrun₄]
    rfl
  · exact absurd ⟨hcount, hcurrent.left⟩ hfull

/-- Where a planner is built, the actions have been registered, and then the states one after the
other. -/
theorem steps_of_buildPlanner {specs : List ActionSpec} {planner : Planner} {states : Reencoded}
    (h : a.buildPlanner specs = .ok (planner, states)) :
    ∃ p t₁ t₂ t₃, (Planner.addSpecs specs).runOn a.blankPlanner = (.ok (), p) ∧
      planner = { p with atoms := planner.atoms } ∧
      a.current.remap a.atoms p.atoms = (.ok states.current, t₁) ∧
      a.cached.remap a.atoms t₁ = (.ok states.cached, t₂) ∧
      a.planStart.remap a.atoms t₂ = (.ok states.planStart, t₃) ∧
      a.goal.remap a.atoms t₃ = (.ok states.goal, planner.atoms) := by
  rw [buildPlanner] at h
  obtain ⟨done, hrun, h⟩ := bind_eq_ok_iff.mp h
  obtain ⟨current, hcurrent, h⟩ := bind_eq_ok_iff.mp h
  obtain ⟨cached, hcached, h⟩ := bind_eq_ok_iff.mp h
  obtain ⟨planStart, hplanStart, h⟩ := bind_eq_ok_iff.mp h
  obtain ⟨goal, hgoal, h⟩ := bind_eq_ok_iff.mp h
  obtain ⟨rfl, rfl⟩ := Prod.mk.inj (Except.ok.inj h)
  exact ⟨_, _, _, _, Prod.ext hrun rfl, rfl, Prod.ext hcurrent rfl, Prod.ext hcached rfl,
    Prod.ext hplanStart rfl, Prod.ext hgoal rfl⟩

/-- **Where a planner is built**, there was room, and the states keep their meaning in it. -/
theorem of_buildPlanner (h : a.atoms.Valid) {specs : List ActionSpec} {planner : Planner}
    {states : Reencoded} (hbuild : a.buildPlanner specs = .ok (planner, states)) :
    a.TakesActions specs ∧ planner.atoms.Valid ∧ planner.config = a.planner.config ∧
      planner.atoms.toMap states.current = a.atoms.toMap a.current ∧
      planner.atoms.toMap states.cached = a.atoms.toMap a.cached ∧
      planner.atoms.toMap states.planStart = a.atoms.toMap a.planStart ∧
      planner.atoms.toMap states.goal = a.atoms.toMap a.goal := by
  obtain ⟨p, t₁, t₂, t₃, hrun, hplanner, hcurrent, hcached, hplanStart, hgoal⟩ :=
    steps_of_buildPlanner hbuild
  obtain ⟨⟨hcount, -⟩, done, q, hrun', hq⟩ | ⟨-, e, herror⟩ :=
    Planner.needs_addSpecs specs a.blankPlanner (Planner.sound_blank _ _ _)
  · obtain rfl : p = q := congrArg Prod.snd (hrun.symm.trans hrun')
    obtain ⟨h₁, -, hmap₁⟩ := hq.atoms.of_encodeRegistering hcurrent
    obtain ⟨h₂, hext₂, hmap₂⟩ := h₁.of_encodeRegistering hcached
    obtain ⟨h₃, hext₃, hmap₃⟩ := h₂.of_encodeRegistering hplanStart
    obtain ⟨h₄, hext₄, hmap₄⟩ := h₃.of_encodeRegistering hgoal
    have hvalid := h₄.sound
    refine ⟨(takesActions_iff h specs).mpr ⟨hcount, h₄.fits⟩, hvalid, ?_, ?_, ?_, ?_, ?_⟩
    · rw [hplanner]
      exact hq.config
    · exact hmap₁ _ hvalid ((hext₄.trans hext₃).trans hext₂)
    · exact hmap₂ _ hvalid (hext₄.trans hext₃)
    · exact hmap₃ _ hvalid hext₄
    · exact hmap₄ _ hvalid (.refl _)
  · rw [hrun] at herror
    cases herror

/-! ## entity types -/

/-- A type is encoded if there is room for its atoms. -/
theorem exists_encodeType (h : a.atoms.Valid) {spec : EntityTypeSpec} (hroom : a.TakesType spec) :
    ∃ r, a.encodeType spec = .ok r := by
  have hfits : a.atoms.Fits
      ([] ++ spec.initial.toList.map Prod.fst ++ spec.goal.toList.map Prod.fst) := by
    rw [AtomTable.Fits, List.nil_append, Std.ExtTreeMap.map_fst_toList_eq_keys,
      Std.ExtTreeMap.map_fst_toList_eq_keys, ← List.append_assoc]
    exact hroom
  obtain ⟨initial, t₁, hrun₁, h₁⟩ := h.registered_nil.exists_encodeRegistering hfits.left
  obtain ⟨goal, t₂, hrun₂, -⟩ := h₁.exists_encodeRegistering hfits
  refine ⟨(initial, goal, t₂), ?_⟩
  simp only [atoms] at hrun₁
  simp only [encodeType, hrun₁, hrun₂]
  rfl

/-- **Where a type is encoded**, there was room, and the states stand for its maps. -/
theorem of_encodeType (h : a.atoms.Valid) {spec : EntityTypeSpec} {initial goal : WorldState}
    {t : AtomTable} (hencode : a.encodeType spec = .ok (initial, goal, t)) :
    a.TakesType spec ∧ t.Extends a.atoms ∧ t.toMap initial = spec.initial ∧
      t.toMap goal = spec.goal := by
  rw [encodeType] at hencode
  obtain ⟨initial, hinitial, hencode⟩ := bind_eq_ok_iff.mp hencode
  obtain ⟨goal, hgoal, hencode⟩ := bind_eq_ok_iff.mp hencode
  obtain ⟨rfl, hrest⟩ := Prod.mk.inj (Except.ok.inj hencode)
  obtain ⟨rfl, rfl⟩ := Prod.mk.inj hrest
  obtain ⟨h₁, -, hmap₁⟩ := h.registered_nil.of_encodeRegistering (Prod.ext hinitial rfl)
  obtain ⟨h₂, hext₂, hmap₂⟩ := h₁.of_encodeRegistering (Prod.ext hgoal rfl)
  refine ⟨?_, h₂.toExtends, ?_, ?_⟩
  · have hfits := h₂.fits
    rw [AtomTable.Fits, List.nil_append, Std.ExtTreeMap.map_fst_toList_eq_keys,
      Std.ExtTreeMap.map_fst_toList_eq_keys, ← List.append_assoc] at hfits
    exact hfits
  · exact (hmap₁ _ h₂.sound hext₂).trans (SortedMap.ofList_toList _)
  · exact (hmap₂ _ h₂.sound (.refl _)).trans (SortedMap.ofList_toList _)

/-! ## the atoms of an agent that came about by its own operations -/

theorem valid_loadActions (h : a.atoms.Valid) (specs : List ActionSpec) :
    (a.loadActions specs).2.atoms.Valid := by
  rw [loadActions]
  split
  · exact h
  · next hbuild => exact (of_buildPlanner h hbuild).2.1

theorem valid_loadWorldState (h : a.atoms.Valid) (spec : EntityTypeSpec) :
    (a.loadWorldState spec).2.atoms.Valid := by
  rw [loadWorldState]
  split
  · exact h
  · next hencode => exact (of_encodeType h hencode).2.1.valid h

theorem valid_loadDefinition (h : a.atoms.Valid) : a.loadDefinition.2.atoms.Valid := by
  rw [loadDefinition]
  split
  · exact h
  · have hactions := valid_loadActions h a.definition.data.actions
    split
    · next hload =>
        rw [hload] at hactions
        exact hactions
    · next hload =>
        rw [hload] at hactions
        exact valid_loadWorldState hactions _

/-- **The atoms of every agent** are a valid table. -/
theorem Reachable.valid_atoms (h : a.Reachable) : a.atoms.Valid := by
  induction h using Reachable.inductOn with
  | ofDefinition entityType definition config => exact AtomTable.valid_ofCap _ _
  | loadDefinition _ ih => exact valid_loadDefinition ih
  | loadActions _ specs ih => exact valid_loadActions ih specs
  | loadWorldState _ spec ih => exact valid_loadWorldState ih spec
  | write _ w ih => exact (continues_write _ w).atoms.valid ih
  | @after t _ _ call ih => exact (t.continues_after call).atoms.valid ih

/-! ## whole loads -/

/-- Actions have been loaded into an agent: its states say the same by name, what was planned is
dropped, and nothing else has changed. -/
structure LoadsActions (b a : Agent W M) (specs : List ActionSpec) : Prop where
  current : b.atoms.toMap b.current = a.atoms.toMap a.current
  cached : b.atoms.toMap b.cached = a.atoms.toMap a.cached
  planStart : b.atoms.toMap b.planStart = a.atoms.toMap a.planStart
  goal : b.atoms.toMap b.goal = a.atoms.toMap a.goal
  config : b.planner.config = a.planner.config
  rest : b =
    { a with
      planner := b.planner
      definition.data.actions := specs
      current := b.current
      cached := b.cached
      planStart := b.planStart
      goal := b.goal
      queue := []
      plan := .notFound a.planner.maxPlanLen
      actionIndex := 0
      retries := 0
      dirty := true
      actionsetVersion := a.actionsetVersion + 1 }

/-- The state and the goal of an entity type have been loaded into an agent: its states say what the
type says, every atom keeps its number, and nothing else has changed. -/
structure LoadsType (b a : Agent W M) (spec : EntityTypeSpec) : Prop where
  current : b.atoms.toMap b.current = spec.initial
  cached : b.atoms.toMap b.cached = spec.initial
  planStart : b.atoms.toMap b.planStart = spec.initial
  goal : b.atoms.toMap b.goal = spec.goal
  index : ∀ name i, a.atoms.index? name = some i → b.atoms.index? name = some i
  rest : b =
    { a.withAtoms b.atoms with
      current := b.current
      cached := b.cached
      planStart := b.planStart
      goal := b.goal
      atomSchemaVersion := a.atomSchemaVersion + 1 }

/-- **Loading actions** goes through exactly where there is room for them. -/
theorem loadActions_cases (h : a.atoms.Valid) (specs : List ActionSpec) :
    (a.TakesActions specs ∧ (a.loadActions specs).1 = .ok () ∧
      (a.loadActions specs).2.LoadsActions a specs) ∨
    ¬ a.TakesActions specs ∧ (∃ e, (a.loadActions specs).1 = .error e) ∧
      (a.loadActions specs).2 = { a with dirty := true } := by
  cases hbuild : a.buildPlanner specs with
  | ok r =>
      obtain ⟨planner, states⟩ := r
      obtain ⟨hroom, -, hconfig, hcurrent, hcached, hplanStart, hgoal⟩ := of_buildPlanner h hbuild
      have hlen : planner.maxPlanLen = a.planner.maxPlanLen := by
        rw [Planner.maxPlanLen, hconfig, ← Planner.maxPlanLen]
      rw [loadActions, hbuild]
      refine .inl ⟨hroom, rfl, hcurrent, hcached, hplanStart, hgoal, hconfig, ?_⟩
      rw [← hlen]
  | error e =>
      refine .inr ⟨fun hroom => ?_, ?_⟩
      · obtain ⟨r, hr⟩ := exists_buildPlanner h hroom
        cases hr.symm.trans hbuild
      · rw [loadActions, hbuild]
        exact ⟨⟨e, rfl⟩, rfl⟩

/-- **Loading a type** goes through exactly where there is room for it. -/
theorem loadWorldState_cases (h : a.atoms.Valid) (spec : EntityTypeSpec) :
    (a.TakesType spec ∧ (a.loadWorldState spec).1 = .ok () ∧
      (a.loadWorldState spec).2.LoadsType a spec) ∨
    ¬ a.TakesType spec ∧ (∃ e, (a.loadWorldState spec).1 = .error e) ∧
      (a.loadWorldState spec).2 = { a with dirty := true } := by
  cases hencode : a.encodeType spec with
  | ok r =>
      obtain ⟨initial, goal, t⟩ := r
      obtain ⟨hroom, hext, hinitial, hgoal⟩ := of_encodeType h hencode
      rw [loadWorldState, hencode]
      exact .inl ⟨hroom, rfl, hinitial, hinitial, hinitial, hgoal, fun _ _ => hext.index?, rfl⟩
  | error e =>
      refine .inr ⟨fun hroom => ?_, ?_⟩
      · obtain ⟨r, hr⟩ := exists_encodeType h hroom
        cases hr.symm.trans hencode
      · rw [loadWorldState, hencode]
        exact ⟨⟨e, rfl⟩, rfl⟩

/-- **Loading is all or nothing.**  A load goes through exactly where there is room for all that it
brings, and every state keeps its meaning or takes on the one that has been loaded; any other load
leaves its dirty mark and nothing else. -/
theorem Reachable.loads_all_or_nothing (h : a.Reachable) :
    (∀ specs : List ActionSpec,
      ((a.loadActions specs).1 = .ok () ↔ a.TakesActions specs) ∧
      ((a.loadActions specs).1 = .ok () → (a.loadActions specs).2.LoadsActions a specs) ∧
      ((a.loadActions specs).1 ≠ .ok () → (a.loadActions specs).2 = { a with dirty := true })) ∧
    ∀ spec : EntityTypeSpec,
      ((a.loadWorldState spec).1 = .ok () ↔ a.TakesType spec) ∧
      ((a.loadWorldState spec).1 = .ok () → (a.loadWorldState spec).2.LoadsType a spec) ∧
      ((a.loadWorldState spec).1 ≠ .ok () →
        (a.loadWorldState spec).2 = { a with dirty := true }) := by
  constructor
  · intro specs
    obtain ⟨hroom, hok, hloads⟩ | ⟨hfull, ⟨e, herror⟩, hdirty⟩ :=
      loadActions_cases h.valid_atoms specs
    · exact ⟨iff_of_true hok hroom, fun _ => hloads, fun hne => absurd hok hne⟩
    · have hne : (a.loadActions specs).1 ≠ .ok () := by
        rw [herror]
        simp
      exact ⟨iff_of_false hne hfull, fun hok => absurd hok hne, fun _ => hdirty⟩
  · intro spec
    obtain ⟨hroom, hok, hloads⟩ | ⟨hfull, ⟨e, herror⟩, hdirty⟩ :=
      loadWorldState_cases h.valid_atoms spec
    · exact ⟨iff_of_true hok hroom, fun _ => hloads, fun hne => absurd hok hne⟩
    · have hne : (a.loadWorldState spec).1 ≠ .ok () := by
        rw [herror]
        simp
      exact ⟨iff_of_false hne hfull, fun hok => absurd hok hne, fun _ => hdirty⟩

/-- The traveller can be given the same actions again, amid the work, but not one action too
many. -/
theorem loads_travellerAtWork :
    travellerAtWork.Reachable ∧
      (travellerAtWork.loadActions Planner.riverSpecs).2.LoadsActions travellerAtWork
        Planner.riverSpecs ∧
      (travellerAtWork.loadActions
          ((List.range 65).map fun i => ({ name := toString i } : ActionSpec))).2 =
        { travellerAtWork with dirty := true } := by
  have hloads := reachable_travellerAtWork.loads_all_or_nothing.1
  exact ⟨reachable_travellerAtWork, (hloads _).2.1 (by decide +kernel),
    (hloads _).2.2 (by decide +kernel)⟩

end Agent

end PlanningAgents
