import PlanningAgents.Proofs.Atoms.Covering
import PlanningAgents.Proofs.Planner.Loading

/-!
# PlanningAgents.Proofs.Planner.Merging

What a planner makes of authored actions.  Actions of one name add up to one action of the planner:
by name, its preconditions are those of all of them, and so are its effects, the last one deciding
where several speak of the same atom (`ActionSpec.merge`).

Main statements:

* `ActionSpec.mem_merge` — an atom is mentioned by the sum if it is by one of the actions;
* `ActionSpec.getElem?_merge` — the last of those that mention it decides;
* `Planner.Tells` — by name, what the actions of a planner demand and bring about;
* `Planner.tells_addSpecs` — a planner of authored actions tells their sums.
-/

namespace PlanningAgents

/-! ## sums of authored actions -/

namespace ActionSpec

/-- The entries of all actions of one name, the last of them deciding. -/
def merge (part : ActionSpec → AtomMap) (specs : List ActionSpec) (name : String) : AtomMap :=
  (specs.filter (·.name = name)).foldl (fun m spec => m.insertMany (part spec).toList) ∅

theorem mem_foldl_insertMany (part : ActionSpec → AtomMap) (specs : List ActionSpec) (m : AtomMap)
    (atom : String) :
    atom ∈ specs.foldl (fun m spec => m.insertMany (part spec).toList) m ↔
      atom ∈ m ∨ ∃ spec ∈ specs, atom ∈ part spec := by
  induction specs generalizing m with
  | nil => simp
  | cons spec rest ih =>
      have hmem : atom ∈ m.insertMany (part spec).toList ↔ atom ∈ m ∨ atom ∈ part spec := by
        rw [Std.ExtTreeMap.mem_insertMany_list, List.contains_iff_mem,
          Std.ExtTreeMap.map_fst_toList_eq_keys, Std.ExtTreeMap.mem_keys]
      rw [List.foldl_cons, ih, hmem]
      simp [or_assoc]

/-- **The sum mentions an atom** if one of the actions does. -/
theorem mem_merge (part : ActionSpec → AtomMap) (specs : List ActionSpec) (name atom : String) :
    atom ∈ merge part specs name ↔ ∃ spec ∈ specs, spec.name = name ∧ atom ∈ part spec := by
  rw [merge, mem_foldl_insertMany]
  simp [and_assoc]

theorem getElem?_foldl_insertMany (part : ActionSpec → AtomMap) (specs : List ActionSpec)
    (m : AtomMap) (atom : String) :
    (specs.foldl (fun m spec => m.insertMany (part spec).toList) m)[atom]? =
      (specs.reverse.findSome? fun spec => (part spec)[atom]?).or m[atom]? := by
  induction specs generalizing m with
  | nil => rfl
  | cons spec rest ih =>
      have hinsert : (m.insertMany (part spec).toList)[atom]? = (part spec)[atom]?.or m[atom]? := by
        cases hatom : (part spec)[atom]? with
        | none =>
            rw [Std.ExtTreeMap.getElem?_insertMany_list_of_contains_eq_false (by simpa using hatom)]
            rfl
        | some value =>
            exact Std.ExtTreeMap.getElem?_insertMany_list_of_mem Std.ReflCmp.compare_self
              Std.ExtTreeMap.distinct_keys_toList (by simpa using hatom)
      rw [List.foldl_cons, ih, hinsert, List.reverse_cons, List.findSome?_append,
        List.findSome?_singleton, Option.or_assoc]

/-- **The last action decides**, of those of the name that mention an atom. -/
theorem getElem?_merge (part : ActionSpec → AtomMap) (specs : List ActionSpec)
    (name atom : String) : (merge part specs name)[atom]? =
      (specs.filter (·.name = name)).reverse.findSome? fun spec => (part spec)[atom]? := by
  rw [merge, getElem?_foldl_insertMany, Std.ExtTreeMap.getElem?_empty, Option.or_none]

end ActionSpec

namespace Planner

variable {α : Type} {p q : Planner} {pre post : String → AtomMap} {action atom : String}
  {value : Bool}

/-! ## what actions tell by name -/

/-- What the action with a name says, or nothing if there is none. -/
def entries (p : Planner) (part : PlannerAction → WorldState) (name : String) : AtomMap :=
  p.atoms.toMap (((p.action? name).map part).getD .empty)

/-- By name, the preconditions of the actions are these, and so are their effects. -/
structure Tells (p : Planner) (pre post : String → AtomMap) : Prop where
  sound : p.Sound
  covers : ∀ a ∈ p.actions, p.atoms.Covers a.pre ∧ p.atoms.Covers a.post
  pre : ∀ name, p.entries (·.pre) name = pre name
  post : ∀ name, p.entries (·.post) name = post name

/-- A planner without actions tells nothing. -/
theorem tells_blank (cap : Nat) (autoRegister : Bool) (config : PlannerConfig) :
    Tells { atoms := .ofCap cap autoRegister, config } (fun _ => ∅) fun _ => ∅ where
  sound := sound_blank cap autoRegister config
  covers := nofun
  pre _ := (AtomTable.valid_ofCap cap autoRegister).toMap_empty
  post _ := (AtomTable.valid_ofCap cap autoRegister).toMap_empty

/-- What is found under a name is said of it. -/
theorem entries_of_action? {part : PlannerAction → WorldState} {name : String} {a : PlannerAction}
    (h : p.action? name = some a) : p.entries part name = p.atoms.toMap (part a) := by
  rw [entries, h]
  rfl

/-! ## the operations of a planner -/

/-- An operation that succeeds on a planner that is sound leaves one that is. -/
theorem Sound.of_needs {x : Attempt Planner α} {actions atoms : List String} {a : α} (h : p.Sound)
    (hneeds : Needs x actions atoms) (hrun : x.runOn p = (.ok a, q)) :
    q.Enlarged p actions atoms := by
  obtain ⟨-, b, r, hrun', henlarged⟩ | ⟨-, e, herror⟩ := hneeds p h
  · obtain rfl : q = r := congrArg Prod.snd (hrun.symm.trans hrun')
    exact henlarged
  · rw [hrun] at herror
    cases herror

/-- Making sure of an action adds one that says nothing, where there is none of the name. -/
theorem action?_of_ensureAction (hrun : (Planner.ensureAction action).runOn p = (.ok (), q))
    (name : String) : q.action? name =
      (p.action? name).or (if name = action then some { name := action } else none) := by
  simp only [Planner.ensureAction, Attempt.runOn_bind, Attempt.runOn_get] at hrun
  split at hrun
  · next hfound =>
      obtain ⟨-, rfl⟩ := Prod.mk.inj hrun
      by_cases hname : name = action
      · rw [hname, Option.or_of_isSome hfound]
      · rw [if_neg hname, Option.or_none]
  · split at hrun
    · cases hrun
    · obtain ⟨-, rfl⟩ := Prod.mk.inj hrun
      simp [action?, List.find?_append, eq_comm]

theorem isSome_of_ensureAction (hrun : (Planner.ensureAction action).runOn p = (.ok (), q)) :
    (q.action? action).isSome = true := by
  rw [action?_of_ensureAction hrun, if_pos rfl, Option.isSome_or, Option.isSome_some, Bool.or_true]

/-- Changing the action of a name changes what is found under it. -/
theorem action?_modifyAction (p : Planner) {f : PlannerAction → PlannerAction}
    (hname : ∀ a, (f a).name = a.name) (action name : String) :
    (p.modifyAction action f).action? name =
      (p.action? name).map fun a => if a.name = action then f a else a := by
  have hsame : ((fun a : PlannerAction => decide (a.name = name)) ∘
      fun a => if a.name = action then f a else a) = fun a => decide (a.name = name) := by
    funext a
    simp only [Function.comp_apply]
    split
    · rw [hname]
    · rfl
  rw [action?, action?, Planner.modifyAction, List.find?_map, hsame]

/-- Making sure of an action changes nothing that is told. -/
theorem Tells.ensureAction (h : p.Tells pre post)
    (hrun : (Planner.ensureAction action).runOn p = (.ok (), q)) :
    q.Tells pre post ∧ (q.action? action).isSome = true := by
  have hsound := (h.sound.of_needs (needs_ensureAction action) hrun).sound
  have hfind := action?_of_ensureAction hrun
  refine ⟨?_, isSome_of_ensureAction hrun⟩
  simp only [Planner.ensureAction, Attempt.runOn_bind, Attempt.runOn_get] at hrun
  split at hrun
  · obtain ⟨-, rfl⟩ := Prod.mk.inj hrun
    exact h
  · split at hrun
    · cases hrun
    · obtain ⟨-, rfl⟩ := Prod.mk.inj hrun
      -- the new action has neither preconditions nor effects, as nothing has been told of it
      have hentries (part : PlannerAction → WorldState) (hpart : part { name := action } = .empty)
          (name : String) : entries { p with actions := p.actions ++ [{ name := action }] }
            part name = p.entries part name := by
        rw [entries, entries, hfind]
        cases p.action? name with
        | some a => rfl
        | none =>
            by_cases hname : name = action
            · simp [hname, hpart]
            · simp [hname]
      refine ⟨hsound, ?_, fun name => ?_, fun name => ?_⟩
      · intro a ha
        obtain ha | ha := List.mem_append.mp ha
        · exact h.covers a ha
        · obtain rfl := List.mem_singleton.mp ha
          exact ⟨p.atoms.covers_empty, p.atoms.covers_empty⟩
      · exact (hentries _ rfl name).trans (h.pre name)
      · exact (hentries _ rfl name).trans (h.post name)

/-- Nor does registering an atom. -/
theorem Tells.registerAtom {i : Nat} (h : p.Tells pre post)
    (hrun : (Planner.registerAtom atom).runOn p = (.ok i, q)) :
    q.Tells pre post ∧ q.actions = p.actions ∧ q.atoms.names[i]? = some atom := by
  have hsound := (h.sound.of_needs (needs_registerAtom atom) hrun).sound
  simp only [Planner.registerAtom, Attempt.runOn_bind, Attempt.runOn_get, Attempt.runOn_lift]
    at hrun
  cases hregister : p.atoms.register atom with
  | error e =>
      rw [hregister] at hrun
      cases hrun
  | ok result =>
      obtain ⟨j, atoms⟩ := result
      rw [hregister] at hrun
      obtain ⟨hi, rfl⟩ := Prod.mk.inj hrun
      obtain rfl := Except.ok.inj hi
      have hext := AtomTable.extends_register hregister
      have hentries (part : PlannerAction → WorldState)
          (hcovers : ∀ a ∈ p.actions, p.atoms.Covers (part a)) (name : String) :
          entries { p with atoms } part name = p.entries part name := by
        have hcovered : p.atoms.Covers (((p.action? name).map part).getD .empty) := by
          cases hfound : p.action? name with
          | none => exact p.atoms.covers_empty
          | some a => exact hcovers a (action?_eq_some hfound).1
        exact hcovered.toMap_eq h.sound.atoms hext
      refine ⟨⟨hsound, fun a ha => ?_, fun name => ?_, fun name => ?_⟩, rfl,
        AtomTable.names_of_register hregister⟩
      · exact ⟨(h.covers a ha).1.extends hext, (h.covers a ha).2.extends hext⟩
      · exact (hentries _ (fun a ha => (h.covers a ha).1) name).trans (h.pre name)
      · exact (hentries _ (fun a ha => (h.covers a ha).2) name).trans (h.post name)

/-- Changing an action changes what is told of it. -/
theorem Tells.modifyAction (h : p.Tells pre post) (hsome : (p.action? action).isSome = true)
    {f : PlannerAction → PlannerAction} {g k : AtomMap → AtomMap}
    (hname : ∀ a, (f a).name = a.name)
    (hpre : ∀ a ∈ p.actions, p.atoms.Covers (f a).pre ∧
      p.atoms.toMap (f a).pre = g (p.atoms.toMap a.pre))
    (hpost : ∀ a ∈ p.actions, p.atoms.Covers (f a).post ∧
      p.atoms.toMap (f a).post = k (p.atoms.toMap a.post)) :
    (p.modifyAction action f).Tells (fun name => if name = action then g (pre name) else pre name)
      (fun name => if name = action then k (post name) else post name) := by
  have hsound := (h.sound.of_needs (needs_modifyAction action hname) rfl).sound
  have hfind := action?_modifyAction p hname action
  have hentries (part : PlannerAction → WorldState) (g : AtomMap → AtomMap)
      (hpart : ∀ a ∈ p.actions, p.atoms.toMap (part (f a)) = g (p.atoms.toMap (part a)))
      (name : String) : (p.modifyAction action f).entries part name =
        if name = action then g (p.entries part name) else p.entries part name := by
    cases hfound : p.action? name with
    | none =>
        have hne : name ≠ action := by
          rintro rfl
          rw [hfound] at hsome
          cases hsome
        rw [if_neg hne, entries, entries, hfind, hfound]
        rfl
    | some a =>
        obtain ⟨hmem, rfl⟩ := action?_eq_some hfound
        have hatoms : (p.modifyAction action f).atoms = p.atoms := rfl
        rw [entries_of_action? hfound, entries, hfind, hfound, hatoms]
        by_cases haction : a.name = action
        · simpa [haction] using hpart a hmem
        · simp [haction]
  refine ⟨hsound, ?_, fun name => ?_, fun name => ?_⟩
  · intro a ha
    obtain ⟨b, hb, rfl⟩ := List.mem_map.mp ha
    split
    · exact ⟨(hpre b hb).1, (hpost b hb).1⟩
    · exact h.covers b hb
  · rw [hentries _ g (fun a ha => (hpre a ha).2), h.pre]
  · rw [hentries _ k (fun a ha => (hpost a ha).2), h.post]

/-- Setting a cost changes nothing that is told. -/
theorem Tells.setCost {cost : UInt32} (h : p.Tells pre post)
    (hrun : (Planner.setCost action cost).runOn p = (.ok (), q)) : q.Tells pre post := by
  obtain ⟨⟨⟩, r, hensure, hmodify⟩ := Attempt.runOn_bind_eq_ok_iff.mp hrun
  obtain ⟨hr, hsome⟩ := h.ensureAction hensure
  obtain ⟨-, rfl⟩ := Prod.mk.inj hmodify
  have hmodified := hr.modifyAction (g := id) (k := id) hsome
    (f := ({ · with cost })) (fun _ => rfl) (fun a ha => ⟨(hr.covers a ha).1, rfl⟩)
    (fun a ha => ⟨(hr.covers a ha).2, rfl⟩)
  simpa using hmodified

/-- An atom is registered for an action before it is written there. -/
theorem Tells.prepare {f : Nat → PlannerAction → PlannerAction} (h : p.Tells pre post)
    (hrun : (do
      Planner.ensureAction action
      let i ← Planner.registerAtom atom
      modify (·.modifyAction action (f i)) : Attempt Planner Unit).runOn p = (.ok (), q)) :
    ∃ (r : Planner) (i : Nat), r.Tells pre post ∧ (r.action? action).isSome = true ∧
      i < r.atoms.names.length ∧ r.atoms.index? atom = some i ∧
      q = r.modifyAction action (f i) := by
  obtain ⟨⟨⟩, s, hensure, hrest⟩ := Attempt.runOn_bind_eq_ok_iff.mp hrun
  obtain ⟨i, r, hregister, hmodify⟩ := Attempt.runOn_bind_eq_ok_iff.mp hrest
  obtain ⟨hs, hsome⟩ := h.ensureAction hensure
  obtain ⟨hr, hactions, hi⟩ := hs.registerAtom hregister
  obtain ⟨-, rfl⟩ := Prod.mk.inj hmodify
  refine ⟨r, i, hr, ?_, (List.getElem?_eq_some_iff.mp hi).1,
    hr.sound.atoms.index?_eq_some_iff.mpr hi, rfl⟩
  rwa [action?, hactions]

/-- Adding a precondition adds its entry. -/
theorem Tells.setPre (h : p.Tells pre post)
    (hrun : (Planner.setPre action atom value).runOn p = (.ok (), q)) :
    q.Tells (fun name => if name = action then (pre name).insert atom value else pre name)
      post := by
  obtain ⟨r, i, hr, hsome, hi, hindex, rfl⟩ := h.prepare hrun
  have hvalid := hr.sound.atoms
  have hmodified := hr.modifyAction (g := (·.insert atom value)) (k := id) hsome
    (f := fun a => { a with pre := a.pre.set i value }) (fun _ => rfl)
    (fun a ha => ⟨(hr.covers a ha).1.set hvalid hi value, hvalid.toMap_set a.pre hindex value⟩)
    (fun a ha => ⟨(hr.covers a ha).2, rfl⟩)
  simpa using hmodified

/-- Adding an effect adds its entry. -/
theorem Tells.setPost (h : p.Tells pre post)
    (hrun : (Planner.setPost action atom value).runOn p = (.ok (), q)) :
    q.Tells pre
      (fun name => if name = action then (post name).insert atom value else post name) := by
  obtain ⟨r, i, hr, hsome, hi, hindex, rfl⟩ := h.prepare hrun
  have hvalid := hr.sound.atoms
  have hmodified := hr.modifyAction (g := id) (k := (·.insert atom value)) hsome
    (f := fun a => { a with post := a.post.set i value }) (fun _ => rfl)
    (fun a ha => ⟨(hr.covers a ha).1, rfl⟩)
    (fun a ha => ⟨(hr.covers a ha).2.set hvalid hi value, hvalid.toMap_set a.post hindex value⟩)
  simpa using hmodified

/-! ## authored actions -/

/-- Where every step adds an entry, a walk over entries adds all of them. -/
theorem forM_insert {T : Planner → (String → AtomMap) → Prop}
    {f : String × Bool → Attempt Planner PUnit}
    (hstep : ∀ {p q : Planner} {m : String → AtomMap} {a : String × Bool}, T p m →
      (f a).runOn p = (.ok (), q) →
        T q fun name => if name = action then (m name).insert a.1 a.2 else m name)
    {pairs : List (String × Bool)} {m : String → AtomMap} (h : T p m)
    (hrun : (pairs.forM f).runOn p = (.ok (), q)) :
    T q fun name => if name = action then (m name).insertMany pairs else m name := by
  induction pairs generalizing p m with
  | nil =>
      obtain ⟨-, rfl⟩ := Prod.mk.inj hrun
      simpa using h
  | cons pair rest ih =>
      obtain ⟨⟨⟩, r, hfirst, hrest⟩ := Attempt.runOn_bind_eq_ok_iff.mp hrun
      refine (congrArg (T q) ?_).mp (ih (hstep h hfirst) hrest)
      funext name
      split
      · rw [← Std.ExtTreeMap.insertMany_cons]
      · rfl

/-- **An authored action** adds its entries to what is told of its name. -/
theorem Tells.addSpec {spec : ActionSpec} (h : p.Tells pre post)
    (hrun : (Planner.addSpec spec).runOn p = (.ok (), q)) :
    q.Tells
      (fun name => if name = spec.name then (pre name).insertMany spec.pre.toList else pre name)
      (fun name => if name = spec.name then (post name).insertMany spec.post.toList
        else post name) := by
  obtain ⟨⟨⟩, r, hcost, hrest⟩ := Attempt.runOn_bind_eq_ok_iff.mp hrun
  obtain ⟨⟨⟩, s, hpre, hpost⟩ := Attempt.runOn_bind_eq_ok_iff.mp hrest
  have hs := forM_insert (T := fun p m => p.Tells m post) Tells.setPre (h.setCost hcost) hpre
  exact forM_insert (T := fun p m => p.Tells _ m) Tells.setPost hs hpost

theorem Tells.addSpecs {specs : List ActionSpec} (h : p.Tells pre post)
    (hrun : (Planner.addSpecs specs).runOn p = (.ok (), q)) :
    q.Tells
      (fun name => (specs.filter (·.name = name)).foldl
        (fun m spec => m.insertMany spec.pre.toList) (pre name))
      (fun name => (specs.filter (·.name = name)).foldl
        (fun m spec => m.insertMany spec.post.toList) (post name)) := by
  induction specs generalizing p pre post with
  | nil =>
      obtain ⟨-, rfl⟩ := Prod.mk.inj hrun
      exact h
  | cons spec rest ih =>
      obtain ⟨⟨⟩, r, hfirst, hrest⟩ := Attempt.runOn_bind_eq_ok_iff.mp hrun
      have hall := ih (h.addSpec hfirst) hrest
      refine (congrArg₂ q.Tells ?_ ?_).mp hall
      · funext name
        by_cases hname : spec.name = name
        · simp [hname]
        · simp [hname, Ne.symm hname]
      · funext name
        by_cases hname : spec.name = name
        · simp [hname]
        · simp [hname, Ne.symm hname]

/-- **A planner of authored actions** tells of each name the sum of the actions that have it. -/
theorem tells_addSpecs {specs : List ActionSpec} {cap : Nat} {autoRegister : Bool}
    {config : PlannerConfig} (hrun : (Planner.addSpecs specs).runOn
      { atoms := .ofCap cap autoRegister, config } = (.ok (), p)) :
    p.Tells (ActionSpec.merge (·.pre) specs) (ActionSpec.merge (·.post) specs) :=
  (tells_blank cap autoRegister config).addSpecs hrun

end Planner

end PlanningAgents
