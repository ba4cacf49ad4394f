import PlanningAgents.Proofs.Planner.Merging
import PlanningAgents.Proofs.Planner.Renumbering

/-!
# PlanningAgents.Proofs.Planner.Encoding

What a fresh planner holds once authored actions have been added to it.  Names come in the order in
which they are first mentioned: those of actions in the order of the list, those of atoms in the
order of conditions and effects, action by action (`Planner.Mentions`).  An action costs what the
last one of its name costs (`Planner.Prices`), and what it demands and brings about is the sum of
what all actions of its name do (`Planner.Tells`).

Together this says by name what the planner holds (`Planner.Encodes`).  It stays true of every table
that goes on from the one that was built, so planners of the same actions plan alike.

Main statements:

* `Planner.mentions_addSpecs` — authored actions mention their names and atoms in order;
* `Planner.Prices.addSpecs` — the last authored action of a name decides its cost;
* `Planner.addSpecs_encodes` — authored actions are added exactly where there is room for them, and
  the planner then holds what they say;
* `Planner.Encodes.saysAlike` — planners of the same actions have the same actions by name.
-/

namespace PlanningAgents

/-! ## first mentions -/

/-- Nothing new is mentioned by names that were mentioned before. -/
theorem eraseDups_append_of_subset {xs ys : List String} (h : ys ⊆ xs) :
    (xs ++ ys).eraseDups = xs.eraseDups := by
  have hnone : ys.removeAll xs = [] := by
    rw [List.removeAll, List.filter_eq_nil_iff]
    intro y hy
    simpa using h hy
  rw [List.eraseDups_append, hnone, List.eraseDups_nil, List.append_nil]

/-- A new name comes last. -/
theorem eraseDups_concat_of_not_mem {xs : List String} {y : String} (h : y ∉ xs) :
    (xs ++ [y]).eraseDups = xs.eraseDups ++ [y] := by
  have hall : [y].removeAll xs = [y] := by
    rw [List.removeAll, List.filter_eq_self]
    intro z hz
    obtain rfl := List.mem_singleton.mp hz
    simpa using h
  rw [List.eraseDups_append, hall]
  rfl

namespace Planner

variable {α β : Type} {p q : Planner} {a : α} {action atom : String} {value : Bool}
  {actions atoms names more : List String} {costs : String → Option UInt32}

/-- The actions and the atoms of a planner are those mentioned, in the order of their first
mention. -/
structure Lists (p : Planner) (actions atoms : List String) : Prop where
  actions : p.actions.map (·.name) = actions.eraseDups
  atoms : p.atoms.names = atoms.eraseDups

/-- An operation mentions actions and atoms, one after the other, where it succeeds. -/
def Mentions (x : Attempt Planner α) (actions atoms : List String) : Prop :=
  ∀ (p q : Planner) (a : α) (before before' : List String), p.Lists before before' →
    x.runOn p = (.ok a, q) → q.Lists (before ++ actions) (before' ++ atoms)

namespace Mentions

theorem pure (a : α) : Mentions (Pure.pure a) [] [] := by
  intro p q b before before' h hrun
  obtain ⟨-, rfl⟩ := Prod.mk.inj hrun
  rwa [List.append_nil, List.append_nil]

/-- What two steps mention, they mention one after the other. -/
theorem bind {x : Attempt Planner α} {f : α → Attempt Planner β} {actions' atoms' : List String}
    (hx : Mentions x actions atoms) (hf : ∀ a, Mentions (f a) actions' atoms') :
    Mentions (x >>= f) (actions ++ actions') (atoms ++ atoms') := by
  intro p q b before before' h hrun
  obtain ⟨a, r, hfirst, hrest⟩ := Attempt.runOn_bind_eq_ok_iff.mp hrun
  rw [← List.append_assoc, ← List.append_assoc]
  exact hf a r q b _ _ (hx p r a _ _ h hfirst) hrest

theorem forM {f : α → Attempt Planner PUnit} {names atoms : α → List String}
    (h : ∀ a, Mentions (f a) (names a) (atoms a)) (xs : List α) :
    Mentions (xs.forM f) (xs.flatMap names) (xs.flatMap atoms) := by
  induction xs with
  | nil => exact pure _
  | cons x xs ih => exact bind (h x) fun _ => ih

/-- Mentioning an action again makes no difference. -/
theorem again {x : Attempt Planner α} (h : Mentions x (names ++ more) atoms) (hsub : more ⊆ names) :
    Mentions x names atoms := by
  intro p q a before before' hp hrun
  have hq := h p q a before before' hp hrun
  refine ⟨?_, hq.atoms⟩
  rw [hq.actions, ← List.append_assoc]
  exact eraseDups_append_of_subset fun name hname => List.mem_append_right _ (hsub hname)

end Mentions

/-! ## the operations of a planner -/

theorem mentions_ensureAction (name : String) : Mentions (ensureAction name) [name] [] := by
  intro p q a before before' h hrun
  rw [List.append_nil]
  have hmem : name ∈ before ↔ (p.action? name).isSome = true := by
    rw [← List.mem_eraseDups, ← h.actions, action?, List.find?_isSome]
    simp
  simp only [ensureAction, Attempt.runOn_bind, Attempt.runOn_get] at hrun
  split at hrun
  · next hfound =>
      obtain ⟨-, rfl⟩ := Prod.mk.inj hrun
      refine ⟨?_, h.atoms⟩
      rw [eraseDups_append_of_subset (by simpa using hmem.mpr hfound)]
      exact h.actions
  · next hnew =>
      split at hrun
      · cases hrun
      · obtain ⟨-, rfl⟩ := Prod.mk.inj hrun
        refine ⟨?_, h.atoms⟩
        rw [eraseDups_concat_of_not_mem (fun hname => hnew (hmem.mp hname)), ← h.actions]
        exact List.map_append

theorem mentions_registerAtom (name : String) : Mentions (registerAtom name) [] [name] := by
  intro p q a before before' h hrun
  rw [List.append_nil]
  have hmem : name ∈ p.atoms.names ↔ name ∈ before' := by rw [h.atoms, List.mem_eraseDups]
  simp only [registerAtom, Attempt.runOn_bind, Attempt.runOn_get, Attempt.runOn_lift] at hrun
  cases hregister : p.atoms.register name with
  | error e =>
      rw [hregister] at hrun
      cases hrun
  | ok result =>
      obtain ⟨i, t⟩ := result
      rw [hregister] at hrun
      obtain ⟨-, rfl⟩ := Prod.mk.inj hrun
      refine ⟨h.actions, ?_⟩
      show t.names = _
      rw [AtomTable.register] at hregister
      split at hregister
      · next hindex =>
          obtain ⟨-, rfl⟩ := Prod.mk.inj (Except.ok.inj hregister)
          have hname := List.mem_of_getElem? (AtomTable.getElem?_of_index? hindex)
          rw [eraseDups_append_of_subset (by simpa using hmem.mp hname)]
          exact h.atoms
      · next hindex =>
          split at hregister
          · cases hregister
          · obtain ⟨-, rfl⟩ := Prod.mk.inj (Except.ok.inj hregister)
            have hnew := AtomTable.index?_eq_none_iff.mp hindex
            rw [eraseDups_concat_of_not_mem (fun hname => hnew (hmem.mpr hname)), ← h.atoms]

theorem mentions_modifyAction (name : String) {f : PlannerAction → PlannerAction}
    (hf : ∀ a, (f a).name = a.name) :
    Mentions (modify (·.modifyAction name f) : Attempt Planner Unit) [] [] := by
  intro p q a before before' h hrun
  obtain ⟨-, rfl⟩ := Prod.mk.inj hrun
  rw [List.append_nil, List.append_nil]
  exact ⟨(map_name_modifyAction p name hf).trans h.actions, h.atoms⟩

theorem mentions_setCost (action : String) (cost : UInt32) :
    Mentions (Planner.setCost action cost) [action] [] :=
  (mentions_ensureAction action).bind fun _ => mentions_modifyAction action fun _ => rfl

theorem mentions_setPre (action atom : String) (value : Bool) :
    Mentions (Planner.setPre action atom value) [action] [atom] :=
  (mentions_ensureAction action).bind fun _ =>
    (mentions_registerAtom atom).bind fun _ => mentions_modifyAction action fun _ => rfl

theorem mentions_setPost (action atom : String) (value : Bool) :
    Mentions (Planner.setPost action atom value) [action] [atom] :=
  (mentions_ensureAction action).bind fun _ =>
    (mentions_registerAtom atom).bind fun _ => mentions_modifyAction action fun _ => rfl

/-- An authored action mentions its name, then the atoms of its conditions and of its effects. -/
theorem mentions_addSpec (spec : ActionSpec) :
    Mentions (Planner.addSpec spec) [spec.name] spec.mentioned := by
  have hsteps := (mentions_setCost spec.name spec.cost).bind fun _ =>
    (Mentions.forM (fun a : String × Bool => mentions_setPre spec.name a.1 a.2)
      spec.pre.toList).bind fun _ =>
        Mentions.forM (fun a : String × Bool => mentions_setPost spec.name a.1 a.2)
          spec.post.toList
  rw [← List.map_eq_flatMap (f := Prod.fst), ← List.map_eq_flatMap (f := Prod.fst),
    Std.ExtTreeMap.map_fst_toList_eq_keys, Std.ExtTreeMap.map_fst_toList_eq_keys,
    List.nil_append] at hsteps
  refine hsteps.again fun name hname => ?_
  simp only [List.mem_append, List.mem_flatMap, List.mem_singleton] at hname ⊢
  obtain ⟨-, -, rfl⟩ | ⟨-, -, rfl⟩ := hname <;> rfl

/-- **Authored actions mention** their names in the order of the list, and their atoms action by
action. -/
theorem mentions_addSpecs (specs : List ActionSpec) :
    Mentions (Planner.addSpecs specs) (specs.map (·.name))
      (specs.flatMap ActionSpec.mentioned) := by
  have hwalk := Mentions.forM mentions_addSpec specs
  rw [← List.map_eq_flatMap] at hwalk
  exact hwalk

/-! ## costs -/

/-- By name, what the actions of a planner cost, where there is one. -/
def Prices (p : Planner) (costs : String → Option UInt32) : Prop :=
  ∀ name, (p.action? name).map (·.cost) = costs name

theorem Prices.setCost {cost : UInt32} (h : p.Prices costs)
    (hrun : (Planner.setCost action cost).runOn p = (.ok (), q)) :
    q.Prices fun name => if name = action then some cost else costs name := by
  obtain ⟨⟨⟩, r, hensure, hmodify⟩ := Attempt.runOn_bind_eq_ok_iff.mp hrun
  obtain ⟨-, rfl⟩ := Prod.mk.inj hmodify
  intro name
  refine (congrArg (Option.map (·.cost)) (action?_modifyAction r (f := ({ · with cost }))
    (fun _ => rfl) action name)).trans ?_
  by_cases hname : name = action
  · obtain ⟨a, ha⟩ := Option.isSome_iff_exists.mp (isSome_of_ensureAction hensure)
    simp [hname, ha, (action?_eq_some ha).2]
  · rw [action?_of_ensureAction hensure, if_neg hname, Option.or_none]
    refine Eq.trans ?_ ((h name).trans (if_neg hname).symm)
    cases hfound : p.action? name with
    | none => rfl
    | some a => simp [(action?_eq_some hfound).2, hname]

/-- What else is written to an action that there is leaves all costs as they are. -/
theorem keeps_prices {f : Nat → PlannerAction → PlannerAction}
    (hsome : (costs action).isSome = true) (hname : ∀ i a, (f i a).name = a.name)
    (hcost : ∀ i a, (f i a).cost = a.cost) :
    Attempt.Keeps (Prices · costs) (do
      Planner.ensureAction action
      let i ← Planner.registerAtom atom
      modify (·.modifyAction action (f i)) : Attempt Planner Unit) := by
  refine .bind (fun p h => ?_) fun _ => .bind (fun p h => ?_) fun i => .modify fun p h name => ?_
  · -- an action with a cost is there already
    rw [← h action, Option.isSome_map] at hsome
    simp only [Planner.ensureAction, Attempt.runOn_bind, Attempt.runOn_get, hsome, if_true]
    exact h
  · simp only [Planner.registerAtom, Attempt.runOn_bind, Attempt.runOn_get, Attempt.runOn_lift]
    cases p.atoms.register atom <;> exact h
  · rw [action?_modifyAction p (hname i), Option.map_map, ← h name]
    congr 1
    funext a
    simp only [Function.comp_apply]
    split
    · exact hcost i a
    · rfl

theorem keeps_prices_setPre (hsome : (costs action).isSome = true) (atom : String) (value : Bool) :
    Attempt.Keeps (Prices · costs) (Planner.setPre action atom value) :=
  keeps_prices (f := fun i a => { a with pre := a.pre.set i value }) hsome (fun _ _ => rfl)
    fun _ _ => rfl

theorem keeps_prices_setPost (hsome : (costs action).isSome = true) (atom : String)
    (value : Bool) : Attempt.Keeps (Prices · costs) (Planner.setPost action atom value) :=
  keeps_prices (f := fun i a => { a with post := a.post.set i value }) hsome (fun _ _ => rfl)
    fun _ _ => rfl

/-- An authored action decides the cost of its name. -/
theorem Prices.addSpec {spec : ActionSpec} (h : p.Prices costs)
    (hrun : (Planner.addSpec spec).runOn p = (.ok (), q)) :
    q.Prices fun name => if name = spec.name then some spec.cost else costs name := by
  obtain ⟨⟨⟩, r, hcost, hrest⟩ := Attempt.runOn_bind_eq_ok_iff.mp hrun
  have hset := h.setCost hcost
  -- its conditions and effects are written to an action that has its cost by now
  generalize hnew : (fun name => if name = spec.name then some spec.cost else costs name) = costs'
    at hset ⊢
  have hsome : (costs' spec.name).isSome = true := by simp [← hnew]
  have hkeeps := (Attempt.Keeps.forM (fun a : String × Bool =>
    keeps_prices_setPre hsome a.1 a.2) spec.pre.toList).bind fun _ =>
      Attempt.Keeps.forM (fun a : String × Bool =>
        keeps_prices_setPost hsome a.1 a.2) spec.post.toList
  have hq := hkeeps r hset
  rwa [hrest] at hq

/-- **The last authored action of a name** decides its cost. -/
theorem Prices.addSpecs {specs : List ActionSpec} (h : p.Prices costs)
    (hrun : (Planner.addSpecs specs).runOn p = (.ok (), q)) :
    q.Prices fun name =>
      ((specs.filter (·.name = name)).getLast?.map (·.cost)).or (costs name) := by
  induction specs generalizing p costs with
  | nil =>
      obtain ⟨-, rfl⟩ := Prod.mk.inj hrun
      exact h
  | cons spec rest ih =>
      obtain ⟨⟨⟩, r, hfirst, hrest⟩ := Attempt.runOn_bind_eq_ok_iff.mp hrun
      intro name
      rw [ih (h.addSpec hfirst) hrest name]
      by_cases hname : spec.name = name
      · cases hlast : (rest.filter (·.name = name)).getLast? <;>
          simp [hname, List.getLast?_cons, hlast]
      · simp [hname, Ne.symm hname]

/-! ## what a planner holds -/

/-- A planner has one action for each name of authored actions, which costs what the last of them
costs, and demands and brings about what all of them do. -/
structure Encodes (p : Planner) (specs : List ActionSpec) : Prop where
  names : p.actions.map (·.name) = (specs.map (·.name)).eraseDups
  cost : ∀ a ∈ p.actions,
    (specs.filter (·.name = a.name)).getLast?.map (·.cost) = some a.cost
  covers : ∀ a ∈ p.actions, p.atoms.Covers a.pre ∧ p.atoms.Covers a.post
  pre : ∀ a ∈ p.actions, p.atoms.toMap a.pre = ActionSpec.merge (·.pre) specs a.name
  post : ∀ a ∈ p.actions, p.atoms.toMap a.post = ActionSpec.merge (·.post) specs a.name

/-- What has been built of authored actions holds what they say. -/
theorem encodes_of_addSpecs {specs : List ActionSpec} {cap : Nat} {autoRegister : Bool}
    {config : PlannerConfig} (hrun : (Planner.addSpecs specs).runOn
      { atoms := .ofCap cap autoRegister, config } = (.ok (), p)) :
    p.Encodes specs ∧ p.atoms.names = (specs.flatMap ActionSpec.mentioned).eraseDups := by
  have hlists := mentions_addSpecs specs _ p () [] [] ⟨rfl, rfl⟩ hrun
  have hblank : Prices { atoms := .ofCap cap autoRegister, config } fun _ => none := fun _ => rfl
  have hprices := hblank.addSpecs hrun
  have htells := tells_addSpecs hrun
  have hfound {a : PlannerAction} (ha : a ∈ p.actions) : p.action? a.name = some a := by
    have hbuilt := (Built.empty (.ofCap cap autoRegister) config).addSpecs specs
    rw [hrun] at hbuilt
    exact hbuilt.action?_name ha
  refine ⟨⟨hlists.actions, fun a ha => ?_, htells.covers, fun a ha => ?_, fun a ha => ?_⟩,
    hlists.atoms⟩
  · have hcost := hprices a.name
    rw [hfound ha] at hcost
    exact (hcost.trans Option.or_none).symm
  · rw [← htells.pre, entries_of_action? (hfound ha)]
  · rw [← htells.post, entries_of_action? (hfound ha)]

/-- **Authored actions are encoded faithfully.**  A planner without actions and atoms takes them
exactly where there is room for their names and for the names of their atoms.  It then has one
action for each name, in the order of the first ones, with the cost of the last one, and with what
all of them say, the last of them deciding (`ActionSpec.getElem?_merge`).  Atoms are numbered as
they are first mentioned, those of the conditions of an action before those of its effects. -/
theorem addSpecs_encodes (specs : List ActionSpec) (cap : Nat) (autoRegister : Bool)
    (config : PlannerConfig) :
    let fresh : Planner := { atoms := .ofCap cap autoRegister, config }
    (((Planner.addSpecs specs).runOn fresh).1 = .ok () ↔
      (specs.map (·.name)).toFinset.card ≤ maxActions ∧
        (specs.flatMap ActionSpec.mentioned).toFinset.card ≤ fresh.atoms.cap) ∧
    ∀ p, (Planner.addSpecs specs).runOn fresh = (.ok (), p) →
      p.Encodes specs ∧ p.atoms.names = (specs.flatMap ActionSpec.mentioned).eraseDups := by
  refine ⟨?_, fun p hrun => encodes_of_addSpecs hrun⟩
  obtain ⟨hroom, done, q, hrun, -⟩ | ⟨hfull, e, herror⟩ :=
    needs_addSpecs specs _ (sound_blank cap autoRegister config)
  · rw [hrun]
    exact iff_of_true rfl hroom
  · rw [herror]
    exact iff_of_false nofun hfull

/-- Four atoms are enough to cross a river, and three are not. -/
theorem addSpecs_encodes_river :
    ((addSpecs riverSpecs).runOn { atoms := .ofCap 4 }).1 = .ok () ∧
      ((addSpecs riverSpecs).runOn { atoms := .ofCap 3 }).1 ≠ .ok () ∧
      river.Encodes riverSpecs := by
  refine ⟨(addSpecs_encodes riverSpecs 4 false {}).1.mpr (by decide +kernel), fun h => ?_, ?_⟩
  · exact absurd ((addSpecs_encodes riverSpecs 3 false {}).1.mp h) (by decide +kernel)
  · exact ((addSpecs_encodes riverSpecs maxAtoms false {}).2 river (by decide +kernel)).1

/-! ## other tables -/

/-- In a table that goes on from the one of a planner its actions say the same. -/
theorem Encodes.extends {specs : List ActionSpec} (h : p.Encodes specs) (hvalid : p.atoms.Valid)
    (hactions : q.actions = p.actions) (hext : q.atoms.Extends p.atoms) : q.Encodes specs := by
  refine ⟨hactions ▸ h.names, hactions ▸ h.cost, ?_, ?_, ?_⟩ <;> rw [hactions] <;> intro a ha
  · exact ⟨(h.covers a ha).1.extends hext, (h.covers a ha).2.extends hext⟩
  · exact ((h.covers a ha).1.toMap_eq hvalid hext).trans (h.pre a ha)
  · exact ((h.covers a ha).2.toMap_eq hvalid hext).trans (h.post a ha)

/-- **Planners of the same authored actions** have the same actions by name, whatever atoms have
been registered before and since. -/
theorem Encodes.saysAlike {specs : List ActionSpec} (h : p.Encodes specs) (h' : q.Encodes specs)
    (hvalid : p.atoms.Valid) (hvalid' : q.atoms.Valid)
    (hbudget : q.config.maxExpansions = p.config.maxExpansions) : p.SaysAlike q := by
  have hnames : q.actions.map (·.name) = p.actions.map (·.name) := h'.names.trans h.names.symm
  have hlength : p.actions.length = q.actions.length := by
    rw [← List.length_map (f := (·.name)), ← hnames, List.length_map]
  refine ⟨hvalid, hvalid', List.forall₂_iff_get.mpr ⟨hlength, fun i hi hi' => ?_⟩, hbudget⟩
  have ha : p.actions.get ⟨i, hi⟩ ∈ p.actions := List.get_mem _ _
  have ha' : q.actions.get ⟨i, hi'⟩ ∈ q.actions := List.get_mem _ _
  have hname : (q.actions.get ⟨i, hi'⟩).name = (p.actions.get ⟨i, hi⟩).name := by
    simpa [hi, hi'] using congrArg (·[i]?) hnames
  refine ⟨hname, ?_, ⟨(h.covers _ ha).1, (h'.covers _ ha').1, ?_⟩,
    ⟨(h.covers _ ha).2, (h'.covers _ ha').2, ?_⟩⟩
  · have hcost := h'.cost _ ha'
    rw [hname, h.cost _ ha] at hcost
    exact (Option.some.inj hcost).symm
  · rw [h'.pre _ ha', h.pre _ ha, hname]
  · rw [h'.post _ ha', h.post _ ha, hname]

end Planner

end PlanningAgents
