import Mathlib.Data.Set.Card
import PlanningAgents.Planner.Basic
import PlanningAgents.Proofs.Attempt
import PlanningAgents.Proofs.Atoms.Distance

/-!
# PlanningAgents.Proofs.Planner.Execution

What it means to take the actions of a planner, apart from any search: an action is named, applies
where its preconditions hold, and leads to the state after its effects (`Planner.step?`).  A
sequence of names is executable from a state when each action applies in its turn; it leads to a
state (`Planner.after?`) through others (`Planner.Executes`), and it costs what its actions cost
together (`Planner.costOf`).

Names decide actions in every planner that its own operations have built (`Planner.Built`), since
these never register a second action of one name.

Main statements:

* `Planner.Built.nodup_names` — a built planner has one action of each name;
* `Planner.after?_append`, `Planner.costOf_append` — sequences are executed one after the other;
* `Planner.reachable_subset` — states that no action leaves are all that can be reached.
-/

namespace PlanningAgents

namespace Planner

/-! ## planners that their operations build -/

/-- A planner that was put together by its own operations, whether or not each of them succeeded. -/
inductive Built : Planner → Prop
  | empty (atoms : AtomTable) (config : PlannerConfig) : Built { atoms, config }
  | setCost {p : Planner} (h : Built p) (action : String) (cost : UInt32) :
      Built ((Planner.setCost action cost).runOn p).2
  | setPre {p : Planner} (h : Built p) (action atom : String) (value : Bool) :
      Built ((Planner.setPre action atom value).runOn p).2
  | setPost {p : Planner} (h : Built p) (action atom : String) (value : Bool) :
      Built ((Planner.setPost action atom value).runOn p).2
  | addSpecs {p : Planner} (h : Built p) (specs : List ActionSpec) :
      Built ((Planner.addSpecs specs).runOn p).2
  | withAtoms {p : Planner} (h : Built p) (atoms : AtomTable) : Built { p with atoms }
  | clear {p : Planner} (h : Built p) : Built p.clear

/-- No two actions have the same name. -/
def NamesDistinct (p : Planner) : Prop := (p.actions.map (·.name)).Nodup

/-- Changing an action otherwise than by name keeps the names. -/
theorem map_name_modifyAction (p : Planner) (name : String) {f : PlannerAction → PlannerAction}
    (hf : ∀ a, (f a).name = a.name) :
    (p.modifyAction name f).actions.map (·.name) = p.actions.map (·.name) := by
  rw [modifyAction, List.map_map]
  apply List.map_congr_left
  intro a _
  simp only [Function.comp_apply]
  split
  · exact hf a
  · rfl

theorem keeps_modifyAction (name : String) {f : PlannerAction → PlannerAction}
    (hf : ∀ a, (f a).name = a.name) :
    Attempt.Keeps NamesDistinct (modify (·.modifyAction name f) : Attempt Planner Unit) := by
  apply Attempt.Keeps.modify
  intro p hp
  rw [NamesDistinct, map_name_modifyAction p name hf]
  exact hp

/-- A name is registered only where it is new. -/
theorem keeps_ensureAction (name : String) :
    Attempt.Keeps NamesDistinct (ensureAction name) := by
  intro p hp
  simp only [ensureAction, Attempt.runOn_bind, Attempt.runOn_get]
  split
  · exact hp
  · next hnew =>
    split
    · exact hp
    · simp only [NamesDistinct, Attempt.runOn_set, List.map_append, List.map_cons, List.map_nil]
      refine List.Nodup.append hp (List.nodup_singleton _) ?_
      rw [List.disjoint_singleton]
      intro hmem
      obtain ⟨a, ha, hname⟩ := List.mem_map.mp hmem
      exact hnew (by rw [action?, List.find?_isSome]; exact ⟨a, ha, by simpa using hname⟩)

theorem keeps_registerAtom (name : String) :
    Attempt.Keeps NamesDistinct (registerAtom name) := by
  intro p hp
  simp only [registerAtom, Attempt.runOn_bind, Attempt.runOn_get, Attempt.runOn_lift]
  cases p.atoms.register name with
  | ok r => exact hp
  | error e => exact hp

theorem keeps_setCost (action : String) (cost : UInt32) :
    Attempt.Keeps NamesDistinct (Planner.setCost action cost) :=
  (keeps_ensureAction action).bind fun _ => keeps_modifyAction action fun _ => rfl

theorem keeps_setPre (action atom : String) (value : Bool) :
    Attempt.Keeps NamesDistinct (Planner.setPre action atom value) :=
  (keeps_ensureAction action).bind fun _ =>
    (keeps_registerAtom atom).bind fun _ => keeps_modifyAction action fun _ => rfl

theorem keeps_setPost (action atom : String) (value : Bool) :
    Attempt.Keeps NamesDistinct (Planner.setPost action atom value) :=
  (keeps_ensureAction action).bind fun _ =>
    (keeps_registerAtom atom).bind fun _ => keeps_modifyAction action fun _ => rfl

theorem keeps_addSpec (spec : ActionSpec) : Attempt.Keeps NamesDistinct (Planner.addSpec spec) := by
  unfold addSpec
  refine (keeps_setCost spec.name spec.cost).bind fun _ => ?_
  refine Attempt.Keeps.bind ?_ fun _ => ?_
  · apply Attempt.Keeps.forM
    intro a
    exact keeps_setPre spec.name a.1 a.2
  · apply Attempt.Keeps.forM
    intro a
    exact keeps_setPost spec.name a.1 a.2

theorem keeps_addSpecs (specs : List ActionSpec) :
    Attempt.Keeps NamesDistinct (Planner.addSpecs specs) :=
  .forM keeps_addSpec specs

/-- A built planner has one action of each name. -/
theorem Built.nodup_names {p : Planner} (h : Built p) : p.NamesDistinct := by
  induction h with
  | empty atoms config => exact List.nodup_nil
  | setCost _ action cost ih => exact keeps_setCost action cost _ ih
  | setPre _ action atom value ih => exact keeps_setPre action atom value _ ih
  | setPost _ action atom value ih => exact keeps_setPost action atom value _ ih
  | addSpecs _ specs ih => exact keeps_addSpecs specs _ ih
  | withAtoms _ atoms ih => exact ih
  | clear _ => exact List.nodup_nil

/-- What is found under a name is an action of that name. -/
theorem action?_eq_some {p : Planner} {name : String} {a : PlannerAction}
    (h : p.action? name = some a) : a ∈ p.actions ∧ a.name = name :=
  ⟨List.mem_of_find?_eq_some h, by simpa using List.find?_some h⟩

/-- In a built planner every action is found under its name. -/
theorem Built.action?_name {p : Planner} (h : Built p) {a : PlannerAction} (ha : a ∈ p.actions) :
    p.action? a.name = some a := by
  have hnodup := h.nodup_names
  obtain ⟨b, hb⟩ : ∃ b, p.action? a.name = some b := by
    rw [← Option.isSome_iff_exists, action?, List.find?_isSome]
    exact ⟨a, ha, by simp⟩
  obtain ⟨hmem, hname⟩ := action?_eq_some hb
  rw [hb, List.inj_on_of_nodup_map hnodup hmem ha hname]

/-! ## taking actions -/

/-- The state after an action, where there is one of that name and it applies. -/
def step? (p : Planner) (s : WorldState) (name : String) : Option WorldState :=
  match p.action? name with
  | some a => if s.meets a.pre then some (s.apply a.post) else none
  | none => none

/-- The state after actions taken one after the other, where each of them applies in its turn. -/
def after? (p : Planner) (s : WorldState) (names : List String) : Option WorldState :=
  names.foldlM p.step? s

/-- Actions apply in their turn, from a state on, and lead through states. -/
inductive Executes (p : Planner) : WorldState → List String → List WorldState → Prop
  | nil {s : WorldState} : Executes p s [] []
  | cons {s t : WorldState} {name : String} {names : List String} {states : List WorldState}
      (hstep : p.step? s name = some t) (hrest : Executes p t names states) :
      Executes p s (name :: names) (t :: states)

/-- What the action of a name costs. -/
def costAt (p : Planner) (name : String) : Nat := ((p.action? name).map (·.cost.toNat)).getD 0

/-- What actions cost together. -/
def costOf (p : Planner) (names : List String) : Nat := (names.map p.costAt).sum

/-- An executable sequence leads from a state to the goal. -/
def Reaches (p : Planner) (start goal : WorldState) (names : List String) : Prop :=
  ∃ t, p.after? start names = some t ∧ t.meets goal = true

/-- The states that executable sequences lead to. -/
def reachable (p : Planner) (start : WorldState) : Set WorldState :=
  {s | ∃ names, p.after? start names = some s}

theorem step?_eq_some_iff {p : Planner} {s t : WorldState} {name : String} :
    p.step? s name = some t ↔
      ∃ a, p.action? name = some a ∧ s.meets a.pre = true ∧ s.apply a.post = t := by
  unfold step?
  cases p.action? name <;> simp

/-- In a built planner an action that applies is a step by its name. -/
theorem Built.step?_name {p : Planner} (h : Built p) {s : WorldState} {a : PlannerAction}
    (ha : a ∈ p.actions) (hpre : s.meets a.pre = true) :
    p.step? s a.name = some (s.apply a.post) :=
  step?_eq_some_iff.mpr ⟨a, h.action?_name ha, hpre, rfl⟩

theorem Built.costAt_name {p : Planner} (h : Built p) {a : PlannerAction} (ha : a ∈ p.actions) :
    p.costAt a.name = a.cost.toNat := by
  simp [costAt, h.action?_name ha]

@[simp] theorem after?_nil (p : Planner) (s : WorldState) : p.after? s [] = some s := rfl

/-- A sequence is executable when its second part is, from where its first part leads to. -/
theorem after?_append (p : Planner) (s : WorldState) (xs ys : List String) :
    p.after? s (xs ++ ys) = (p.after? s xs).bind (p.after? · ys) := by
  simp [after?, List.foldlM_append]

/-- A sequence is extended at its end. -/
theorem after?_concat (p : Planner) (s : WorldState) (names : List String) (name : String) :
    p.after? s (names ++ [name]) = (p.after? s names).bind (p.step? · name) := by
  simp [after?, List.foldlM_append]

namespace Executes

variable {p : Planner} {start s t : WorldState} {name : String} {names : List String}
  {states : List WorldState}

/-- Actions lead through as many states. -/
theorem length_eq (h : p.Executes s names states) : states.length = names.length := by
  induction h with
  | nil => rfl
  | cons _ _ ih => rw [List.length_cons, List.length_cons, ih]

/-- Actions lead to the last of the states. -/
theorem after?_eq (h : p.Executes s names states) :
    p.after? s names = some (states.getLastD s) := by
  induction h with
  | nil => rfl
  | @cons s t name names states hstep _ ih =>
      rw [after?, List.foldlM_cons, hstep, List.getLastD_cons]
      exact ih

/-- What is executable is made of the planner's actions. -/
theorem action?_of_mem (h : p.Executes s names states) :
    ∀ name ∈ names, ∃ a, p.action? name = some a := by
  induction h with
  | nil => simp
  | cons hstep _ ih =>
      intro x hx
      obtain rfl | hx := List.mem_cons.mp hx
      · obtain ⟨a, ha, -, -⟩ := step?_eq_some_iff.mp hstep
        exact ⟨a, ha⟩
      · exact ih x hx

/-- One more action that applies in the last state leads through one more state. -/
theorem concat (h : p.Executes s names states) (hstep : p.step? (states.getLastD s) name = some t) :
    p.Executes s (names ++ [name]) (states ++ [t]) := by
  induction h with
  | nil => exact .cons hstep .nil
  | cons hfirst _ ih =>
      rw [List.getLastD_cons] at hstep
      exact .cons hfirst (ih hstep)

end Executes

@[simp] theorem costOf_nil (p : Planner) : p.costOf [] = 0 := rfl

theorem costOf_append (p : Planner) (xs ys : List String) :
    p.costOf (xs ++ ys) = p.costOf xs + p.costOf ys := by
  simp [costOf]

/-- One more action costs what it costs more. -/
theorem costOf_concat (p : Planner) (names : List String) (name : String) :
    p.costOf (names ++ [name]) = p.costOf names + p.costAt name := by
  simp [costOf]

/-! ## reachable states -/

theorem start_mem_reachable (p : Planner) (start : WorldState) : start ∈ p.reachable start :=
  ⟨[], rfl⟩

/-- A step leads from reachable states to reachable states. -/
theorem step?_mem_reachable {p : Planner} {start s t : WorldState} {name : String}
    (hs : s ∈ p.reachable start) (h : p.step? s name = some t) : t ∈ p.reachable start := by
  obtain ⟨names, hnames⟩ := hs
  exact ⟨names ++ [name], by rw [after?_concat, hnames]; exact h⟩

/-- From a reachable state actions lead through reachable states. -/
theorem Executes.mem_reachable {p : Planner} {start s : WorldState} {names : List String}
    {states : List WorldState} (h : p.Executes s names states) (hs : s ∈ p.reachable start) :
    ∀ x ∈ s :: states, x ∈ p.reachable start := by
  induction h with
  | nil =>
      intro x hx
      rw [List.mem_singleton] at hx
      exact hx ▸ hs
  | cons hstep _ ih =>
      intro x hx
      obtain rfl | hx := List.mem_cons.mp hx
      · exact hs
      · exact ih (step?_mem_reachable hs hstep) x hx

/-- A way that meets no state twice is shorter than the reachable states are many. -/
theorem Executes.length_lt_ncard {p : Planner} {start : WorldState} {names : List String}
    {states : List WorldState} (h : p.Executes start names states)
    (hnodup : (start :: states).Nodup) : names.length < (p.reachable start).ncard := by
  have hsub : ((start :: states).toFinset : Set WorldState) ⊆ p.reachable start := by
    intro x hx
    rw [List.coe_toFinset] at hx
    exact h.mem_reachable (p.start_mem_reachable start) x hx
  have hcard := Set.ncard_le_ncard hsub (Set.toFinite _)
  rw [Set.ncard_coe_finset, List.toFinset_card_of_nodup hnodup, List.length_cons,
    h.length_eq] at hcard
  exact hcard

/-- States that no action leaves are all that can be reached from among them. -/
theorem reachable_subset {p : Planner} {start : WorldState} {S : Set WorldState}
    (hstart : start ∈ S)
    (hstep : ∀ s ∈ S, ∀ a ∈ p.actions, s.meets a.pre = true → s.apply a.post ∈ S) :
    p.reachable start ⊆ S := by
  rintro t ⟨names, hnames⟩
  induction names using List.reverseRecOn generalizing t with
  | nil =>
      rw [after?_nil, Option.some.injEq] at hnames
      exact hnames ▸ hstart
  | append_singleton names name ih =>
      rw [after?_concat, Option.bind_eq_some_iff] at hnames
      obtain ⟨s, hs, hlast⟩ := hnames
      obtain ⟨a, ha, hpre, rfl⟩ := step?_eq_some_iff.mp hlast
      exact hstep s (ih hs) a (action?_eq_some ha).1 hpre

/-! ## a river to cross -/

/-- The actions of someone who wants to get home across a river. -/
def riverSpecs : List ActionSpec :=
  [ { name := "build_raft", pre := .ofList [("across", false), ("raft_launched", false)]
      post := .ofList [("raft_built", true)] },
    { name := "launch_raft", pre := .ofList [("raft_built", true)]
      post := .ofList [("raft_built", false), ("raft_launched", true)] },
    { name := "row", pre := .ofList [("raft_launched", true)]
      post := .ofList [("across", true), ("raft_launched", false)] },
    { name := "swim", cost := 5, pre := .ofList [("raft_built", false), ("raft_launched", false)]
      post := .ofList [("across", true)] },
    { name := "walk_home", pre := .ofList [("across", true)], post := .ofList [("home", true)] } ]

/-- A river that can be swum, which is dear, or crossed on a raft, which takes more actions. -/
def river : Planner := ((addSpecs riverSpecs).runOn {}).2

/-- On the near bank, with nothing done yet. -/
def nearBank : WorldState := ⟨0b0000, ~~~0b1111⟩

/-- Wherever home is. -/
def atHome : WorldState := ⟨0b1000, ~~~0b1000⟩

/-- On the bank without a raft, with one built and with one launched, across the river, at home. -/
def riverStates : List WorldState :=
  [0b0000, 0b0100, 0b0010, 0b0001, 0b1001].map fun values => ⟨values, ~~~0b1111⟩

theorem built_river : river.Built := .addSpecs (.empty {} {}) riverSpecs

/-- One can swim and walk home. -/
theorem reaches_swim : river.Reaches nearBank atHome ["swim", "walk_home"] :=
  ⟨⟨0b1001, ~~~0b1111⟩, by decide +kernel, by decide +kernel⟩

/-- There are no more than five states on the way home. -/
theorem ncard_reachable_river : (river.reachable nearBank).ncard ≤ 5 := by
  have hstep : ∀ s ∈ riverStates, ∀ a ∈ river.actions, s.meets a.pre = true →
      s.apply a.post ∈ riverStates := by decide +kernel
  have hsub : river.reachable nearBank ⊆ (riverStates.toFinset : Set WorldState) := by
    rw [List.coe_toFinset]
    exact reachable_subset (by decide +kernel : nearBank ∈ riverStates) hstep
  have hcard := Set.ncard_le_ncard hsub (Set.toFinite _)
  rw [Set.ncard_coe_finset] at hcard
  exact Nat.le_trans hcard (List.toFinset_card_le riverStates)

end Planner

end PlanningAgents
