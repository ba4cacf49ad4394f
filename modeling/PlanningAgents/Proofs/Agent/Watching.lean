import PlanningAgents.Proofs.Agent.Order

/-!
# PlanningAgents.Proofs.Agent.Watching

What a queued action keeps an eye on.  Its mask is made when the queue is filled, from the first of
the authored actions of its name and from the atoms that are named at that moment
(`Agent.QueuedIn`); the planner goes by the sum of all authored actions of the name, and more atoms
may be named later.  So the mask has the atoms that the action depends on exactly if the first
authored action watches them all, and a pattern for all atoms has just those that were named when
the queue was filled.

Main statements:

* `ActionSpec.testBit_watchMask` — the bits of a mask are those of the atoms that are watched;
* `Agent.QueuedIn.watchMask_eq` — a queued action has the mask of the moment at which it was queued;
* `Agent.Reachable.watches_preconditions_iff` — when a mask has all preconditions;
* `Agent.Reachable.watches_all_named_iff` — what a pattern for all atoms is good for.
-/

namespace PlanningAgents

variable {W M : Type}

/-! ## masks -/

namespace ActionSpec

/-- Whether an authored action keeps an eye on an atom, if the atom has a name. -/
def Watches (spec : ActionSpec) (atom : String) : Prop :=
  atom ∈ spec.pre ∨ spec.watch = some (.pattern "*") ∨
    ∃ names, spec.watch = some (.atoms names) ∧ atom ∈ names

/-- **The bits of a mask** are those of the atoms that are watched. -/
theorem testBit_watchMask (spec : ActionSpec) {t : AtomTable} (hvalid : t.Valid) {i : Nat}
    (hi : i < 64) :
    testBit (spec.watchMask t) i = true ↔
      ∃ atom, t.index? atom = some i ∧ spec.Watches atom := by
  have hpre : testBit (t.mask spec.pre.keys) i = true ↔
      ∃ atom, t.index? atom = some i ∧ atom ∈ spec.pre := by
    rw [AtomTable.testBit_mask hvalid _ hi]
    simp only [Std.ExtTreeMap.mem_keys, and_comm]
  have hall : i < t.names.length ↔ ∃ atom, t.index? atom = some i := by
    simp only [hvalid.index?_eq_some_iff]
    exact ⟨fun h => ⟨_, List.getElem?_eq_getElem h⟩,
      fun ⟨_, h⟩ => (List.getElem?_eq_some_iff.mp h).1⟩
  rw [watchMask]
  cases hwatch : spec.watch with
  | none =>
      simp only [hpre, Watches, hwatch]
      simp
  | some watch =>
      cases watch with
      | pattern p =>
          by_cases hp : p = "*"
          · simp only [hp, if_true, AtomTable.testBit_allMask hvalid hi, hall, Watches, hwatch]
            simp
          · simp only [hp, if_false, hpre, Watches, hwatch]
            simp [hp]
      | atoms names =>
          simp only [testBit_or _ _ hi, Bool.or_eq_true, hpre,
            AtomTable.testBit_mask hvalid names hi, Watches, hwatch]
          constructor
          · rintro (⟨atom, hindex, hatom⟩ | ⟨atom, hatom, hindex⟩)
            · exact ⟨atom, hindex, .inl hatom⟩
            · exact ⟨atom, hindex, .inr (.inr ⟨names, rfl, hatom⟩)⟩
          · rintro ⟨atom, hindex, hatom | hatom | ⟨names', hnames, hatom⟩⟩
            · exact .inl ⟨atom, hindex, hatom⟩
            · cases hatom
            · obtain rfl := WatchSpec.atoms.inj (Option.some.inj hnames)
              exact .inr ⟨atom, hatom, hindex⟩

end ActionSpec

/-- The first action of a name watches what all actions of the name demand. -/
def DefinitionData.WatchesDemands (d : DefinitionData) (name : String) : Prop :=
  ∀ spec ∈ d.actions, spec.name = name → ∀ atom ∈ spec.pre,
    ∃ first, d.action? name = some first ∧ first.Watches atom

/-- An action that is named once watches what it demands. -/
theorem DefinitionData.watchesDemands_of_nodup {d : DefinitionData}
    (h : (d.actions.map (·.name)).Nodup) (name : String) : d.WatchesDemands name := by
  rintro spec hspec rfl atom hatom
  obtain ⟨first, hfirst⟩ : ∃ first, d.action? spec.name = some first := by
    rw [← Option.isSome_iff_exists, action?, List.find?_isSome]
    exact ⟨spec, hspec, decide_eq_true rfl⟩
  have hmem : first ∈ d.actions := List.mem_of_find?_eq_some hfirst
  have hname : first.name = spec.name := by simpa using List.find?_some hfirst
  obtain rfl : first = spec := List.inj_on_of_nodup_map h hmem hspec hname
  exact ⟨first, hfirst, .inl hatom⟩

/-- An atom has changed: from outside since the agent was left in `s`, or by the updaters. -/
def Turn.Changes (t : Turn W M) (s : WorldState) (i : Nat) : Prop :=
  s.DiffersAt t.agent.current i ∨
    t.stepFront.2.agent.current.DiffersAt (t.stepFront.2.runUpdaters
      t.stepFront.2.agent.definition.bindings.updaters).agent.current i

namespace Agent

variable {a b : Agent W M} {t : AtomTable} {events : List (Event W M)} {r : ActionRecord W M}

/-! ## the table of the moment -/

/-- **The queue was filled** while the atoms were those of a table, and has not been filled
since. -/
inductive QueuedIn : AtomTable → Agent W M → Prop
  | enqueue {a : Agent W M} (hqueue : a.queue = []) :
      QueuedIn a.atoms { a with queue := a.plan.actions.zipIdx.filterMap a.recordAt? }
  | move {t : AtomTable} {a b : Agent W M} {events : List (Event W M)} (h : QueuedIn t a)
      (hbusy : a.queue ≠ []) (hmove : Move a events b) : QueuedIn t b
  | opening {t : AtomTable} {u : Turn W M} (h : QueuedIn t u.agent) (call : Call) :
      QueuedIn t (u.opening call).agent
  | write {t : AtomTable} {a : Agent W M} (h : QueuedIn t a) (w : Write) : QueuedIn t (a.write w)
  | loadWorldState {t : AtomTable} {a : Agent W M} (h : QueuedIn t a) (spec : EntityTypeSpec) :
      QueuedIn t (a.loadWorldState spec).2

/-- The opening of a call leaves alone what the agent has been loaded with. -/
theorem continues_opening (u : Turn W M) (call : Call) :
    (u.opening call).agent.Continues u.agent := by
  cases call with
  | replanTo goal merge => exact ⟨rfl, .refl _⟩
  | launch => exact .refl _
  | step => exact .refl _
  | replan => exact .refl _
  | interrupt => exact .refl _

theorem queue_opening (u : Turn W M) (call : Call) :
    (u.opening call).agent.queue = u.agent.queue := by
  cases call with
  | replanTo goal merge => rfl
  | _ => rfl

/-- The mask that a queued action gets while the atoms are those of a table. -/
def maskIn (a : Agent W M) (t : AtomTable) (name : String) : UInt64 :=
  ((a.definition.data.action? name).map (·.watchMask t)).getD 0

theorem maskIn_eq (h : b.definition = a.definition) (t : AtomTable) (name : String) :
    b.maskIn t name = a.maskIn t name := by
  rw [maskIn, h, ← maskIn]

/-- What is queued together gets the masks of the moment. -/
theorem watchMask_of_recordAt? {place : String × Nat} (h : a.recordAt? place = some r) :
    r.watchMask = a.maskIn a.atoms r.name := by
  obtain ⟨handlers, -, rfl⟩ := Option.map_eq_some_iff.mp h
  rfl

/-- A front that changes otherwise has the mask that it had. -/
theorem exists_mem_of_modifyHead {f : ActionRecord W M → ActionRecord W M}
    {queue : List (ActionRecord W M)} (hr : r ∈ queue.modifyHead f)
    (hname : ∀ r, (f r).name = r.name) (hmask : ∀ r, (f r).watchMask = r.watchMask) :
    ∃ r' ∈ queue, r'.name = r.name ∧ r'.watchMask = r.watchMask := by
  cases queue with
  | nil => cases hr
  | cons front rest =>
      obtain rfl | hr := List.mem_cons.mp hr
      · exact ⟨front, List.mem_cons_self, (hname front).symm, (hmask front).symm⟩
      · exact ⟨r, List.mem_cons_of_mem _ hr, rfl, rfl⟩

/-- A move that does not fill the queue leaves the masks in it alone. -/
theorem Move.exists_mem (h : Move a events b) (hbusy : a.queue ≠ []) (hr : r ∈ b.queue) :
    ∃ r' ∈ a.queue, r'.name = r.name ∧ r'.watchMask = r.watchMask := by
  cases h with
  | run u h hlabel => exact ⟨r, hr, rfl, rfl⟩
  | start hcons hdue => exact exists_mem_of_modifyHead hr (fun _ => rfl) fun _ => rfl
  | aside trace blackboard actionIndex dirty => exact ⟨r, hr, rfl, rfl⟩
  | clearGoal => exact ⟨r, hr, rfl, rfl⟩
  | remember => exact ⟨r, hr, rfl, rfl⟩
  | depart => exact ⟨r, hr, rfl, rfl⟩
  | touch hcons hphase => exact exists_mem_of_modifyHead hr (fun _ => rfl) fun _ => rfl
  | retry hcons hphase hleft => exact exists_mem_of_modifyHead hr (fun _ => rfl) fun _ => rfl
  | effect hcons hphase => exact ⟨r, hr, rfl, rfl⟩
  | pop hcons hphase => exact ⟨r, List.mem_of_mem_tail hr, rfl, rfl⟩
  | giveUp hcons hphase hleft => cases hr
  | drop hphase => cases hr
  | plan hqueue => exact absurd hqueue hbusy
  | reset hqueue => exact absurd hqueue hbusy
  | enqueue hqueue hretries => exact absurd hqueue hbusy

/-- **A queued action has the mask** of the moment at which it was queued. -/
theorem QueuedIn.watchMask_eq (h : QueuedIn t a) :
    a.atoms.Extends t ∧ ∀ r ∈ a.queue, r.watchMask = a.maskIn t r.name := by
  induction h with
  | enqueue hqueue =>
      refine ⟨.refl _, fun r hr => ?_⟩
      obtain ⟨place, -, hrecord⟩ := List.mem_filterMap.mp hr
      exact watchMask_of_recordAt? hrecord
  | move h hbusy hmove ih =>
      refine ⟨hmove.continues.atoms.trans ih.1, fun r hr => ?_⟩
      obtain ⟨r', hr', hname, hmask⟩ := hmove.exists_mem hbusy hr
      rw [← hmask, ← hname, ih.2 r' hr', maskIn_eq hmove.continues.definition]
  | @opening t u h call ih =>
      have hcontinues := continues_opening u call
      refine ⟨hcontinues.atoms.trans ih.1, fun r hr => ?_⟩
      rw [maskIn_eq hcontinues.definition]
      exact ih.2 r (queue_opening u call ▸ hr)
  | @write t a h w ih =>
      have hcontinues := a.continues_write w
      have hqueue : (a.write w).queue = a.queue := (congrArg Agent.queue (a.kept_write w) :)
      refine ⟨hcontinues.atoms.trans ih.1, fun r hr => ?_⟩
      rw [maskIn_eq hcontinues.definition]
      exact ih.2 r (hqueue ▸ hr)
  | @loadWorldState t a h spec ih =>
      obtain ⟨hext, hdefinition, -, hqueue⟩ := a.extends_loadWorldState spec
      refine ⟨hext.trans ih.1, fun r hr => ?_⟩
      rw [maskIn_eq hdefinition]
      exact ih.2 r (hqueue ▸ hr)

/-! ## what queued actions were loaded from -/

/-- What is queued was queued at a moment at which the actions of the planner had been loaded. -/
def QueuedLoaded (a : Agent W M) : Prop := a.queue ≠ [] → ∃ t, QueuedIn t a ∧ a.LoadedIn t

theorem Move.queuedLoaded (h : Move a events b) (hloaded : a.Loaded) (ha : a.QueuedLoaded) :
    b.QueuedLoaded := by
  intro hb
  by_cases hbusy : a.queue = []
  · cases h with
    | enqueue hqueue hretries => exact ⟨a.atoms, .enqueue hqueue, hloaded⟩
    | pop hcons hphase => simp [hbusy] at hcons
    | touch hcons hphase => simp [hbusy] at hcons
    | retry hcons hphase hleft => simp [hbusy] at hcons
    | start hcons hdue => simp [hbusy] at hcons
    | giveUp hcons hphase hleft => exact absurd rfl hb
    | drop hphase => exact absurd rfl hb
    | _ => exact absurd hbusy hb
  · obtain ⟨t, hqueued, hin⟩ := ha hbusy
    exact ⟨t, .move hqueued hbusy h, hin.continues h.continues⟩

theorem Moves.queuedLoaded (h : Moves a events b) (hloaded : a.Loaded) (ha : a.QueuedLoaded) :
    b.Loaded ∧ b.QueuedLoaded := by
  induction h with
  | nil => exact ⟨hloaded, ha⟩
  | snoc _ hmove ih => exact ⟨ih.1.continues hmove.continues, hmove.queuedLoaded ih.1 ih.2⟩

/-- A failed load leaves what is queued alone. -/
theorem QueuedLoaded.setDirty (h : a.QueuedLoaded) (hloaded : a.Loaded) :
    QueuedLoaded { a with dirty := true } :=
  (Move.aside a a.trace a.blackboard a.actionIndex true).queuedLoaded hloaded h

theorem QueuedLoaded.loadActions (h : a.QueuedLoaded) (hloaded : a.Loaded)
    (specs : List ActionSpec) : (a.loadActions specs).2.QueuedLoaded := by
  rw [Agent.loadActions]
  split
  · exact h.setDirty hloaded
  · exact fun hbusy => absurd rfl hbusy

theorem QueuedLoaded.loadWorldState (h : a.QueuedLoaded) (spec : EntityTypeSpec) :
    (a.loadWorldState spec).2.QueuedLoaded := by
  obtain ⟨-, hdefinition, hactions, hqueue⟩ := a.extends_loadWorldState spec
  intro hbusy
  obtain ⟨t, hqueued, hin⟩ := h (hqueue ▸ hbusy)
  refine ⟨t, hqueued.loadWorldState spec, ?_⟩
  rwa [LoadedIn, hactions, hdefinition]

theorem Loaded.loadWorldState (h : a.Loaded) (spec : EntityTypeSpec) :
    (a.loadWorldState spec).2.Loaded := by
  obtain ⟨hext, hdefinition, hactions, -⟩ := a.extends_loadWorldState spec
  rw [Loaded, LoadedIn, hactions, hdefinition]
  obtain hnone | ⟨p, htells, hp, hin⟩ := h
  · exact .inl hnone
  · exact .inr ⟨p, htells, hp, hext.trans hin⟩

theorem QueuedLoaded.loadDefinition (h : a.QueuedLoaded) (hloaded : a.Loaded) :
    a.loadDefinition.2.Loaded ∧ a.loadDefinition.2.QueuedLoaded := by
  have hactions := h.loadActions hloaded a.definition.data.actions
  have hloads := hloaded.loadActions a.definition.data.actions
  rw [Agent.loadDefinition]
  split
  · exact ⟨hloaded, h⟩
  · next spec _ =>
      split
      · next e b hload =>
          rw [hload] at hactions hloads
          exact ⟨hloads, hactions⟩
      · next b hload =>
          rw [hload] at hactions hloads
          exact ⟨hloads.loadWorldState spec, hactions.loadWorldState spec⟩

theorem QueuedLoaded.opening {u : Turn W M} (h : u.agent.QueuedLoaded) (call : Call) :
    (u.opening call).agent.QueuedLoaded := by
  intro hbusy
  obtain ⟨t, hqueued, hin⟩ := h (queue_opening u call ▸ hbusy)
  exact ⟨t, hqueued.opening call, hin.continues (continues_opening u call)⟩

theorem QueuedLoaded.write (h : a.QueuedLoaded) (w : Write) : (a.write w).QueuedLoaded := by
  have hqueue : (a.write w).queue = a.queue := (congrArg Agent.queue (a.kept_write w) :)
  intro hbusy
  obtain ⟨t, hqueued, hin⟩ := h (hqueue ▸ hbusy)
  exact ⟨t, hqueued.write w, hin.continues (a.continues_write w)⟩

theorem QueuedLoaded.after {u : Turn W M} (h : u.agent.Loaded ∧ u.agent.QueuedLoaded)
    (hrest : u.agent.AtRest) (call : Call) :
    (u.after call).agent.Loaded ∧ (u.after call).agent.QueuedLoaded := by
  obtain ⟨events, hmoves, -⟩ := Turn.does_after hrest call
  exact hmoves.queuedLoaded (h.1.continues (continues_opening u call)) (h.2.opening call)

/-- **Every agent** has its actions loaded, and what it has queued was queued with them. -/
theorem Reachable.queuedLoaded (h : a.Reachable) : a.Loaded ∧ a.QueuedLoaded := by
  induction h using Reachable.inductOn with
  | ofDefinition entityType definition config => exact ⟨.inl rfl, fun hbusy => absurd rfl hbusy⟩
  | loadDefinition _ ih => exact ih.2.loadDefinition ih.1
  | loadActions _ specs ih => exact ⟨ih.1.loadActions specs, ih.2.loadActions ih.1 specs⟩
  | loadWorldState _ spec ih => exact ⟨ih.1.loadWorldState spec, ih.2.loadWorldState spec⟩
  | write _ w ih => exact ⟨ih.1.continues (continues_write _ w), ih.2.write w⟩
  | after h _ call ih => exact QueuedLoaded.after ih h.atRest call

/-! ## preconditions -/

/-- **A mask has all preconditions** exactly if the first action of the name watches what all
actions of the name demand. -/
theorem LoadedIn.covers_iff (hin : a.LoadedIn t) (hvalid : t.Valid) {name : String}
    {x : PlannerAction} (hx : a.planner.action? name = some x) :
    (∀ i < 64, (x.pre.value? i).isSome = true → testBit (a.maskIn t name) i = true) ↔
      a.definition.data.WatchesDemands name := by
  have hmem := (Planner.action?_eq_some hx).1
  obtain hnone | ⟨p, htells, hactions, hext⟩ := hin
  · rw [hnone] at hmem
    cases hmem
  have hp : p.action? name = some x := by
    rw [Planner.action?, ← hactions]
    exact hx
  have hcovers := (htells.covers x (hactions ▸ hmem)).1
  have hpre : p.atoms.toMap x.pre = ActionSpec.merge (·.pre) a.definition.data.actions name :=
    (Planner.entries_of_action? hp).symm.trans (htells.pre name)
  have hatoms := htells.sound.atoms
  constructor
  · intro hmask spec hspec hname atom hatom
    have hmerged : atom ∈ p.atoms.toMap x.pre := by
      rw [hpre, ActionSpec.mem_merge]
      exact ⟨spec, hspec, hname, hatom⟩
    rw [← Std.ExtTreeMap.isSome_getElem?_iff_mem, hatoms.getElem?_toMap] at hmerged
    obtain ⟨value, hvalue⟩ := Option.isSome_iff_exists.mp hmerged
    obtain ⟨i, hindex, hi⟩ := Option.bind_eq_some_iff.mp hvalue
    have hlt := hatoms.lt_of_getElem? (AtomTable.getElem?_of_index? hindex)
    have hbit := hmask i hlt (by rw [hi]; rfl)
    rw [maskIn] at hbit
    cases hfirst : a.definition.data.action? name with
    | none =>
        rw [hfirst] at hbit
        simp [testBit_eq_getLsbD _ hlt] at hbit
    | some first =>
        rw [hfirst] at hbit
        obtain ⟨atom', hindex', hwatches⟩ := (first.testBit_watchMask hvalid hlt).mp hbit
        have hsame := AtomTable.getElem?_of_index? (hext.index? hindex)
        obtain rfl : atom' = atom :=
          Option.some.inj ((AtomTable.getElem?_of_index? hindex').symm.trans hsame)
        exact ⟨first, rfl, hwatches⟩
  · intro hwatched i hi hsome
    obtain ⟨value, hvalue⟩ := Option.isSome_iff_exists.mp hsome
    obtain ⟨atom, hname, -, hentry⟩ := hcovers.exists_name hatoms hi hvalue
    have hmerged : atom ∈ p.atoms.toMap x.pre := by
      rw [← Std.ExtTreeMap.isSome_getElem?_iff_mem, hentry]
      rfl
    rw [hpre, ActionSpec.mem_merge] at hmerged
    obtain ⟨spec, hspec, hspecName, hatom⟩ := hmerged
    obtain ⟨first, hfirst, hwatches⟩ := hwatched spec hspec hspecName atom hatom
    rw [maskIn, hfirst]
    exact (first.testBit_watchMask hvalid hi).mpr
      ⟨atom, hext.index? (hatoms.index?_eq_some_iff.mpr hname), hwatches⟩

/-! ## what a tick answers -/

/-- **Throughout every call**, what is queued was queued at a moment at which the actions of the
planner had been loaded. -/
theorem Reachable.exists_queuedIn {u : Turn W M} (h : u.agent.Reachable) {call : Call}
    (hmoves : Moves (u.opening call).agent events b) (hbusy : b.queue ≠ []) :
    ∃ t, QueuedIn t b ∧ b.LoadedIn t := by
  obtain ⟨hloaded, hqueued⟩ := h.queuedLoaded
  have hopened := hloaded.continues (continues_opening u call)
  exact (hmoves.queuedLoaded hopened (hqueued.opening call)).2 hbusy

/-- The table of the moment is a valid one. -/
theorem Reachable.valid_of_queuedIn {u : Turn W M} (h : u.agent.Reachable) {call : Call}
    (hmoves : Moves (u.opening call).agent events b) (hqueued : QueuedIn t b) : t.Valid := by
  have hext := hmoves.continues.atoms.trans (continues_opening u call).atoms
  exact hqueued.watchMask_eq.1.valid_of_valid (hext.valid h.valid_atoms)

/-- What a tick has done when the step of the front is over. -/
theorem Reachable.moves_stepFront {u : Turn W M} (h : u.agent.Reachable) :
    ∃ events, Moves (u.opening .step).agent events u.stepFront.2.agent := by
  obtain ⟨events, hmoves, -⟩ := Turn.does_stepFront (fun r hr => (h.atRest.front r hr).2.1)
    fun r hr => (h.atRest.waiting r hr).1
  exact ⟨events, hmoves⟩

/-- At every moment of a call the masks in the queue have all preconditions just where first actions
watch what all actions of their names demand. -/
theorem Reachable.covers_iff {u : Turn W M} (h : u.agent.Reachable) {call : Call}
    (hmoves : Moves (u.opening call).agent events b) (hr : r ∈ b.queue) {x : PlannerAction}
    (hx : b.planner.action? r.name = some x) :
    (∀ i < 64, (x.pre.value? i).isSome = true → testBit r.watchMask i = true) ↔
      b.definition.data.WatchesDemands r.name := by
  obtain ⟨t, hqueued, hin⟩ := h.exists_queuedIn hmoves (List.ne_nil_of_mem hr)
  rw [hqueued.watchMask_eq.2 r hr]
  exact hin.covers_iff (h.valid_of_queuedIn hmoves hqueued) hx

/-- **Masks have the preconditions of what is queued** at every moment of a call, whatever the agent
has been through, exactly if the first authored action of the name watches what all actions of the
name demand.  Where it does, a tick gives up its plan when an atom has changed on which the action
at the front depends.  An action whose name is used once always does; one that is named twice need
not. -/
theorem Reachable.watches_preconditions_iff {u : Turn W M} (h : u.agent.Reachable) :
    (∀ (call : Call) (events : List (Event W M)) (b : Agent W M),
      Moves (u.opening call).agent events b → ∀ r ∈ b.queue, ∀ x,
        b.planner.action? r.name = some x →
          ((∀ i < 64, (x.pre.value? i).isSome = true → testBit r.watchMask i = true) ↔
            b.definition.data.WatchesDemands r.name)) ∧
    (∀ s front rest x, LeftIn s u.agent → u.stepFront.2.agent.queue = front :: rest →
      u.agent.planner.action? front.name = some x →
      u.agent.definition.data.WatchesDemands front.name →
      ∀ i < 64, (x.pre.value? i).isSome = true → u.Changes s i →
        u.step.1 = .replanned .worldStateChanged) ∧
    ((u.agent.definition.data.actions.map (·.name)).Nodup →
      ∀ name, u.agent.definition.data.WatchesDemands name) := by
  refine ⟨fun call events b hmoves r hr x hx => h.covers_iff hmoves hr hx, ?_,
    DefinitionData.watchesDemands_of_nodup⟩
  intro s front rest x hleft hcons hx hwatches i hi hspecified hchanges
  have hcontinues := u.continues_stepFront
  obtain ⟨events, hmoves⟩ := h.moves_stepFront
  have hfront : front ∈ u.stepFront.2.agent.queue := hcons ▸ List.mem_cons_self
  have hmask := (h.covers_iff hmoves hfront
    (by rwa [Planner.action?, hcontinues.actions])).mpr (by rwa [hcontinues.definition])
  exact (Turn.step_fst_eq_iff fun _ => hleft.cached_eq).mpr
    ⟨front, rest, hcons, i, hi, hmask i hi hspecified, hchanges⟩

/-- The ferried traveller is on the far bank, and works on a raft for the near one. -/
theorem watches_preconditions_ferriedTraveller :
    ferriedTraveller.Reachable ∧ ∃ front rest x,
      (idleTurn ferriedTraveller).stepFront.2.agent.queue = front :: rest ∧
      ferriedTraveller.planner.action? front.name = some x ∧ x.pre.value? 0 = some false ∧
      testBit front.watchMask 0 = true ∧
      (idleTurn ferriedTraveller).step.1 = .replanned .worldStateChanged := by
  have hreachable := reachable_ferriedTraveller
  have hleft := leftIn_ferriedTraveller
  have hnodup : (ferriedTraveller.definition.data.actions.map (·.name)).Nodup := by
    decide +kernel
  have hfront : (idleTurn ferriedTraveller).stepFront.2.agent.queue.head?.map
      (fun r => (r.name, testBit r.watchMask 0)) = some ("build_raft", true) := by decide +kernel
  have hraft : (ferriedTraveller.planner.action? "build_raft").map (·.pre.value? 0) =
      some (some false) := by decide +kernel
  have hferried : (idleTurn choosyTraveller).launch.2.agent.current.value? 0 = some false ∧
      ferriedTraveller.current.value? 0 = some true := by decide +kernel
  generalize ferriedTraveller = a at hreachable hleft hnodup hfront hraft hferried ⊢
  generalize (idleTurn choosyTraveller).launch.2.agent.current = s at hleft hferried
  obtain ⟨x, hx, hpre⟩ := Option.map_eq_some_iff.mp hraft
  obtain ⟨front, hhead, hname⟩ := Option.map_eq_some_iff.mp hfront
  obtain ⟨hname, hwatched⟩ := Prod.mk.inj hname
  obtain ⟨rest, hcons⟩ := List.head?_eq_some_iff.mp hhead
  obtain ⟨-, hreplans, hwatches⟩ := hreachable.watches_preconditions_iff (u := idleTurn a)
  refine ⟨hreachable, front, rest, x, hcons, hname ▸ hx, hpre, hwatched, ?_⟩
  exact hreplans s front rest x hleft hcons (hname ▸ hx) (hwatches hnodup _) 0 (by decide)
    (by rw [hpre]; rfl) (.inl ⟨false, hferried⟩)

/-! ## a worker whose work is named twice -/

/-- The behaviour of an action that is parked whenever it is resumed. -/
def tireless : ActionHandlers Unit Bool where
  fresh := false
  resume parked := .done (.yielded parked)

/-- Kobolds are ready for work, and want it to be done. -/
def readyKobold : EntityTypeSpec where
  initial := .ofList [("ready", true), ("done", false)]
  goal := .ofList [("done", true)]

/-- Kobolds at work that never ends. -/
def toil (actions : List ActionSpec) : Definition Unit Bool where
  data := { actions, entityTypes := .ofList [("kobold", readyKobold)] }
  bindings := { actions := .ofList [("work", tireless)] }

/-- A kobold at work of which the second of its authored actions tells what it depends on; then
somebody else makes the kobold unready. -/
def unreadyKobold : Agent Unit Bool :=
  (idleTurn (ofDefinition "kobold" (toil
    [{ name := "work", post := .ofList [("done", true)] },
      { name := "work", pre := .ofList [("ready", true)] }])
    {}).loadDefinition.2).launch.2.agent.write (.setAtom "ready" false)

theorem reachable_unreadyKobold : unreadyKobold.Reachable := by
  rw [unreadyKobold]
  exact (Reachable.ofDefinition _ _ _).loadDefinition.launch_idle.write _

/-- **The mask of an action that is named twice** is without the precondition that the second brings
in: the work goes on although what it depends on has changed. -/
theorem unwatched_precondition_unreadyKobold :
    unreadyKobold.Reachable ∧ ∃ r ∈ unreadyKobold.queue, ∃ x,
      unreadyKobold.planner.action? r.name = some x ∧ x.pre.value? 1 = some true ∧
      testBit r.watchMask 1 = false ∧
      (∃ s, LeftIn s unreadyKobold ∧ s.DiffersAt unreadyKobold.current 1) ∧
      (idleTurn unreadyKobold).step.1 = .running := by
  have hfront : unreadyKobold.queue.head?.map (fun r => (r.name, testBit r.watchMask 1)) =
      some ("work", false) := by decide +kernel
  have hwork : (unreadyKobold.planner.action? "work").map (·.pre.value? 1) = some (some true) := by
    decide +kernel
  have hunready : unreadyKobold.cached.value? 1 = some true ∧
      unreadyKobold.current.value? 1 = some false := by decide +kernel
  have hstep : (idleTurn unreadyKobold).step.1 = .running := by decide +kernel
  have hreachable := reachable_unreadyKobold
  generalize unreadyKobold = a at hfront hwork hunready hstep hreachable ⊢
  obtain ⟨front, hhead, hname⟩ := Option.map_eq_some_iff.mp hfront
  obtain ⟨hname, hunwatched⟩ := Prod.mk.inj hname
  obtain ⟨x, hx, hpre⟩ := Option.map_eq_some_iff.mp hwork
  have hmem : front ∈ a.queue := List.mem_of_head? hhead
  obtain ⟨s, hleft⟩ := hreachable.exists_leftIn (List.ne_nil_of_mem hmem)
  rw [hleft.cached_eq] at hunready
  exact ⟨hreachable, front, hmem, x, hname ▸ hx, hpre, hunwatched,
    ⟨s, hleft, true, hunready⟩, hstep⟩

/-! ## every atom -/

/-- A pattern for all atoms makes a mask of those that are named. -/
theorem testBit_maskIn_of_pattern (ht : t.Valid) {name : String} {spec : ActionSpec}
    (hspec : a.definition.data.action? name = some spec) (hwatch : spec.watch = some (.pattern "*"))
    {i : Nat} (hi : i < 64) : testBit (a.maskIn t name) i = true ↔ i < t.names.length := by
  rw [maskIn, hspec, Option.map_some, Option.getD_some, ActionSpec.watchMask, hwatch]
  exact AtomTable.testBit_allMask ht hi

/-- **A pattern for all atoms has those that were named when the queue was filled.**  There was such
a moment, and the tick gives up its plan exactly if one of the atoms of that moment has changed; an
atom that has been named since then may change unnoticed. -/
theorem Reachable.watches_all_named_iff {u : Turn W M} (h : u.agent.Reachable) {s : WorldState}
    (hleft : LeftIn s u.agent) {front : ActionRecord W M} {rest : List (ActionRecord W M)}
    (hcons : u.stepFront.2.agent.queue = front :: rest) {spec : ActionSpec}
    (hspec : u.agent.definition.data.action? front.name = some spec)
    (hwatch : spec.watch = some (.pattern "*")) :
    (∃ t, QueuedIn t u.stepFront.2.agent) ∧
    ∀ t, QueuedIn t u.stepFront.2.agent →
      u.stepFront.2.agent.atoms.Extends t ∧
      (u.step.1 = .replanned .worldStateChanged ↔ ∃ i < t.names.length, u.Changes s i) := by
  obtain ⟨events, hmoves⟩ := h.moves_stepFront
  have hbusy : u.stepFront.2.agent.queue ≠ [] := hcons ▸ List.cons_ne_nil front rest
  refine ⟨(h.exists_queuedIn hmoves hbusy).imp fun _ => And.left, fun t hqueued => ?_⟩
  obtain ⟨hext, hmasks⟩ := hqueued.watchMask_eq
  have hvalid := h.valid_of_queuedIn hmoves hqueued
  have hmask := hmasks front (hcons ▸ List.mem_cons_self)
  rw [maskIn_eq u.continues_stepFront.definition] at hmask
  have hbit {i : Nat} (hi : i < 64) : testBit front.watchMask i = true ↔ i < t.names.length := by
    rw [hmask]
    exact testBit_maskIn_of_pattern hvalid hspec hwatch hi
  refine ⟨hext, (Turn.step_fst_eq_iff fun _ => hleft.cached_eq).trans ⟨?_, ?_⟩⟩
  · rintro ⟨front', rest', hcons', i, hi, hwatched, hchanges⟩
    obtain ⟨rfl, -⟩ := List.cons.inj (hcons'.symm.trans hcons)
    exact ⟨i, (hbit hi).mp hwatched, hchanges⟩
  · rintro ⟨i, hi, hchanges⟩
    have hlt := hvalid.length_lt.trans_le' hi.le
    exact ⟨front, rest, hcons, i, hlt, (hbit hlt).mpr hi, hchanges⟩

/-! ## a kobold who is taken by surprise -/

/-- A kobold at work who keeps an eye on everything, and may be told of what nobody has declared. -/
def waryKobold : Agent Unit Bool :=
  (idleTurn (ofDefinition "kobold"
    (toil [{ name := "work", post := .ofList [("done", true)], watch := some (.pattern "*") }])
    { autoRegisterAtoms := true }).loadDefinition.2).launch.2.agent

/-- The kobold who is told to be unready. -/
def warnedKobold : Agent Unit Bool := waryKobold.write (.setAtom "ready" false)

/-- The kobold who hears a noise, ticks, and then hears it no longer. -/
def surprisedKobold : Agent Unit Bool :=
  (idleTurn (waryKobold.write (.setAtom "noise" true))).step.2.agent.write (.setAtom "noise" false)

theorem reachable_waryKobold : waryKobold.Reachable := by
  rw [waryKobold]
  exact (Reachable.ofDefinition _ _ _).loadDefinition.launch_idle

/-- What the wary kobold is told is what it was watching when the work began. -/
theorem watches_all_named_warnedKobold :
    warnedKobold.Reachable ∧ ∃ s t, LeftIn s warnedKobold ∧
      QueuedIn t (idleTurn warnedKobold).stepFront.2.agent ∧
      ∃ i < t.names.length, (idleTurn warnedKobold).Changes s i := by
  have hreachable : warnedKobold.Reachable := by
    have hwary := reachable_waryKobold
    rw [warnedKobold]
    generalize waryKobold = a at hwary ⊢
    exact hwary.write _
  have hbusy : warnedKobold.queue.isEmpty = false := by decide +kernel
  have hfront : (idleTurn warnedKobold).stepFront.2.agent.queue.head?.map (·.name) =
      some "work" := by decide +kernel
  have hwatch : (warnedKobold.definition.data.action? "work").map (·.watch) =
      some (some (.pattern "*")) := by decide +kernel
  have hstep : (idleTurn warnedKobold).step.1 = .replanned .worldStateChanged := by
    decide +kernel
  generalize warnedKobold = a at hreachable hbusy hfront hwatch hstep ⊢
  obtain ⟨s, hleft⟩ := hreachable.exists_leftIn (List.isEmpty_eq_false_iff.mp hbusy)
  obtain ⟨front, hhead, hname⟩ := Option.map_eq_some_iff.mp hfront
  obtain ⟨rest, hcons⟩ := List.head?_eq_some_iff.mp hhead
  obtain ⟨spec, hspec, hpattern⟩ := Option.map_eq_some_iff.mp hwatch
  obtain ⟨⟨t, hqueued⟩, hiff⟩ :=
    hreachable.watches_all_named_iff (u := idleTurn a) hleft hcons (hname ▸ hspec) hpattern
  exact ⟨hreachable, s, t, hleft, hqueued, (hiff t hqueued).2.mp hstep⟩

/-- **What is named while the work goes on may change unnoticed**, whatever the pattern promises. -/
theorem unwatched_atom_surprisedKobold :
    surprisedKobold.Reachable ∧
      ((idleTurn surprisedKobold).stepFront.2.agent.queue.head?.bind fun r =>
        (surprisedKobold.definition.data.action? r.name).map (·.watch)) =
          some (some (.pattern "*")) ∧
      surprisedKobold.atoms.index? "noise" = some 2 ∧
      (∃ s, LeftIn s surprisedKobold ∧ s.DiffersAt surprisedKobold.current 2) ∧
      (idleTurn surprisedKobold).step.1 = .running := by
  have hwatch : ((idleTurn surprisedKobold).stepFront.2.agent.queue.head?.bind fun r =>
      (surprisedKobold.definition.data.action? r.name).map (·.watch)) =
        some (some (.pattern "*")) := by decide +kernel
  have hnamed : surprisedKobold.atoms.index? "noise" = some 2 := by decide +kernel
  have hbusy : surprisedKobold.queue.isEmpty = false := by decide +kernel
  have hchanged : surprisedKobold.cached.value? 2 = some true ∧
      surprisedKobold.current.value? 2 = some false := by decide +kernel
  have hstep : (idleTurn surprisedKobold).step.1 = .running := by decide +kernel
  have hreachable : surprisedKobold.Reachable := by
    have hwary := reachable_waryKobold
    rw [surprisedKobold]
    generalize waryKobold = a at hwary ⊢
    exact (hwary.write _).step_idle.write _
  obtain ⟨s, hleft⟩ := hreachable.exists_leftIn (List.isEmpty_eq_false_iff.mp hbusy)
  rw [hleft.cached_eq] at hchanged
  exact ⟨hreachable, hwatch, hnamed, ⟨s, hleft, true, hchanged⟩, hstep⟩

end Agent

end PlanningAgents
