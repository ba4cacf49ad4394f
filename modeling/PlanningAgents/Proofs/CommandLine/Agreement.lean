import PlanningAgents.Proofs.Simulation.Starts

/-!
# PlanningAgents.Proofs.CommandLine.Agreement

What is planned is what is simulated.  The command `plan` asks the planner of a single agent for a
plan.  The command `simulate` registers a definition, makes any number of entities, and lets them
act on a stage for a number of frames.

That both agree has three reasons.  The agent that is planned for is loaded from the data of the
definition alone, so that it is the agent of each entity but for its behaviour.  All entities are
made alike, so that they set out on the same plan.  And as none of them changes what another one
sees, each tick takes every one of them further by a tick.

Main statements:

* `Agent.loadDefinition_rebind` — behaviour is no part of what is loaded;
* `Stage.Peopled.addEntities` — entities that are made alike set out on the same plan;
* `Stage.AtWork.updates` — frames take every entity as many ticks further as are dispatched;
* `CommandLine.atWork_script` — a simulation of a type for which a plan has been found;
* `CommandLine.simulate_of_plan` — a plan that is printed is carried out by every entity.
-/

namespace PlanningAgents

open CommandLine

variable {W M : Type}

/-! ## what is loaded -/

namespace Agent

variable {a b : Agent W M}

/-- The agent with other behaviour. -/
def rebind (a : Agent W M) (bindings : Bindings W M) : Agent W M :=
  { a with definition.bindings := bindings }

theorem loadActions_rebind (a : Agent W M) (bindings : Bindings W M) (specs : List ActionSpec) :
    (a.rebind bindings).loadActions specs =
      ((a.loadActions specs).1, (a.loadActions specs).2.rebind bindings) := by
  have hbuild : (a.rebind bindings).buildPlanner specs = a.buildPlanner specs := rfl
  rw [loadActions, loadActions, hbuild]
  cases a.buildPlanner specs with
  | error e => rfl
  | ok built => rfl

theorem loadWorldState_rebind (a : Agent W M) (bindings : Bindings W M) (spec : EntityTypeSpec) :
    (a.rebind bindings).loadWorldState spec =
      ((a.loadWorldState spec).1, (a.loadWorldState spec).2.rebind bindings) := by
  have hencode : (a.rebind bindings).encodeType spec = a.encodeType spec := rfl
  rw [loadWorldState, loadWorldState, hencode]
  cases a.encodeType spec with
  | error e => rfl
  | ok encoded => rfl

/-- **Behaviour is no part of what is loaded.** -/
theorem loadDefinition_rebind (a : Agent W M) (bindings : Bindings W M) :
    (a.rebind bindings).loadDefinition =
      (a.loadDefinition.1, a.loadDefinition.2.rebind bindings) := by
  have htype : (a.rebind bindings).definition.data = a.definition.data := rfl
  have hentity : (a.rebind bindings).entityType = a.entityType := rfl
  rw [loadDefinition, loadDefinition, htype, hentity, loadActions_rebind]
  cases a.definition.data.entityTypes[a.entityType]? with
  | none => rfl
  | some spec =>
      simp only
      cases a.loadActions a.definition.data.actions with
      | mk result b =>
          cases result with
          | error e => rfl
          | ok done => exact loadWorldState_rebind b bindings spec

/-- The actions of a planner have their names from the action set. -/
theorem mem_actions_of_buildPlanner {specs : List ActionSpec} {planner : Planner}
    {states : Reencoded} (h : a.buildPlanner specs = .ok (planner, states)) :
    ∀ x ∈ planner.actions, x.name ∈ specs.map (·.name) := by
  obtain ⟨p, -, -, -, hrun, hplanner, -⟩ := steps_of_buildPlanner h
  obtain ⟨-, done, q, hrun', hq⟩ | ⟨-, e, herror⟩ :=
    Planner.needs_addSpecs specs a.blankPlanner (Planner.sound_blank _ _ _)
  · obtain rfl : p = q := congrArg Prod.snd (hrun.symm.trans hrun')
    intro x hx
    rw [hplanner] at hx
    have hnamed := List.mem_toFinset.mpr (List.mem_map_of_mem (f := (·.name)) hx)
    rw [hq.names] at hnamed
    exact List.mem_toFinset.mp hnamed
  · rw [hrun] at herror
    cases herror

/-- **A definition that has been loaded** declares the type of the agent, and the actions of the
planner are its actions. -/
theorem of_loadDefinition_eq_ok {entityType : String} {d : Definition W M} {config : AgentConfig}
    (h : (ofDefinition entityType d config).loadDefinition = (.ok (), a)) :
    entityType ∈ d.data.entityTypes ∧ a.definition = d ∧
      ∀ x ∈ a.planner.actions, x.name ∈ d.data.actions.map (·.name) := by
  rw [loadDefinition] at h
  have hdata : (ofDefinition entityType d config).definition.data = d.data := rfl
  have hentity : (ofDefinition entityType d config).entityType = entityType := rfl
  rw [hdata, hentity] at h
  cases htype : d.data.entityTypes[entityType]? with
  | none => rw [htype] at h; cases h
  | some spec =>
      refine ⟨SortedMap.mem_of_getElem? htype, ?_⟩
      rw [htype, loadActions] at h
      cases hbuild : (ofDefinition entityType d config).buildPlanner d.data.actions with
      | error e => rw [hbuild] at h; cases h
      | ok built =>
          obtain ⟨planner, states⟩ := built
          have hnames := mem_actions_of_buildPlanner hbuild
          rw [hbuild] at h
          simp only [loadWorldState] at h
          split at h
          · cases h
          · cases h
            exact ⟨rfl, hnames⟩

end Agent

/-! ## agents at work -/

namespace Stage

/-- An operation that is set about starts nothing by itself. -/
theorem startedBy_performed (e : EntityId) (h : List (Happening W M)) (op : Operation W M)
    (h' : List (Happening W M)) :
    startedBy e (h ++ .performed op :: h') = startedBy e h ++ startedBy e h' := by
  rw [startedBy_append]
  rfl

/-- **A stage on which agents are at work**: they keep to themselves, and each of them has worked at
the plan for the same number of ticks. -/
structure AtWork (planned : Agent Void Nat) (ticks total : Nat) (entities : List EntityId)
    (h : List (Happening Void Nat)) (s : Stage Void Nat) : Prop where
  isPrivate : s.Private
  calm : s.sim.commands.resetRequested = false
  running : s.sim.paused = false
  agents (e : EntityId) (he : e ∈ entities) : ∃ a, s.sim.agents[e]? = some a ∧
    planned.Worked ticks total (startedBy e h) a

variable {planned a : Agent Void Nat} {ticks total : Nat} {entities : List EntityId}
  {h : List (Happening Void Nat)} {s : Stage Void Nat} {e : EntityId}

/-- **An update** takes all agents one tick further, if a tick is dispatched. -/
theorem AtWork.update (hready : planned.PlanReady) (hwork : AtWork planned ticks total entities h s)
    (dt : Float32) :
    AtWork planned ticks (total + (s.sim.scheduler.advance dt).1.isSome.toNat) entities
        (h ++ .performed (.update dt) :: s.happenings (.update dt)) (s.update dt).2 ∧
      (s.update dt).2.sim.scheduler = (s.sim.scheduler.advance dt).2 := by
  have hadvance : s.advance dt = ((s.sim.scheduler.advance dt).1,
      s.mapSim ({ · with scheduler := (s.sim.scheduler.advance dt).2 })) := by
    rw [Stage.advance, hwork.running]
    rfl
  have hsurroundings := hwork.isPrivate.surroundings_update hwork.calm dt
  rw [hadvance] at hsurroundings
  have hcalm := congrArg (·.sim.commands.resetRequested) hsurroundings
  have hrunning := congrArg (·.sim.paused) hsurroundings
  have hscheduler := congrArg (·.sim.scheduler) hsurroundings
  refine ⟨⟨hwork.isPrivate.update dt, hcalm.trans hwork.calm, hrunning.trans hwork.running,
    fun e he => ?_⟩, hscheduler⟩
  obtain ⟨a, ha, hworked⟩ := hwork.agents e he
  rw [startedBy_performed]
  cases hdue : (s.sim.scheduler.advance dt).1 with
  | none =>
      rw [hdue] at hadvance
      refine ⟨a, ?_, ?_⟩
      · rw [update_eq, hadvance]
        exact ha
      · rw [happenings, hadvance]
        exact (List.append_nil (startedBy e h)).symm ▸ hworked
  | some tick =>
      rw [hdue] at hadvance
      obtain ⟨hagent, hstarted⟩ := hwork.isPrivate.agent_update ha rfl hwork.calm hadvance
      refine ⟨_, hagent, ?_⟩
      rw [hstarted]
      exact Turn.worked_step hready hworked

end Stage

/-- How many ticks are dispatched in a number of frames. -/
def Scheduler.dispatched (s : Scheduler) (dt : Float32) : Nat → Nat
  | 0 => 0
  | frames + 1 => (s.advance dt).1.isSome.toNat + (s.advance dt).2.dispatched dt frames

namespace Stage

variable {planned a : Agent Void Nat} {ticks total : Nat} {entities : List EntityId}
  {h : List (Happening Void Nat)} {s : Stage Void Nat} {e : EntityId}

/-- **Updates in a row** take all agents as many ticks further as are dispatched. -/
theorem AtWork.updates (hready : planned.PlanReady)
    (hwork : AtWork planned ticks total entities h s) (dt : Float32) (frames : Nat) :
    AtWork planned ticks (total + s.sim.scheduler.dispatched dt frames) entities
      (h ++ s.history (List.replicate frames (.update dt)))
      ((List.replicate frames (.update dt)).foldl Stage.perform s) := by
  induction frames generalizing s h total with
  | zero => simpa [Scheduler.dispatched, history] using hwork
  | succ frames ih =>
      obtain ⟨hnext, hscheduler⟩ := hwork.update hready dt
      have hrest := ih hnext
      rw [hscheduler, List.append_assoc] at hrest
      rw [List.replicate_succ, List.foldl_cons, history, Scheduler.dispatched, ← Nat.add_assoc]
      exact hrest

/-! ## agents that are made alike -/

/-- **A stage that is being peopled**: the entities that have been made have all set out on the same
plan, and the others have started nothing. -/
structure Peopled (base : Stage Void Nat) (planned : Agent Void Nat) (ticks : Nat)
    (made : List EntityId) (h : List (Happening Void Nat)) (s : Stage Void Nat) : Prop where
  isPrivate : s.Private
  surroundings : s.surroundings = base.surroundings
  agents (e : EntityId) (he : e ∈ made) : ∃ a, s.sim.agents[e]? = some a ∧
    planned.Worked ticks 0 (startedBy e h) a
  others (e : EntityId) (he : e ∉ made) : startedBy e h = []

section Spawns

variable {base : Stage Void Nat} {d : Definition Void Nat} {made : List EntityId}
  {entityType : String}

/-- **One more entity** sets out on the plan. -/
theorem Peopled.spawn (hpeople : Peopled base a.setOut ticks made h s)
    (hfound : base.definition? { entityType, overrides := none } = some d)
    (hload : base.load { entityType, overrides := none } d = (.ok (), a))
    (htimed : a.definition.Timed ticks) (hready : a.setOut.PlanReady)
    (hbound : ∀ name ∈ a.setOut.plan.actions,
      a.definition.bindings.actions[name]?.isSome = true) (hnew : e ∉ made) :
    (∃ outcome, (s.spawn e entityType none).1 = .ok outcome) ∧
      Peopled base a.setOut ticks (made ++ [e])
        (h ++ .performed (.spawn e entityType none) ::
          s.happenings (.spawn e entityType none)) (s.spawn e entityType none).2 := by
  have hconfig : s.sim.config = base.sim.config :=
    congrArg (·.sim.config) hpeople.surroundings
  rw [← definition?_of_eq (congrArg (·.sim.prototypes) hpeople.surroundings) hconfig] at hfound
  rw [← load_of_eq hconfig] at hload
  have hspawned := hpeople.isPrivate.spawn e entityType none
  obtain ⟨hok, hagent, hstarted⟩ := hpeople.isPrivate.spawn_of_ok hfound hload e
  refine ⟨hok, hspawned.isPrivate, hspawned.surroundings.trans hpeople.surroundings,
    fun e' he' => ?_, fun e' he' => ?_⟩
  · rw [startedBy_performed, happenings]
    by_cases hsame : e' = e
    · subst hsame
      refine ⟨_, hagent, ?_⟩
      rw [hpeople.others e' hnew, List.nil_append, hstarted]
      exact Turn.worked_launch (t := s.turn e' a s.sim.scheduler.last) htimed hready hbound
    · have hearlier : e' ∈ made :=
        (List.mem_append.mp he').resolve_right fun hmem => hsame (List.mem_singleton.mp hmem)
      obtain ⟨b, hb, hworked⟩ := hpeople.agents e' hearlier
      rw [hpeople.isPrivate.startedBy_spawning_of_ne (Ne.symm hsame), List.append_nil]
      exact ⟨b, (hspawned.agents e' hsame).trans hb, hworked⟩
  · rw [List.mem_append, not_or] at he'
    obtain ⟨hmade, hne⟩ := he'
    rw [startedBy_performed, happenings, hpeople.others e' hmade,
      hpeople.isPrivate.startedBy_spawning_of_ne fun heq => hne (List.mem_singleton.mpr heq.symm)]
    rfl

/-- An entity that can be made is made. -/
theorem addEntity_of_ok {outcome : Option PlanOutcome}
    (h : (s.spawn e entityType none).1 = .ok outcome) :
    addEntity entityType s e = .ok (s.spawn e entityType none).2 := by
  rw [addEntity]
  cases hspawn : s.spawn e entityType none with
  | mk spawned u =>
      rw [hspawn] at h
      obtain rfl : spawned = .ok outcome := h
      rfl

/-- **Entities that are numbered on** all set out on the plan. -/
theorem Peopled.addEntities (first count : Nat) (hpeople : Peopled base a.setOut ticks made h s)
    (hfound : base.definition? { entityType, overrides := none } = some d)
    (hload : base.load { entityType, overrides := none } d = (.ok (), a))
    (htimed : a.definition.Timed ticks) (hready : a.setOut.PlanReady)
    (hbound : ∀ name ∈ a.setOut.plan.actions,
      a.definition.bindings.actions[name]?.isSome = true)
    (hmade : ∀ e ∈ made, e.toNat < first) (hcount : first + count ≤ UInt64.size) :
    let entities := (List.range' first count).map Nat.toUInt64
    let spawns : List (Operation Void Nat) := entities.map fun e => .spawn e entityType none
    CommandLine.addEntities entityType first count s = .ok (spawns.foldl Stage.perform s) ∧
      Peopled base a.setOut ticks (made ++ entities) (h ++ s.history spawns)
        (spawns.foldl Stage.perform s) := by
  induction count generalizing s h made first with
  | zero =>
      refine ⟨rfl, ?_⟩
      simpa [history] using hpeople
  | succ count ih =>
      have hfirst : first.toUInt64.toNat = first := UInt64.toNat_ofNat_of_lt' (by omega)
      have hnew : first.toUInt64 ∉ made := by
        intro hmem
        have hless := hmade _ hmem
        omega
      obtain ⟨⟨outcome, hok⟩, hnext⟩ := hpeople.spawn hfound hload htimed hready hbound hnew
      obtain ⟨hadded, hpeopled⟩ := ih (first + 1) hnext (fun e he => by
        obtain he | he := List.mem_append.mp he
        · exact Nat.lt_succ_of_lt (hmade e he)
        · rw [List.mem_singleton.mp he, hfirst]
          exact Nat.lt_succ_self first) (by omega)
      rw [List.range'_succ]
      refine ⟨?_, ?_⟩
      · rw [CommandLine.addEntities, addEntity_of_ok hok]
        exact hadded
      · rw [List.append_assoc, List.append_assoc] at hpeopled
        exact hpeopled

end Spawns

end Stage

/-! ## what is registered -/

/-- What has handlers that do nothing keeps to itself. -/
theorem private_timedAction (ticks : Nat) : (timedAction ticks).Private where
  start := Handler.private_done _
  resume left := by
    cases left with
    | zero => exact Handler.private_done _
    | succ left => exact Handler.private_done _
  finish := Handler.private_done _
  abort _ := Handler.private_done _

/-- Agents whose actions take their time keep to themselves. -/
theorem Definition.Timed.isPrivate {d : Definition Void Nat} {ticks : Nat} (h : d.Timed ticks) :
    d.Private where
  actions hbound := h.actions hbound ▸ private_timedAction ticks
  goalSelectors hbound := by
    rw [h.goalSelectors] at hbound
    cases hbound
  updaters u hu := by
    rw [h.updaters] at hu
    cases hu
  blackboardInit hbound := by
    rw [h.blackboardInit] at hbound
    cases hbound
  noPlan hbound := by
    rw [h.noPlan] at hbound
    cases hbound

/-- An agent without a seeding of its own gets none where none are bound. -/
theorem Definition.Timed.withDefaultBlackboardInit {d : Definition Void Nat} {ticks : Nat}
    (h : d.Timed ticks) (s : Simulation Void Nat) (entityType : String) :
    s.withDefaultBlackboardInit entityType d = d := by
  rw [Simulation.withDefaultBlackboardInit, h.blackboardInit]
  split
  · rfl
  · rfl

namespace CommandLine

variable {config : SimulationConfig} {data : DefinitionData} {entityType : String}
  {actionTicks : Nat} {a : Agent Void Nat}

/-- The stage on which a simulation begins. -/
def opening (config : SimulationConfig) : Stage Void Nat := { sim := .ofConfig config, world := {} }

/-- The entities of a simulation. -/
def entities (count : Nat) : List EntityId := (List.range' 1 count).map Nat.toUInt64

/-- **A simulation** as operations on a stage. -/
def script (config : SimulationConfig) (data : DefinitionData) (entityType : String)
    (ticks actionTicks count : Nat) : List (Operation Void Nat) :=
  .registerDefinition (timedDefinition data actionTicks) ::
    ((entities count).map (fun e => .spawn e entityType none) ++
      List.replicate ticks (.update config.tickRate))

/-- Frames in a row are updates in a row. -/
theorem repeat_update (ticks : Nat) (s : Stage Void Nat) (dt : Float32) :
    ticks.repeat (fun s => (s.update dt).2) s =
      (List.replicate ticks (.update dt)).foldl Stage.perform s := by
  induction ticks generalizing s with
  | zero => rfl
  | succ ticks ih =>
      rw [List.replicate_succ', List.foldl_append, ← ih]
      rfl

/-- The definition of a simulation has the data that it is made of. -/
theorem timedDefinition_eq (data : DefinitionData) (ticks : Nat) :
    timedDefinition data ticks = { data, bindings := (timedDefinition data ticks).bindings } := by
  have hdata := (Definition.timed_timedDefinition data ticks).2.1
  generalize timedDefinition data ticks = d at hdata ⊢
  rw [← hdata]

/-- In a simulation the agent that is planned for is loaded, with the behaviour of the
simulation. -/
theorem load_opening
    (hload : (Agent.ofDefinition entityType { data } config.agent).loadDefinition = (.ok (), a))
    (actionTicks : Nat) :
    let d := timedDefinition data actionTicks
    let base := (opening config).perform (.registerDefinition d)
    base.definition? { entityType, overrides := none } = some d ∧
      base.load { entityType, overrides := none } d = (.ok (), a.rebind d.bindings) := by
  intro d base
  obtain ⟨htimed, hdata, -⟩ := Definition.timed_timedDefinition data actionTicks
  have htype := (Agent.of_loadDefinition_eq_ok hload).1
  constructor
  · have hserved : base.sim.prototypes[entityType]? = some d :=
      (Simulation.getElem?_registerDefinition _ d entityType).trans (if_pos (hdata.symm ▸ htype))
    rw [Stage.definition?, hserved]
    exact congrArg some (htimed.withDefaultBlackboardInit _ _)
  · have hconfig : base.sim.config = config :=
      (Stage.registerDefinition_eq (opening config).sim d).2
    have hrebind : Agent.ofDefinition entityType d config.agent =
        (Agent.ofDefinition entityType { data } config.agent).rebind d.bindings :=
      congrArg (Agent.ofDefinition entityType · config.agent) (timedDefinition_eq data actionTicks)
    rw [Stage.load, hconfig, hrebind, Agent.loadDefinition_rebind, hload]

/-- The stage on which a definition has been registered before any entity is made. -/
theorem peopled_opening (config : SimulationConfig) {d : Definition Void Nat} {ticks : Nat}
    (htimed : d.Timed ticks) (planned : Agent Void Nat) :
    let base := (opening config).perform (.registerDefinition d)
    Stage.Peopled base planned ticks [] [.performed (.registerDefinition d)] base := by
  intro base
  have hempty : (opening config).Private :=
    ⟨fun ha => (nomatch ha), fun hd => (nomatch hd), rfl⟩
  exact ⟨hempty.registerDefinition htimed.isPrivate, rfl, fun e he => absurd he List.not_mem_nil,
    fun e _ => rfl⟩

/-- Until the first update nothing is asked for, nothing is paused and no time has passed. -/
theorem calm_of_surroundings_eq {d : Definition Void Nat} {s : Stage Void Nat}
    (h : s.surroundings = ((opening config).perform (.registerDefinition d)).surroundings) :
    s.sim.commands.resetRequested = false ∧ s.sim.paused = false ∧
      s.sim.scheduler = .ofInterval config.tickRate := by
  have haside := Simulation.registerDefinition_aside (opening config).sim d
  have hcommands := (congrArg (·.sim.commands.resetRequested) h).trans
    (congrArg (·.commands.resetRequested) haside)
  have hpaused := (congrArg (·.sim.paused) h).trans (congrArg (·.paused) haside)
  have hscheduler := (congrArg (·.sim.scheduler) h).trans (congrArg (·.scheduler) haside)
  exact ⟨hcommands, hpaused, hscheduler⟩

/-- The agent of a simulation has the behaviour of the simulation, and can set out on a plan that
has been found: there are handlers for each of its actions. -/
theorem ready_rebind
    (hload : (Agent.ofDefinition entityType { data } config.agent).loadDefinition = (.ok (), a))
    (hfound : (a.planner.plan a.current a.goal).outcome = .found) (actionTicks : Nat) :
    let b := a.rebind (timedDefinition data actionTicks).bindings
    b.definition = timedDefinition data actionTicks ∧ b.setOut.PlanReady ∧
      ∀ name ∈ b.setOut.plan.actions, b.definition.bindings.actions[name]?.isSome = true := by
  intro b
  obtain ⟨-, hdefinition, hnames⟩ := Agent.of_loadDefinition_eq_ok hload
  have hreachable := (Agent.Reachable.ofDefinition (M := Nat) entityType
    ({ data } : Definition Void Nat) config.agent).loadDefinition
  rw [hload] at hreachable
  have hbuilt := hreachable.atRest.built
  have hbehaviour : b.definition = timedDefinition data actionTicks := by
    rw [timedDefinition_eq]
    exact congrArg ({ · with bindings := (timedDefinition data actionTicks).bindings }) hdefinition
  refine ⟨hbehaviour, ⟨hbuilt, rfl, rfl, hfound⟩, fun name hname => ?_⟩
  obtain ⟨x, hx⟩ := Planner.action?_of_mem_planWithCap hbuilt hname
  obtain ⟨hmem, rfl⟩ := Planner.action?_eq_some hx
  rw [hbehaviour]
  exact (Definition.timed_timedDefinition data actionTicks).2.2 _ (hnames x hmem)

/-- **The simulation of a plan.**  Where a plan has been found for a type, the entities of this type
can be made, and then each of them goes by that plan. -/
theorem atWork_script
    (hload : (Agent.ofDefinition entityType { data } config.agent).loadDefinition = (.ok (), a))
    (hfound : (a.planner.plan a.current a.goal).outcome = .found) (actionTicks ticks : Nat)
    {count : Nat} (hcount : count < UInt64.size) :
    let planned := (a.rebind (timedDefinition data actionTicks).bindings).setOut
    let ops := script config data entityType ticks actionTicks count
    let stage := ops.foldl Stage.perform (opening config)
    perform config data entityType ticks actionTicks count = .ok stage ∧ planned.PlanReady ∧
      Stage.AtWork planned actionTicks
        ((Scheduler.ofInterval config.tickRate).dispatched config.tickRate ticks)
        (entities count) ((opening config).history ops) stage := by
  intro planned ops stage
  have htimed := (Definition.timed_timedDefinition data actionTicks).1
  obtain ⟨hmade, hloaded⟩ := load_opening hload actionTicks
  obtain ⟨hbehaviour, hready, hbound⟩ := ready_rebind hload hfound actionTicks
  obtain ⟨hadded, hpeopled⟩ := Stage.Peopled.addEntities 1 count
    (peopled_opening config htimed planned) hmade hloaded (hbehaviour ▸ htimed) hready hbound
    (fun e he => absurd he List.not_mem_nil) (by omega)
  obtain ⟨hcalm, hrunning, hscheduler⟩ := calm_of_surroundings_eq hpeopled.surroundings
  have hwork := Stage.AtWork.updates hready
    ⟨hpeopled.isPrivate, hcalm, hrunning, hpeopled.agents⟩ config.tickRate ticks
  rw [hscheduler, Nat.zero_add, List.append_assoc, ← Stage.history_append, ← List.foldl_append]
    at hwork
  refine ⟨?_, hready, hwork⟩
  have hperform : perform config data entityType ticks actionTicks count =
      (addEntities entityType 1 count
        ((opening config).perform (.registerDefinition (timedDefinition data actionTicks)))).map
        (ticks.repeat fun s => (s.update config.tickRate).2) := rfl
  rw [hperform, hadded, Except.map, repeat_update, ← List.foldl_append]
  rfl

/-! ## the commands -/

/-- **A plan that is printed** has been found for the agent that is loaded for the type. -/
theorem of_plan_eq_ok {files : Files} {defs printed : String}
    (hplan : plan files config defs entityType [] = .ok printed)
    (hsteps : printed ≠ line "already at goal") :
    ∃ data a, load files .definitions defs = .ok data ∧
      (Agent.ofDefinition entityType { data } config.agent).loadDefinition = (.ok (), a) ∧
      let p := a.planner.plan a.current a.goal
      p.outcome = .found ∧ describePlan a p = .ok printed := by
  rw [plan] at hplan
  cases hdata : (load files .definitions defs : Except ErrorChain DefinitionData) with
  | error e => rw [hdata] at hplan; cases hplan
  | ok data =>
      rw [hdata] at hplan
      cases hload : (Agent.ofDefinition entityType ({ data } : Definition Void Nat)
          config.agent).loadDefinition with
      | mk loaded a =>
          simp only [bind, Except.bind, hload] at hplan
          cases loaded with
          | error e => cases hplan
          | ok done =>
              change describePlan a (a.planner.plan a.current a.goal) = .ok printed at hplan
              refine ⟨data, a, rfl, hload, ?_, hplan⟩
              rw [describePlan] at hplan
              split at hplan
              · exact absurd (Except.ok.inj hplan).symm hsteps
              · cases hplan
              · cases hplan
              · assumption

/-- What can be reported of each entity can be reported of all. -/
theorem mapM_eq_ok {α β ε : Type} {f : α → Except ε β} {xs : List α}
    (h : ∀ x ∈ xs, ∃ y, f x = .ok y) : ∃ ys, xs.mapM f = .ok ys := by
  induction xs with
  | nil => exact ⟨[], rfl⟩
  | cons x rest ih =>
      obtain ⟨y, hy⟩ := h x List.mem_cons_self
      obtain ⟨ys, hys⟩ := ih fun x' hx' => h x' (List.mem_cons_of_mem x hx')
      refine ⟨y :: ys, ?_⟩
      rw [List.mapM_cons, hy, hys]
      rfl

theorem report_of_some {s : Simulation Void Nat} {e : EntityId} {b : Agent Void Nat}
    (h : s.agents[e]? = some b) (json : Bool) : ∃ text, report s json e = .ok text := by
  have hagent : s.agent e = .ok b := by rw [Simulation.agent, h]
  rw [report, Simulation.describeAgent, hagent]
  exact ⟨_, rfl⟩

/-- A simulation in which every entity has an agent is reported. -/
theorem simulate_of_perform {files : Files} {defs : String} {ticks count : Nat}
    {stage : Stage Void Nat} (hdata : load files .definitions defs = .ok data)
    (htype : entityType ∈ data.entityTypes)
    (hperform : perform config data entityType ticks actionTicks count = .ok stage)
    (hagents : ∀ e ∈ entities count, ∃ b, stage.sim.agents[e]? = some b) (json : Bool) :
    ∃ output, simulate files config defs entityType ticks actionTicks count json = .ok output := by
  obtain ⟨texts, htexts⟩ := mapM_eq_ok (f := report stage.sim json) fun e he =>
    (hagents e he).elim fun _ hb => report_of_some hb json
  rw [entities] at htexts
  rw [simulate, hdata]
  simp only [bind, Except.bind, Std.ExtTreeMap.contains_iff_mem.mpr htype, Bool.not_true,
    Bool.false_eq_true, if_false, hperform, htexts]
  split
  · exact ⟨_, rfl⟩
  · exact ⟨_, rfl⟩

/-- **An entity is on its way** through a plan, of which so many actions can be done by now: its
state is the one that the plan expects then, and it has started these actions and the next one, in
order and each of them once. -/
def OnItsWay (p : Plan) (start goal : WorldState) (done : Nat) (s : Stage Void Nat)
    (h : List (Happening Void Nat)) (e : EntityId) : Prop :=
  ∃ b, s.sim.agents[e]? = some b ∧ (start :: p.states)[min done p.length]? = some b.current ∧
    b.goal = goal ∧ startedBy e h = p.actions.take (done + 1)

/-- **An entity has carried out a plan**: its state is the last one that the plan expects, which
meets its goal, and it has started the actions of the plan, in order and each of them once. -/
def CarriedOut (p : Plan) (goal : WorldState) (s : Stage Void Nat)
    (h : List (Happening Void Nat)) (e : EntityId) : Prop :=
  ∃ b, s.sim.agents[e]? = some b ∧ p.states.getLast? = some b.current ∧ b.goal = goal ∧
    b.current.meets goal = true ∧ startedBy e h = p.actions

/-- **What is planned is what is simulated.**  If a plan with steps is printed for a type of
entities, then any number of them can be made in a simulation, and each of them goes by that plan,
an action after the other.  Once as many ticks have been dispatched as the actions of the plan
take, each entity has carried it out. -/
theorem simulate_of_plan {files : Files} {defs printed : String}
    (hplan : plan files config defs entityType [] = .ok printed)
    (hsteps : printed ≠ line "already at goal") :
    ∃ data a, load files .definitions defs = .ok data ∧
      (Agent.ofDefinition entityType { data } config.agent).loadDefinition = (.ok (), a) ∧
      let p := a.planner.plan a.current a.goal
      1 ≤ p.length ∧ describePlan a p = .ok printed ∧
      ∀ ticks actionTicks count json, count < UInt64.size →
        let total := (Scheduler.ofInterval config.tickRate).dispatched config.tickRate ticks
        let ops := script config data entityType ticks actionTicks count
        let stage := ops.foldl Stage.perform (opening config)
        (∃ output, simulate files config defs entityType ticks actionTicks count json =
          .ok output) ∧
        perform config data entityType ticks actionTicks count = .ok stage ∧
        ∀ e ∈ entities count,
          OnItsWay p a.current a.goal (total / (actionTicks + 1)) stage
            ((opening config).history ops) e ∧
          (p.length * (actionTicks + 1) ≤ total →
            CarriedOut p a.goal stage ((opening config).history ops) e) := by
  obtain ⟨data, a, hdata, hload, hfound, hprinted⟩ := of_plan_eq_ok hplan hsteps
  refine ⟨data, a, hdata, hload, ?_, hprinted, ?_⟩
  · exact List.length_pos_iff.mpr (Plan.actions_ne_nil_of_found hfound)
  intro ticks actionTicks count json hcount total ops stage
  obtain ⟨hperform, hready, hwork⟩ := atWork_script hload hfound actionTicks ticks hcount
  have htype := (Agent.of_loadDefinition_eq_ok hload).1
  have hagents (e : EntityId) (he : e ∈ entities count) := (hwork.agents e he).imp fun _ h => h.1
  refine ⟨simulate_of_perform hdata htype hperform hagents json, hperform, fun e he => ?_⟩
  obtain ⟨b, hb, hworked⟩ := hwork.agents e he
  constructor
  · obtain ⟨hexpected, hgoal, hstarted⟩ := hworked.progress hready
    exact ⟨b, hb, hexpected, hgoal, hstarted⟩
  · intro henough
    obtain ⟨hlast, hgoal, hmeets, hstarted⟩ := hworked.finished hready henough
    exact ⟨b, hb, hlast, hgoal, hgoal ▸ hmeets, hstarted⟩

/-- Settlers who have to dig for what they drink. -/
def settlers : DefinitionData where
  actions :=
    [ { name := "dig", post := .ofList [("water", true)] },
      { name := "drink", pre := .ofList [("water", true)], post := .ofList [("sated", true)] } ]
  entityTypes := .ofList [("settler", ({ goal := .ofList [("sated", true)] } : EntityTypeSpec))]

/-- A file that describes the settlers. -/
def settlerFiles : Files where
  entry path :=
    if path = "settlers.json" then .text settlers.toJson.write else .missing

/-- What is planned for a settler is what two of them do, when each action takes three ticks: after
six frames, in each of which a tick is dispatched, they have dug and drunk. -/
theorem simulate_of_plan_settlers :
    ∃ printed, plan settlerFiles {} "settlers.json" "settler" [] = .ok printed ∧
      printed ≠ line "already at goal" ∧
      ∃ data a, load settlerFiles .definitions "settlers.json" = .ok data ∧
        (Agent.ofDefinition "settler" { data } {}).loadDefinition = (.ok (), a) ∧
        let p := a.planner.plan a.current a.goal
        p.length = 2 ∧ describePlan a p = .ok printed ∧
        let ops := script {} data "settler" 6 2 2
        let stage := ops.foldl Stage.perform (opening {})
        (Scheduler.ofInterval ({} : SimulationConfig).tickRate).dispatched
          ({} : SimulationConfig).tickRate 6 = 6 ∧
        ∀ e ∈ [(1 : EntityId), 2],
          OnItsWay p a.current a.goal 2 stage ((opening {}).history ops) e ∧
          CarriedOut p a.goal stage ((opening {}).history ops) e := by
  have hplan : plan settlerFiles {} "settlers.json" "settler" [] = .ok ("plan cost = 2\n" ++
      "0: dig                 WATER\n" ++ "1: drink               WATER,SATED\n") := by
    decide +kernel
  have hsteps : "plan cost = 2\n" ++ "0: dig                 WATER\n" ++
      "1: drink               WATER,SATED\n" ≠ line "already at goal" := by
    decide +kernel
  have htotal : (Scheduler.ofInterval ({} : SimulationConfig).tickRate).dispatched
      ({} : SimulationConfig).tickRate 6 = 6 := by
    decide +kernel
  obtain ⟨data, a, hdata, hload, -, hprinted, hsimulated⟩ := simulate_of_plan hplan hsteps
  have hlength : (a.planner.plan a.current a.goal).length = 2 := by
    have hsome : (load settlerFiles .definitions "settlers.json").toOption.map (fun data =>
        let a : Agent Void Nat := (Agent.ofDefinition "settler" { data } {}).loadDefinition.2
        (a.planner.plan a.current a.goal).length) = some 2 := by
      decide +kernel
    rw [hdata] at hsome
    simpa only [Except.toOption, Option.map_some, hload, Option.some.injEq] using hsome
  have hsix := (hsimulated 6 2 2 false (by decide)).2.2
  rw [htotal] at hsix
  refine ⟨_, hplan, hsteps, data, a, hdata, hload, hlength, hprinted, htotal, fun e he => ?_⟩
  obtain ⟨hway, hdone⟩ := hsix e he
  exact ⟨hway, hdone (by rw [hlength])⟩

end CommandLine

end PlanningAgents
