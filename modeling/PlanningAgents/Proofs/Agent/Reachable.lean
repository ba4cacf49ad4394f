import PlanningAgents.Proofs.Agent.Parts
import PlanningAgents.Proofs.Planner.Execution

/-!
# PlanningAgents.Proofs.Agent.Reachable

The agents that there can be: each starts as an agent into which nothing has been loaded, and has
then been loaded, written to and called any number of times, in any order, whether or not that
succeeded.  The calls come from any entity, tick and world, with any handlers behind them.

Main statements:

* `Agent.Reachable` — what can become of an agent;
* `Agent.built_of_buildPlanner` — the planner of an action set is put together by its operations.
-/

namespace PlanningAgents

variable {W M : Type}

namespace Agent

/-- An agent that came about by its own operations. -/
inductive Reachable : Agent W M → Prop
  | ofDefinition (entityType : String) (definition : Definition W M) (config : AgentConfig) :
      Reachable (.ofDefinition entityType definition config)
  | loadDefinition {a : Agent W M} (h : Reachable a) : Reachable a.loadDefinition.2
  | loadActions {a : Agent W M} (h : Reachable a) (specs : List ActionSpec) :
      Reachable (a.loadActions specs).2
  | loadWorldState {a : Agent W M} (h : Reachable a) (spec : EntityTypeSpec) :
      Reachable (a.loadWorldState spec).2
  | setAtom {a : Agent W M} (h : Reachable a) (atom : String) (value : Bool) :
      Reachable (a.setAtom atom value).2
  | patchAtom {a : Agent W M} (h : Reachable a) (atom : String) (value : Bool) :
      Reachable (a.patchAtom atom value).2
  | encode {a : Agent W M} (h : Reachable a) (pairs : List (String × Bool)) :
      Reachable (a.encode pairs).2
  | setGoal {a : Agent W M} (h : Reachable a) (pairs : List (String × Bool)) :
      Reachable (a.setGoal pairs).2
  | mergeGoal {a : Agent W M} (h : Reachable a) (pairs : List (String × Bool)) :
      Reachable (a.mergeGoal pairs).2
  | changeBlackboard {a : Agent W M} (h : Reachable a) (f : Blackboard → Blackboard) :
      Reachable { a with blackboard := f a.blackboard }
  | changeTrace {a : Agent W M} (h : Reachable a) (f : TraceBuffer → TraceBuffer) :
      Reachable { a with trace := f a.trace }
  | launch {t : Turn W M} (h : Reachable t.agent) (hbegin : t.seeded = false) :
      Reachable t.launch.2.agent
  | step {t : Turn W M} (h : Reachable t.agent) (hbegin : t.seeded = false) :
      Reachable t.step.2.agent
  | replan {t : Turn W M} (h : Reachable t.agent) (hbegin : t.seeded = false) :
      Reachable t.replan.2.agent
  | replanTo {t : Turn W M} (h : Reachable t.agent) (hbegin : t.seeded = false) (goal : WorldState)
      (merge : Bool) : Reachable (t.replanTo goal merge).2.agent
  | interrupt {t : Turn W M} (h : Reachable t.agent) (hbegin : t.seeded = false) :
      Reachable t.interrupt.2.agent

variable {a b : Agent W M}

/-! ## operations that handlers have too -/

theorem kept_setAtom (a : Agent W M) (atom : String) (value : Bool) :
    (a.setAtom atom value).2.kept = a.kept := by
  rw [setAtom]
  split
  · rfl
  · rfl

theorem kept_patchAtom (a : Agent W M) (atom : String) (value : Bool) :
    (a.patchAtom atom value).2.kept = a.kept := by
  rw [patchAtom]
  split
  · rfl
  · rfl

theorem kept_encode (a : Agent W M) (pairs : List (String × Bool)) :
    (a.encode pairs).2.kept = a.kept := rfl

theorem kept_setGoal (a : Agent W M) (pairs : List (String × Bool)) :
    (a.setGoal pairs).2.kept = a.kept := by
  have hencode := kept_encode a pairs
  rw [setGoal]
  split
  · next goal b heq => exact (congrArg (·.2.kept) heq).symm.trans hencode
  · next e b heq => exact (congrArg (·.2.kept) heq).symm.trans hencode

theorem kept_mergeGoal (a : Agent W M) (pairs : List (String × Bool)) :
    (a.mergeGoal pairs).2.kept = a.kept := by
  have hencode := kept_encode a pairs
  rw [mergeGoal]
  split
  · next patch b heq => exact (congrArg (·.2.kept) heq).symm.trans hencode
  · next e b heq => exact (congrArg (·.2.kept) heq).symm.trans hencode

/-! ## loading -/

/-- The planner of an action set is put together by its operations. -/
theorem built_of_buildPlanner {specs : List ActionSpec} {planner : Planner} {states : Reencoded}
    (h : a.buildPlanner specs = .ok (planner, states)) : planner.Built := by
  rw [buildPlanner] at h
  obtain ⟨_, -, h⟩ := bind_eq_ok_iff.mp h
  obtain ⟨current, -, h⟩ := bind_eq_ok_iff.mp h
  obtain ⟨cached, -, h⟩ := bind_eq_ok_iff.mp h
  obtain ⟨planStart, -, h⟩ := bind_eq_ok_iff.mp h
  obtain ⟨goal, -, h⟩ := bind_eq_ok_iff.mp h
  obtain ⟨rfl, -⟩ := Prod.mk.inj (Except.ok.inj h)
  exact .withAtoms (.addSpecs (.empty _ _) specs) _

/-! ## a traveller at the river -/

/-- The behaviour of an action that is parked once before it succeeds. -/
def twoTicks : ActionHandlers Unit Bool where
  fresh := false
  resume parked := .done (if parked then .returned .success else .yielded true)

/-- Travellers start on the near bank and want to get home. -/
def riverTraveller : EntityTypeSpec where
  initial := .ofList
    [("across", false), ("raft_launched", false), ("raft_built", false), ("home", false)]
  goal := .ofList [("home", true)]

/-- The river with behaviour for all but the launching of the raft. -/
def riverDefinition : Definition Unit Bool where
  data :=
    { actions := Planner.riverSpecs
      entityTypes := .ofList [("traveller", riverTraveller)] }
  bindings := { actions := .ofList (["build_raft", "row", "walk_home"].map (·, twoTicks)) }

/-- The beginning of a call at time zero, in a world where nothing happens. -/
def idleTurn (a : Agent Unit Bool) : Turn Unit Bool :=
  { agent := a, entity := 1, tick := {}, world := (), commands := {} }

theorem Reachable.launch_idle {a : Agent Unit Bool} (h : a.Reachable) :
    (idleTurn a).launch.2.agent.Reachable := .launch h rfl

theorem Reachable.step_idle {a : Agent Unit Bool} (h : a.Reachable) :
    (idleTurn a).step.2.agent.Reachable := .step h rfl

/-- A traveller who has set to work. -/
def traveller : Agent Unit Bool :=
  (idleTurn (ofDefinition "traveller" riverDefinition {}).loadDefinition.2).launch.2.agent

/-- The traveller after a tick, with the work on the raft parked. -/
def travellerAtWork : Agent Unit Bool := (idleTurn traveller).step.2.agent

theorem reachable_traveller : traveller.Reachable := by
  rw [traveller]
  exact (Reachable.ofDefinition _ _ _).loadDefinition.launch_idle

theorem reachable_travellerAtWork : travellerAtWork.Reachable := by
  rw [travellerAtWork]
  exact reachable_traveller.step_idle

end Agent

end PlanningAgents
