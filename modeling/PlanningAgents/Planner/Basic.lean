import PlanningAgents.Config
import PlanningAgents.Definition.Spec
import PlanningAgents.Planner.Search

/-!
# PlanningAgents.Planner

A planner holds the actions that can be taken, in the order in which they were registered, and
names the atoms of its world states.  Registering goes on until something does not fit, and what
has been registered by then stays.
-/

namespace PlanningAgents

/-- The actions to plan with and the names of the atoms. -/
structure Planner where
  atoms : AtomTable := {}
  actions : List PlannerAction := []
  config : PlannerConfig := {}
  deriving DecidableEq, Inhabited

namespace Planner

/-- The action with a name. -/
def action? (p : Planner) (name : String) : Option PlannerAction :=
  p.actions.find? (·.name = name)

/-- Forgets every action and atom. -/
def clear (p : Planner) : Planner := { p with atoms := p.atoms.clear, actions := [] }

/-- Changes the action with a name. -/
def modifyAction (p : Planner) (name : String) (f : PlannerAction → PlannerAction) : Planner :=
  { p with actions := p.actions.map fun a => if a.name = name then f a else a }

/-- Makes sure that there is an action with a name. -/
def ensureAction (name : String) : Attempt Planner Unit := do
  let p ← get
  if (p.action? name).isSome then return
  if maxActions ≤ p.actions.length then throw (.actionCapExceeded name maxActions)
  set { p with actions := p.actions ++ [({ name } : PlannerAction)] }

/-- Makes sure that an atom has a number, and gives it. -/
def registerAtom (name : String) : Attempt Planner Nat := do
  let p ← get
  let (i, atoms) ← (p.atoms.register name : Except AgentError _)
  set { p with atoms }
  return i

/-- Sets what an action costs. -/
def setCost (action : String) (cost : UInt32) : Attempt Planner Unit := do
  ensureAction action
  modify (·.modifyAction action ({ · with cost }))

/-- Adds a precondition to an action. -/
def setPre (action atom : String) (value : Bool) : Attempt Planner Unit := do
  ensureAction action
  let i ← registerAtom atom
  modify (·.modifyAction action fun a => { a with pre := a.pre.set i value })

/-- Adds an effect to an action. -/
def setPost (action atom : String) (value : Bool) : Attempt Planner Unit := do
  ensureAction action
  let i ← registerAtom atom
  modify (·.modifyAction action fun a => { a with post := a.post.set i value })

/-- Adds one authored action: its cost, its preconditions, then its effects. -/
def addSpec (spec : ActionSpec) : Attempt Planner Unit := do
  setCost spec.name spec.cost
  spec.pre.toList.forM fun p => setPre spec.name p.1 p.2
  spec.post.toList.forM fun p => setPost spec.name p.1 p.2

/-- Adds authored actions in order.  Specs of one name add up to one action. -/
def addSpecs (specs : List ActionSpec) : Attempt Planner Unit := specs.forM addSpec

/-- Every action that applies in a state, by its place, with the state it leads to. -/
def transitions (p : Planner) (s : WorldState) : List (Nat × WorldState) :=
  (p.actions.zipIdx.filter fun a => s.meets a.1.pre).map fun a => (a.2, s.apply a.1.post)

/-- The cheapest plan from `start` to `goal` of at most `cap` actions. -/
def planWithCap (p : Planner) (start goal : WorldState) (cap : Nat) : Plan :=
  if start.meets goal then .atGoal cap
  else if cap = 0 then .notFound cap
  else
    let problem : SearchProblem := { actions := p.actions, goal, cap }
    match problem.solve start p.config.maxExpansions.toNat with
    | .found n => n.toPlan cap
    | .exhausted | .overBudget => .notFound cap

/-- The longest plan that the settings allow. -/
def maxPlanLen (p : Planner) : Nat := p.config.maxPlanLen.toNat

/-- The cheapest plan of a length that the settings allow. -/
def plan (p : Planner) (start goal : WorldState) : Plan := p.planWithCap start goal p.maxPlanLen

/-- One line for every atom that a state specifies. -/
def describeState (p : Planner) (relation : String) (s : WorldState) : String :=
  String.join ((p.atoms.read s).map fun a =>
    "  " ++ a.1 ++ relation ++ (if a.2 then "1" else "0") ++ "\n")

/-- A block of lines for every action: its name, its preconditions and its effects. -/
def describe (p : Planner) : String :=
  String.join (p.actions.map fun a =>
    a.name ++ ":\n" ++ p.describeState "==" a.pre ++ p.describeState ":=" a.post)

end Planner

end PlanningAgents
