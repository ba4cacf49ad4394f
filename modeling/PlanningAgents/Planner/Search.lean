import PlanningAgents.Planner.Frontier
import PlanningAgents.Planner.Plan
import PlanningAgents.SortedMap

/-!
# PlanningAgents.Planner.Search

Best-first search for a cheapest way from one world state to another.  Open states wait in a
frontier, ordered by the cost of the way so far plus the number of goal atoms that still differ.
For every state met the cheapest known cost is kept: a way that is not cheaper is not opened, and
an open entry whose state has become cheaper meanwhile is passed over when its turn comes.

Actions are tried in the order of the list, which also decides between entries of equal promise,
so a query always has the same answer.  Costs saturate at `costLimit`.

Main statements:

* `SearchNode.length_actions` — a node lies as deep as its way has actions.
-/

namespace PlanningAgents

/-- Costs stop growing here. -/
def costLimit : Nat := UInt32.size - 1

/-- Adds costs. -/
def addCost (a b : Nat) : Nat := min costLimit (a + b)

/-- What is asked of a search. -/
structure SearchProblem where
  actions : List PlannerAction
  goal : WorldState
  /-- Ways of this many actions are not made longer. -/
  cap : Nat

/-- A state together with the way that led to it. -/
inductive SearchNode where
  | start (state : WorldState)
  | step (parent : SearchNode) (action : PlannerAction) (state : WorldState) (cost depth : Nat)
  deriving Inhabited

namespace SearchNode

/-- The state at the end of the way. -/
def state : SearchNode → WorldState
  | .start s => s
  | .step _ _ s _ _ => s

/-- The cost of the way. -/
def cost : SearchNode → Nat
  | .start _ => 0
  | .step _ _ _ c _ => c

/-- The number of actions on the way. -/
def depth : SearchNode → Nat
  | .start _ => 0
  | .step _ _ _ _ d => d

/-- The node that an action leads to. -/
def extend (n : SearchNode) (a : PlannerAction) : SearchNode :=
  .step n a (n.state.apply a.post) (addCost n.cost a.cost.toNat) (n.depth + 1)

/-- The actions and the states behind the start, the last one first. -/
def trail : SearchNode → List (PlannerAction × WorldState)
  | .start _ => []
  | .step p a s _ _ => (a, s) :: p.trail

/-- The way as a plan. -/
def toPlan (n : SearchNode) (cap : Nat) : Plan :=
  { actions := (n.trail.map (·.1.name)).reverse
    states := (n.trail.map (·.2)).reverse
    cost := min n.cost Int32.maxValue.toInt.toNat
    cap }

end SearchNode

/-- A search under way. -/
structure Search where
  frontier : Frontier SearchNode
  /-- The cheapest known cost of every state met. -/
  best : SortedMap WorldState Nat
  /-- How many entries have been opened. -/
  opened : Nat

/-- How a search ended. -/
inductive SearchEnd where
  | found (node : SearchNode)
  /-- Nothing is open any more. -/
  | exhausted
  /-- Something is open, but the budget is used up. -/
  | overBudget

namespace Search

/-- Opens a node at its estimate. -/
def openNode (goal : WorldState) (s : Search) (n : SearchNode) : Search :=
  let rest := n.state.distanceTo goal
  { frontier := s.frontier.insert
      { total := addCost n.cost rest, rest, serial := s.opened, item := n }
    best := s.best.insert n.state n.cost
    opened := s.opened + 1 }

/-- The search that has only its start open. -/
def init (p : SearchProblem) (start : WorldState) : Search :=
  openNode p.goal { frontier := .empty, best := ∅, opened := 0 } (.start start)

/-- The cheapest known cost of a state. -/
def bestCost (s : Search) (state : WorldState) : Nat := s.best.getD state costLimit

/-- Follows one action from a node, where it applies, changes something and is cheaper than every
known way to the same state. -/
def follow (p : SearchProblem) (n : SearchNode) (s : Search) (a : PlannerAction) : Search :=
  let next := n.extend a
  if n.state.meets a.pre && next.state != n.state && next.cost < s.bestCost next.state then
    s.openNode p.goal next
  else s

/-- Follows every action from a node. -/
def expand (p : SearchProblem) (n : SearchNode) (s : Search) : Search :=
  p.actions.foldl (follow p n) s

/-- Whether no cheaper way to a node's state has been found since the node was opened. -/
def isCurrent (s : Search) (n : SearchNode) : Bool := n.cost == s.bestCost n.state

/-- Takes the first entry that is still current. -/
def next? (s : Search) : Option (SearchNode × Search) :=
  match _h : s.frontier.pop? with
  | none => none
  | some (e, f) =>
    if s.isCurrent e.item then some (e.item, { s with frontier := f })
    else next? { s with frontier := f }
termination_by s.frontier.size
decreasing_by exact Frontier.size_pop? _h

/-- Goes on until the goal is met, nothing is open, or `budget` nodes have been taken up. -/
def run (p : SearchProblem) : Nat → Search → SearchEnd
  | budget, s =>
    match s.next? with
    | none => .exhausted
    | some (n, s) =>
      match budget with
      | 0 => .overBudget
      | budget + 1 =>
        if n.state.meets p.goal then .found n
        else if p.cap ≤ n.depth then run p budget s
        else run p budget (s.expand p n)

end Search

/-- Searches from `start` with a budget. -/
def SearchProblem.solve (p : SearchProblem) (start : WorldState) (budget : Nat) : SearchEnd :=
  Search.run p budget (Search.init p start)

/-- A node lies as deep as its way has actions. -/
theorem SearchNode.length_actions (n : SearchNode) (a : PlannerAction) (cap : Nat) :
    ((n.extend a).toPlan cap).length = (n.toPlan cap).length + 1 := by
  simp [Plan.length, toPlan, extend, trail]

end PlanningAgents
