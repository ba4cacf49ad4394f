/-!
# PlanningAgents.Node

Structured data as it stands in a file, before anything has been made of it.  The formats differ in
what a single value may be taken for: between quotes it is nothing but a text, bare it may be a
truth value or a number as well.  A `Scalar` therefore lists every reading that its format admits,
and whoever wants a value takes the reading that is needed.

Some formats let a node stand for another one that is written elsewhere.  Such a node is kept as a
reference, so that what it stands for is asked for only where it is needed.
-/

namespace PlanningAgents

/-- What a single value can be read as. -/
structure Scalar where
  /-- Where a text is wanted. -/
  text : Option String := none
  /-- Where anything is taken, and the value turns out to be a text. -/
  freeText : Option String := none
  bool : Option Bool := none
  int : Option Int := none
  single : Option Float32 := none
  double : Option Float := none
  /-- Where a value may be missing, whether this one is; `none` if it says so and has a value. -/
  isAbsent : Option Bool := some false
  /-- Where a list or a record is wanted, this is the empty one. -/
  isEmpty : Bool := false
  deriving Inhabited

/-- A piece of structured data. -/
inductive Node where
  | scalar (s : Scalar)
  /-- When `positional` holds, the items may stand for the fields of a record. -/
  | list (positional : Bool) (items : List Node)
  | record (members : List (Node × Node))
  /-- Marked by its author as of a kind of its own, which matters only where any kind is taken. -/
  | tagged (n : Node)
  /-- Stands for the node that has this number. -/
  | reference (number : Nat)
  deriving Inhabited

namespace Node

/-- A value that cannot be read as anything. -/
def unreadable : Node := .scalar {}

/-- A value that is only a text. -/
def ofText (s : String) : Node := .scalar { text := some s, freeText := some s }

/-- What takes the place of a value that is not there. -/
def nothing : Node := .scalar { isAbsent := some true, isEmpty := true }

/-- The node without its marks. -/
def bare : Node → Node
  | .tagged n => n.bare
  | n => n

/-- The single value, if the node is one. -/
def scalar? (n : Node) : Option Scalar :=
  match n.bare with
  | .scalar s => some s
  | _ => none

/-- Whether the node counts as missing, where that is allowed. -/
def isAbsent (n : Node) : Option Bool :=
  match n.scalar? with
  | some s => s.isAbsent
  | none => some false

/-- The items of a list. -/
def items? (n : Node) : Option (List Node) :=
  match n.bare with
  | .list _ items => some items
  | .scalar s => if s.isEmpty then some [] else none
  | _ => none

/-- The members of a record. -/
def members? (n : Node) : Option (List (Node × Node)) :=
  match n.bare with
  | .record members => some members
  | .scalar s => if s.isEmpty then some [] else none
  | _ => none

/-! ## size -/

mutual

/-- How many marks the node is made of: a list or a record has one at its beginning and one at its
end, everything else is one.  What references stand for is not counted. -/
def size : Node → Nat
  | .scalar _ => 1
  | .list _ items => itemsSize items + 2
  | .record members => membersSize members + 2
  | .tagged n => n.size
  | .reference _ => 1

/-- The size of the items of a list. -/
def itemsSize : List Node → Nat
  | [] => 0
  | n :: rest => n.size + itemsSize rest

/-- The size of the members of a record. -/
def membersSize : List (Node × Node) → Nat
  | [] => 0
  | (k, v) :: rest => k.size + v.size + membersSize rest

end

end Node

end PlanningAgents
