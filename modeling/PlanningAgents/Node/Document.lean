import PlanningAgents.Node.Basic

/-!
# PlanningAgents.Node.Document

Structured data with what its references stand for.

A node may stand for a node that holds it, and a short text may hold references to references that
unfold to a very long one.  While a document is read, references are therefore followed only where a
value is wanted, and not more often than a hundred times the size of the document.

Main statements:

* `Node.follow_reference` — following a reference takes one of those that are left.
-/

namespace PlanningAgents

/-- Structured data whose parts may stand for one another. -/
structure Document where
  root : Node
  /-- The numbered nodes; of several under one number the first counts. -/
  numbered : List (Nat × Node) := []

/-- How many references may be followed while the document is read. -/
def Document.allowance (d : Document) : Nat := 100 * d.root.size

/-- A reading of a document, which may fail.  It knows the numbered nodes and keeps count of the
references that may still be followed. -/
abbrev Decoding := ReaderT (List (Nat × Node)) (StateT Nat Option)

namespace Node

/-- The node itself, or the one that it stands for. -/
def follow : Node → Decoding Node
  | .reference number => fun numbered left =>
    match left with
    | 0 => none
    | left + 1 => (numbered.lookup number).map (·, left)
  | n => pure n

/-- Following a reference takes one of those that are left. -/
theorem follow_reference (numbered : List (Nat × Node)) (number left : Nat) :
    (reference number).follow numbered (left + 1) = (numbered.lookup number).map (·, left) :=
  rfl

end Node

end PlanningAgents
