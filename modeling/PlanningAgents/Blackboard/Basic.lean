import PlanningAgents.SortedMap
import PlanningAgents.Blackboard.Value

/-!
# PlanningAgents.Blackboard

Notes that an agent keeps under names while it acts.  A note is read back as the kind that it was
written as; only the two numeric updates look across kinds.

Main statements:

* `Blackboard.find?_set` — a note that has been written is the one that is read, and no other note
  changes.
-/

namespace PlanningAgents

/-- Why a note could not be read. -/
inductive BlackboardError where
  | missing (key : String)
  | kindMismatch (key : String) (expected found : ValueKind)
  deriving DecidableEq, Repr

/-- What the error says. -/
def BlackboardError.message : BlackboardError → String
  | .missing key => s!"blackboard key '{key}' is not set"
  | .kindMismatch key expected found =>
    "blackboard key '" ++ key ++ "' holds " ++ found.name ++ ", requested " ++ expected.name

/-- The notes of one agent. -/
structure Blackboard where
  notes : SortedMap String Value := .empty
  deriving Inhabited

/-- A type of which notes can be read. -/
class Readable (α : Type) where
  /-- The kind of note that holds a value of the type. -/
  kind : ValueKind
  /-- The note that holds a value. -/
  toValue : α → Value
  /-- The value that a note holds. -/
  ofValue? : Value → Option α

instance : Readable Bool where
  kind := .bool
  toValue := .bool
  ofValue? | .bool b => some b | _ => none

instance : Readable Int64 where
  kind := .int
  toValue := .int
  ofValue? | .int n => some n | _ => none

/-- A small integer is read from an integer note that it fits. -/
instance : Readable Int32 where
  kind := .int
  toValue n := .int n.toInt64
  ofValue?
    | .int n => if n.toInt32.toInt64 = n then some n.toInt32 else none
    | _ => none

instance : Readable Float32 where
  kind := .float
  toValue := .float
  ofValue? | .float x => some x | _ => none

instance : Readable Float where
  kind := .double
  toValue := .double
  ofValue? | .double x => some x | _ => none

instance : Readable String where
  kind := .text
  toValue := .text
  ofValue? | .text s => some s | _ => none

instance : Readable Vec2 where
  kind := .vec2
  toValue := .vec2
  ofValue? | .vec2 v => some v | _ => none

/-- A reference to another entity, kept apart from plain numbers. -/
structure EntityHandle where
  id : UInt64
  deriving DecidableEq, Repr

instance : Readable EntityHandle where
  kind := .entity
  toValue h := .entity h.id
  ofValue? | .entity id => some ⟨id⟩ | _ => none

namespace Blackboard

/-- A blackboard without notes. -/
def empty : Blackboard := {}

/-- The note under a key. -/
def find? (b : Blackboard) (key : String) : Option Value := b.notes[key]?

/-- Whether there is a note under a key. -/
def contains (b : Blackboard) (key : String) : Bool := b.notes.contains key

/-- How many notes there are. -/
def size (b : Blackboard) : Nat := b.notes.size

/-- The keys of the notes, ascending. -/
def keys (b : Blackboard) : List String := b.notes.keys

/-- The notes in the order of their keys. -/
def toList (b : Blackboard) : List (String × Value) := b.notes.toList

/-- Writes a note over an earlier one of the same key. -/
def setValue (b : Blackboard) (key : String) (v : Value) : Blackboard :=
  ⟨b.notes.insert key v⟩

/-- Writes a note. -/
def set [Readable α] (b : Blackboard) (key : String) (a : α) : Blackboard :=
  b.setValue key (Readable.toValue a)

/-- Drops the note under a key. -/
def erase (b : Blackboard) (key : String) : Blackboard := ⟨b.notes.erase key⟩

/-- A note that has been written is the one that is read, and no other note changes. -/
theorem find?_set [Readable α] (b : Blackboard) (key other : String) (a : α) :
    (b.set key a).find? other = if other = key then some (Readable.toValue a) else b.find? other :=
  SortedMap.getElem?_insert ..

/-- A dropped note is gone, and no other note changes. -/
theorem find?_erase (b : Blackboard) (key other : String) :
    (b.erase key).find? other = if other = key then none else b.find? other :=
  SortedMap.getElem?_erase ..

/-- Reads a note as the kind it is wanted as. -/
def get (α : Type) [Readable α] (b : Blackboard) (key : String) : Except BlackboardError α :=
  match b.find? key with
  | none => .error (.missing key)
  | some v =>
    match Readable.ofValue? v with
    | some a => .ok a
    | none => .error (.kindMismatch key (Readable.kind α) v.kind)

/-- Reads a note, or gives a default where there is none.  A note of another kind is an error. -/
def getOr [Readable α] (b : Blackboard) (key : String) (default : α) : Except BlackboardError α :=
  match b.get α key with
  | .error (.missing _) => .ok default
  | other => other

/-- The note as a number; the default where there is none or it is not a number. -/
def number (b : Blackboard) (key : String) (default : Float32) : Float32 :=
  ((b.find? key).bind Value.toFloat32?).getD default

/-- Adds to a number and notes the sum; also returns it. -/
def inc (b : Blackboard) (key : String) (delta default : Float32) : Blackboard × Float32 :=
  let next := b.number key default + delta
  (b.set key next, next)

/-- Lets a number decay towards zero for `dt` seconds and notes the result; also returns it. -/
def decay (b : Blackboard) (key : String) (rate dt default : Float32) : Blackboard × Float32 :=
  let next := b.number key default * (-rate * dt).exp
  (b.set key next, next)

/-- One line for every note, in the order of the keys. -/
def dump (b : Blackboard) : String :=
  String.join (b.toList.map fun e => e.1 ++ " = " ++ e.2.describe ++ "\n")

end Blackboard

end PlanningAgents
