import PlanningAgents.Node.Document
import PlanningAgents.SortedMap

/-!
# PlanningAgents.Node.Decode

Values made from structured data.

A record is read by the names of its declared fields, of which each may have several.  Members under
other names are passed over; a field that is given twice, under whichever of its names, is an error.

Main statements:

* `Node.field_singleton` — a field that is given once is found under each of its names.
-/

namespace PlanningAgents

/-- A type of which values can be made from structured data. -/
class Decode (α : Type) where
  decode : Node → Decoding α

export Decode (decode)

/-- The value that a document stands for. -/
def Document.decode? {α : Type} [Decode α] (d : Document) : Option α :=
  ((decode d.root).run d.numbered).run' d.allowance

/-! ## single values -/

/-- The reading of a single value that is needed. -/
def Node.reading {α : Type} (take : Scalar → Option α) (n : Node) : Decoding α := do
  let s ← (← n.follow).scalar?
  take s

instance : Decode String := ⟨Node.reading (·.text)⟩

instance : Decode Bool := ⟨Node.reading (·.bool)⟩

instance : Decode Float32 := ⟨Node.reading (·.single)⟩

instance : Decode Float := ⟨Node.reading (·.double)⟩

/-- The natural number below `bound` that a value is. -/
def Scalar.natBelow (bound : Nat) (s : Scalar) : Option Nat := do
  let i ← s.int
  if 0 ≤ i && i < bound then some i.toNat else none

instance : Decode UInt32 := ⟨Node.reading fun s => (s.natBelow UInt32.size).map Nat.toUInt32⟩

instance : Decode UInt64 := ⟨Node.reading fun s => (s.natBelow UInt64.size).map Nat.toUInt64⟩

/-! ## containers -/

instance {α : Type} [Decode α] : Decode (Option α) where
  decode n := do
    let n ← n.follow
    if ← n.isAbsent then return none else return some (← decode n)

instance {α : Type} [Decode α] : Decode (List α) where
  decode n := do (← (← n.follow).items?).mapM decode

/-- One entry of a map. -/
def Node.entry {α : Type} [Decode α] (m : Node × Node) : Decoding (String × α) := do
  return (← decode m.1, ← decode m.2)

/-- Of the entries under one name the last counts. -/
instance {α : Type} [Decode α] : Decode (SortedMap String α) where
  decode n := do return .ofList (← (← (← n.follow).members?).mapM Node.entry)

/-! ## records -/

namespace Node

/-- A member with its name read. -/
def named (m : Node × Node) : Decoding (String × Node) := do return (← decode m.1, m.2)

/-- The value of a field among members whose names have been read; `none` when it is given more
than once. -/
def field (members : List (String × Node)) (names : List String) : Option (Option Node) :=
  match members.filter (·.1 ∈ names) with
  | [] => some none
  | [m] => some (some m.2)
  | _ => none

/-- The values of declared fields, in the order of the declaration. -/
def fields (declared : List (List String)) (n : Node) : Decoding (List (Option Node)) := do
  match (← n.follow).bare with
  | .list true items =>
    if items.length ≤ declared.length then
      return items.map some ++ List.replicate (declared.length - items.length) none
    else failure
  | n =>
    let members ← (← n.members?).mapM named
    declared.mapM fun names => field members names

/-- The value of a field that has to be given. -/
def required {α : Type} [Decode α] : Option Node → Decoding α
  | none => failure
  | some n => decode n

/-- The value of a field, or what holds where it is not given. -/
def optional {α : Type} [Decode α] (default : α) : Option Node → Decoding α
  | none => return default
  | some n => decode n

/-- A field that is given once is found under each of its names. -/
theorem field_singleton {names : List String} {name : String} (h : name ∈ names) (v : Node) :
    field [(name, v)] names = some (some v) := by
  simp [field, h]

end Node

end PlanningAgents
