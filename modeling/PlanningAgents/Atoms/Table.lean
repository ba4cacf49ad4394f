import PlanningAgents.Atoms.State
import PlanningAgents.Error
import PlanningAgents.Text.Case

/-!
# PlanningAgents.Atoms.Table

Names for the atoms of world states.  A table gives each name the next free number when it is first
registered, and never changes that number.

Main statements:

* `AtomTable.register_ok` — registering appends at most the name itself, and its number finds it.
-/

namespace PlanningAgents

/-- How many atoms a table can name.  The top bit of a word is never assigned. -/
def maxAtoms : Nat := 63

/-- Atom names in the order of their numbers. -/
structure AtomTable where
  names : List String := []
  /-- How many names the table takes. -/
  cap : Nat := maxAtoms
  /-- Whether writing an unknown atom registers it. -/
  autoRegister : Bool := false
  deriving DecidableEq, Repr, Inhabited

namespace AtomTable

/-- An empty table for at most `cap` names, and never more than `maxAtoms`. -/
def ofCap (cap : Nat) (autoRegister : Bool := false) : AtomTable :=
  { cap := min cap maxAtoms, autoRegister }

/-- How many names are registered. -/
def size (t : AtomTable) : Nat := t.names.length

/-- The name with a number. -/
def name? (t : AtomTable) (i : Nat) : Option String := t.names[i]?

/-- The number of a name. -/
def index? (t : AtomTable) (name : String) : Option Nat := t.names.idxOf? name

/-- The number of a name, which is registered first if it is new. -/
def register (t : AtomTable) (name : String) : Except AgentError (Nat × AtomTable) :=
  match t.index? name with
  | some i => .ok (i, t)
  | none =>
    if t.cap ≤ t.names.length then .error (.atomCapExceeded name t.cap)
    else .ok (t.names.length, { t with names := t.names ++ [name] })

/-- Forgets every name. -/
def clear (t : AtomTable) : AtomTable := { t with names := [] }

/-- The bits of every registered atom. -/
def allMask (t : AtomTable) : UInt64 :=
  if 64 ≤ t.names.length then ~~~0 else bit t.names.length - 1

/-- The bits of the named atoms; names that are not registered are passed over. -/
def mask (t : AtomTable) (names : List String) : UInt64 :=
  (names.filterMap t.index?).foldl (fun m i => m ||| bit i) 0

/-- Writes one atom.  A name that is not registered is an error unless the table takes it in. -/
def set (t : AtomTable) (s : WorldState) (name : String) (value : Bool) :
    Except AgentError (WorldState × AtomTable) :=
  match t.index? name with
  | some i => .ok (s.set i value, t)
  | none =>
    if t.autoRegister then do
      let (i, t) ← t.register name
      return (s.set i value, t)
    else .error (.unknownAtom name)

/-- Writes one atom, which is registered first if it is new. -/
def setRegistering (t : AtomTable) (s : WorldState) (name : String) (value : Bool) :
    Except AgentError (WorldState × AtomTable) := do
  let (i, t) ← t.register name
  return (s.set i value, t)

/-- Reads one atom: `none` when it is registered but unspecified. -/
def get (t : AtomTable) (s : WorldState) (name : String) : Except AgentError (Option Bool) :=
  match t.index? name with
  | some i => .ok (s.value? i)
  | none => .error (.unknownAtom name)

/-- Writes pairs one after another.  An error ends the writing, but what has been registered by
then stays: it is returned beside the outcome. -/
def writeAll
    (write : AtomTable → WorldState → String → Bool → Except AgentError (WorldState × AtomTable))
    (t : AtomTable) (s : WorldState) :
    List (String × Bool) → Except AgentError WorldState × AtomTable
  | [] => (.ok s, t)
  | (name, value) :: rest =>
    match write t s name value with
    | .ok (s, t) => writeAll write t s rest
    | .error e => (.error e, t)

/-- The state that pairs describe, each written by `set`. -/
def encode (t : AtomTable) (pairs : List (String × Bool)) :
    Except AgentError WorldState × AtomTable :=
  t.writeAll set .empty pairs

/-- The state that pairs describe, every name being registered. -/
def encodeRegistering (t : AtomTable) (pairs : List (String × Bool)) :
    Except AgentError WorldState × AtomTable :=
  t.writeAll setRegistering .empty pairs

/-- The names with what a state says of them, from number `i` on. -/
def readFrom (s : WorldState) (i : Nat) : List String → List (String × Bool)
  | [] => []
  | name :: rest =>
    match s.value? i with
    | some value => (name, value) :: readFrom s (i + 1) rest
    | none => readFrom s (i + 1) rest

/-- What a state specifies, in the order of the atoms' numbers. -/
def read (t : AtomTable) (s : WorldState) : List (String × Bool) := readFrom s 0 t.names

/-- What a state specifies, by name. -/
def toMap (t : AtomTable) (s : WorldState) : SortedMap String Bool := .ofList (t.read s)

/-- The specified atoms, upper case for true and lower case for false. -/
def describe (t : AtomTable) (s : WorldState) : String :=
  ",".intercalate ((t.read s).map fun p => if p.2 then Text.upper p.1 else Text.lower p.1)

/-- The names of the registered atoms whose bits are set, from number `i` on. -/
def namesFrom (mask : UInt64) (i : Nat) : List String → List String
  | [] => []
  | name :: rest =>
    if testBit mask i then name :: namesFrom mask (i + 1) rest else namesFrom mask (i + 1) rest

/-- The names of the registered atoms whose bits are set. -/
def describeBits (t : AtomTable) (mask : UInt64) : List String := namesFrom mask 0 t.names

/-- Registering appends at most the name itself, and its number finds it. -/
theorem register_ok {t u : AtomTable} {name : String} {i : Nat}
    (h : t.register name = .ok (i, u)) :
    (u.names = t.names ∨ u.names = t.names ++ [name]) ∧ u.name? i = some name := by
  unfold register at h
  split at h
  · rename_i j hj
    cases h
    refine ⟨.inl rfl, ?_⟩
    simp only [index?, List.idxOf?_eq_some_iff] at hj
    obtain ⟨hlt, he, _⟩ := hj
    simp [name?, hlt, he]
  · split at h
    · cases h
    · cases h
      exact ⟨.inr rfl, by simp [name?]⟩

end AtomTable

/-- Writes into `into` what `s` says in terms of `table`, registering names that are missing
there.  An error ends the writing, but what has been registered by then stays. -/
def WorldState.remap (s : WorldState) (table into : AtomTable) :
    Except AgentError WorldState × AtomTable :=
  into.encodeRegistering (table.read s)

end PlanningAgents
