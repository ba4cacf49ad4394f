import PlanningAgents.Proofs.Atoms.Filling

/-!
# PlanningAgents.Proofs.Atoms.Sessions

A table in use.  Callers hold states, which begin with nothing specified, and write them through one
table (`Session`).  Whatever is called, and whether or not it succeeds, the table only takes names
behind those that it has, and every state stays in its terms (`Session.Follows`).

Main statements:

* `Session.follows_perform`, `Session.follows_run` — what a call keeps, and what a row of calls
  keeps;
* `Session.perform_of_error` — a call about one atom that fails changes nothing;
* `Session.run_keeps` — what holds of a table and its states whatever has been called.
-/

namespace PlanningAgents

/-- What is asked of a table, and of the states with these numbers. -/
inductive AtomCall where
  | register (name : String)
  | set (slot : Nat) (name : String) (value : Bool)
  | setRegistering (slot : Nat) (name : String) (value : Bool)
  | encode (slot : Nat) (pairs : List (String × Bool))
  | encodeRegistering (slot : Nat) (pairs : List (String × Bool))
  /-- Remaps a state from another table into this one. -/
  | remap (slot : Nat) (s : WorldState) (table : AtomTable)

/-- Whether a call is about one atom. -/
def AtomCall.isSingle : AtomCall → Bool
  | .register _ | .set _ _ _ | .setRegistering _ _ _ => true
  | .encode _ _ | .encodeRegistering _ _ | .remap _ _ _ => false

/-- A table, and the states that its callers hold. -/
structure Session where
  atoms : AtomTable
  states : Nat → WorldState

namespace Session

open AtomTable

variable {x y z : Session} {u : AtomTable} {s : WorldState} {slot i : Nat} {name : String}
  {value : Bool} {pairs : List (String × Bool)} {e : AgentError}
  {write : AtomTable → WorldState → String → Bool → Except AgentError (WorldState × AtomTable)}

/-! ## calls -/

/-- A new table, in which nothing has been written. -/
def fresh (cap : Nat) (autoRegister : Bool) : Session where
  atoms := .ofCap cap autoRegister
  states _ := .empty

/-- Takes over a state that has been written, and the table that it was written through. -/
def store (x : Session) (slot : Nat) :
    Except AgentError WorldState × AtomTable → Except AgentError (Option Nat) × Session
  | (.ok s, atoms) => (.ok none, { atoms, states := Function.update x.states slot s })
  | (.error e, atoms) => (.error e, { x with atoms })

/-- Takes over an atom that has been written, if it has been. -/
def storeAtom (x : Session) (slot : Nat) :
    Except AgentError (WorldState × AtomTable) → Except AgentError (Option Nat) × Session
  | .ok (s, atoms) => x.store slot (.ok s, atoms)
  | .error e => (.error e, x)

/-- Carries out a call, and gives the number that it returns, if it returns one. -/
def perform (x : Session) : AtomCall → Except AgentError (Option Nat) × Session
  | .register name =>
    match x.atoms.register name with
    | .ok (i, atoms) => (.ok (some i), { x with atoms })
    | .error e => (.error e, x)
  | .set slot name value => x.storeAtom slot (x.atoms.set (x.states slot) name value)
  | .setRegistering slot name value =>
    x.storeAtom slot (x.atoms.setRegistering (x.states slot) name value)
  | .encode slot pairs => x.store slot (x.atoms.encode pairs)
  | .encodeRegistering slot pairs => x.store slot (x.atoms.encodeRegistering pairs)
  | .remap slot s table => x.store slot (s.remap table x.atoms)

/-- Carries out calls one after another, whether or not they succeed. -/
def run (x : Session) (calls : List AtomCall) : Session :=
  calls.foldl (fun x call => (x.perform call).2) x

/-! ## what a call keeps -/

/-- The table is a valid one, and all states are in its terms. -/
structure Sound (x : Session) : Prop where
  valid : x.atoms.Valid
  covers : ∀ slot, x.atoms.Covers (x.states slot)

/-- A session goes on from another one: every name keeps its number, and states stay in the terms of
the table. -/
structure Follows (y x : Session) : Prop where
  extends_atoms : y.atoms.Extends x.atoms
  sound : x.Sound → y.Sound

theorem sound_fresh (cap : Nat) (autoRegister : Bool) : (fresh cap autoRegister).Sound where
  valid := valid_ofCap cap autoRegister
  covers _ := covers_empty _

namespace Follows

theorem refl (x : Session) : x.Follows x := ⟨.refl _, id⟩

theorem trans (h : z.Follows y) (h' : y.Follows x) : z.Follows x :=
  ⟨h.extends_atoms.trans h'.extends_atoms, h.sound ∘ h'.sound⟩

end Follows

/-- A table that goes on names what the states specify. -/
theorem follows_withAtoms (hext : u.Extends x.atoms) : Follows { x with atoms := u } x where
  extends_atoms := hext
  sound h := ⟨hext.valid h.valid, fun slot => (h.covers slot).extends hext⟩

/-- A session follows where a state is taken over that its table covers. -/
theorem follows_store {result : Except AgentError WorldState} (hext : u.Extends x.atoms)
    (hcovers : ∀ s, result = .ok s → x.Sound → u.Covers s) :
    (x.store slot (result, u)).2.Follows x := by
  cases result with
  | error e => exact follows_withAtoms hext
  | ok s =>
      refine ⟨hext, fun h => ⟨hext.valid h.valid, fun other => ?_⟩⟩
      show u.Covers (Function.update x.states slot s other)
      rw [Function.update_apply]
      split
      · exact hcovers s rfl h
      · exact (h.covers other).extends hext

theorem follows_storeAtom (hwrites : Writes write) :
    (x.storeAtom slot (write x.atoms (x.states slot) name value)).2.Follows x := by
  cases hwrite : write x.atoms (x.states slot) name value with
  | error e => exact .refl x
  | ok result =>
      refine follows_store (hwrites hwrite).1 fun s hs h => ?_
      cases hs
      exact (h.covers slot).write h.valid hwrites hwrite

theorem follows_storeAll (hwrites : Writes write) :
    (x.store slot (x.atoms.writeAll write .empty pairs)).2.Follows x :=
  follows_store (hwrites.extends_writeAll _ _ _) fun _ hs h =>
    x.atoms.covers_empty.writeAll h.valid hwrites (Prod.ext hs rfl)

/-- **Every call is followed by a session that goes on**, whether or not it succeeds. -/
theorem follows_perform (x : Session) (call : AtomCall) : (x.perform call).2.Follows x := by
  cases call with
  | register name =>
      rw [perform]
      split
      · next i u hregister => exact follows_withAtoms (extends_register hregister)
      · exact .refl x
  | set slot name value => exact follows_storeAtom writes_set
  | setRegistering slot name value => exact follows_storeAtom writes_setRegistering
  | encode slot pairs => exact follows_storeAll writes_set
  | encodeRegistering slot pairs => exact follows_storeAll writes_setRegistering
  | remap slot s table => exact follows_storeAll writes_setRegistering

/-- So is every row of calls. -/
theorem follows_run (x : Session) (calls : List AtomCall) : (x.run calls).Follows x := by
  induction calls generalizing x with
  | nil => exact .refl x
  | cons call rest ih => exact (ih _).trans (x.follows_perform call)

/-! ## calls that fail -/

theorem eq_of_storeAtom_eq_error {result : Except AgentError (WorldState × AtomTable)}
    (h : (x.storeAtom slot result).1 = .error e) : (x.storeAtom slot result).2 = x := by
  cases result with
  | error e => rfl
  | ok written => cases h

/-- **A call about one atom that fails** changes neither the table nor a state. -/
theorem perform_of_error {call : AtomCall} (hsingle : call.isSingle = true)
    (h : (x.perform call).1 = .error e) : (x.perform call).2 = x := by
  cases call with
  | register name =>
      rw [perform] at h ⊢
      cases hregister : x.atoms.register name with
      | error e => rfl
      | ok result =>
          rw [hregister] at h
          cases h
  | set slot name value => exact eq_of_storeAtom_eq_error h
  | setRegistering slot name value => exact eq_of_storeAtom_eq_error h
  | encode slot pairs => cases hsingle
  | encodeRegistering slot pairs => cases hsingle
  | remap slot s table => cases hsingle

/-- A name is refused exactly where the table does not take it. -/
theorem exists_perform_register_eq_error_iff :
    (∃ e, (x.perform (.register name)).1 = .error e) ↔ name ∉ x.atoms.names ∧ x.atoms.free = 0 := by
  rw [← exists_register_eq_error_iff, perform]
  cases x.atoms.register name with
  | ok result => simp
  | error e => simp

/-- A number that is returned is that of the name in the table afterwards. -/
theorem index?_of_perform_register (hsound : x.Sound)
    (h : (x.perform (.register name)).1 = .ok (some i)) :
    (x.perform (.register name)).2.atoms.index? name = some i := by
  rw [perform] at h ⊢
  cases hregister : x.atoms.register name with
  | error e =>
      rw [hregister] at h
      cases h
  | ok result =>
      rw [hregister] at h
      cases h
      exact ((extends_register hregister).valid hsound.valid).index?_eq_some_iff.mpr
        (names_of_register hregister)

/-! ## whatever has been called -/

/-- **Whatever has been called**, a table has distinct names, no more than it may take, and numbers
and names belong together.  A number that has been given out belongs to its name for ever.  A name
is refused only where it is new and the table full, and a call about one atom that fails changes
nothing.  No state specifies an atom without a name, so that neither it nor a word of names reaches
the top bit, and a word is described by names and read back as far as they reach. -/
theorem run_keeps (cap : Nat) (autoRegister : Bool) (calls : List AtomCall) :
    let x := (fresh cap autoRegister).run calls
    (x.atoms.names.Nodup ∧ x.atoms.names.length ≤ min cap maxAtoms) ∧
    (∀ name i, x.atoms.index? name = some i ↔ x.atoms.name? i = some name) ∧
    (∀ more, x.atoms.names <+: (x.run more).atoms.names ∧
      ∀ name i, x.atoms.index? name = some i →
        (x.run more).atoms.index? name = some i ∧ (x.run more).atoms.name? i = some name) ∧
    (∀ name i, (x.perform (.register name)).1 = .ok (some i) →
      ∀ more, (x.run (.register name :: more)).atoms.index? name = some i) ∧
    (∀ name, (∃ e, (x.perform (.register name)).1 = .error e) ↔
      name ∉ x.atoms.names ∧ x.atoms.names.length = min cap maxAtoms) ∧
    (∀ call e, call.isSingle = true → (x.perform call).1 = .error e → (x.perform call).2 = x) ∧
    (∀ slot, (∀ i < 64, ((x.states slot).value? i).isSome → i < x.atoms.names.length) ∧
      (x.states slot).value? maxAtoms = none) ∧
    (∀ name i, x.atoms.index? name = some i → i < maxAtoms) ∧
    ∀ m, x.atoms.mask (x.atoms.describeBits m) = m &&& x.atoms.allMask := by
  intro x
  have hfollows : x.Follows (fresh cap autoRegister) := follows_run _ calls
  have hsound : x.Sound := hfollows.sound (sound_fresh cap autoRegister)
  have hcap : x.atoms.cap = min cap maxAtoms := hfollows.extends_atoms.cap
  have hlength : x.atoms.names.length ≤ min cap maxAtoms := hcap ▸ hsound.valid.length_le
  have hbelow : x.atoms.names.length ≤ maxAtoms := hlength.trans (Nat.min_le_right _ _)
  refine ⟨⟨hsound.valid.nodup, hlength⟩, fun name i => hsound.valid.index?_eq_some_iff,
    fun more => ?_, fun name i hi more => ?_, fun name => ?_, fun call e => perform_of_error,
    fun slot => ?_, fun name i hi => ?_, hsound.valid.mask_describeBits⟩
  · have hext := (x.follows_run more).extends_atoms
    refine ⟨hext.appends, fun name i hi => ?_⟩
    exact ⟨hext.index? hi, getElem?_of_index? (hext.index? hi)⟩
  · have hext := ((x.perform (.register name)).2.follows_run more).extends_atoms
    exact hext.index? (index?_of_perform_register hsound hi)
  · rw [exists_perform_register_eq_error_iff, free, hcap, Nat.sub_eq_zero_iff_le,
      hlength.ge_iff_eq]
  · refine ⟨(hsound.covers slot).named, ?_⟩
    rw [← Option.not_isSome_iff_eq_none]
    intro hsome
    exact absurd ((hsound.covers slot).named maxAtoms (by decide) hsome) (Nat.not_lt.mpr hbelow)
  · exact (List.getElem?_eq_some_iff.mp (getElem?_of_index? hi)).1.trans_le hbelow

end Session

end PlanningAgents
