import PlanningAgents.Proofs.Atoms.Covering

/-!
# PlanningAgents.Proofs.Atoms.Filling

What a table holds once pairs have been written through it, whether or not all of them could be.
New names are taken in the order of their first mention (`AtomTable.missing`) as long as there is
room.  The first one for which there is none ends the writing, and those before it stay.

Both ways of writing are of this kind (`AtomTable.Rations`), and differ in the room that they have.
Registering names has as much as the table has numbers left (`AtomTable.free`).  Setting atoms has
as much where the table takes in names by itself, and none elsewhere (`AtomTable.freeToSet`).

Main statements:

* `AtomTable.filled_eq_self_iff` — names that are refused have others taken before them, unless
  there is no room at all;
* `AtomTable.Rations.writeAll_cases`, `AtomTable.Rations.exists_error_iff` — which names have been
  taken when the writing ends, and when one of them ends it;
* `AtomTable.rations_setRegistering`, `AtomTable.rations_set` — the two ways of writing.
-/

namespace PlanningAgents

namespace AtomTable

variable {t u : AtomTable} {s : WorldState} {name : String} {names : List String} {i room : Nat}

/-! ## names that are new -/

/-- The names that a table does not have, in the order of their first mention. -/
def missing (t : AtomTable) (names : List String) : List String :=
  (names.filter (· ∉ t.names)).eraseDups

/-- The table with as many new names as there is room for. -/
def filled (t : AtomTable) (names : List String) (room : Nat) : AtomTable :=
  { t with names := t.names ++ (t.missing names).take room }

theorem missing_nil (t : AtomTable) : t.missing [] = [] := rfl

theorem missing_cons_of_mem (h : name ∈ t.names) (names : List String) :
    t.missing (name :: names) = t.missing names := by
  rw [missing, List.filter_cons_of_neg (by simpa using h), missing]

/-- A new name comes first, and is new no longer. -/
theorem missing_cons_of_not_mem (h : name ∉ t.names) (names : List String) :
    t.missing (name :: names) = name :: (t.withName name).missing names := by
  rw [missing, List.filter_cons_of_pos (by simpa using h), List.eraseDups_cons, missing,
    List.filter_filter]
  congr 3
  funext other
  rw [Bool.eq_iff_iff]
  simp [withName, and_comm]

theorem mem_missing : name ∈ t.missing names ↔ name ∈ names ∧ name ∉ t.names := by
  rw [missing, List.mem_eraseDups, List.mem_filter, decide_eq_true_eq]

/-- No name is missing exactly where the table has all of them. -/
theorem missing_eq_nil_iff : t.missing names = [] ↔ names ⊆ t.names := by
  rw [List.eq_nil_iff_forall_not_mem]
  refine forall_congr' fun name => ?_
  rw [mem_missing]
  tauto

theorem filled_zero (t : AtomTable) (names : List String) : t.filled names 0 = t := by
  rw [filled, List.take_zero, List.append_nil]

/-- Names that do not all have room leave the table as it is only where there is no room. -/
theorem filled_eq_self_iff (h : room < (t.missing names).length) :
    t.filled names room = t ↔ room = 0 := by
  refine ⟨fun heq => ?_, fun hroom => hroom ▸ filled_zero t names⟩
  have hlength := congrArg (·.names.length) heq
  simp only [filled, List.length_append, List.length_take] at hlength
  omega

/-! ## rationed writing -/

/-- How many names a table takes in when atoms are set. -/
def freeToSet (t : AtomTable) : Nat := if t.autoRegister then t.free else 0

/-- A way of writing atoms that has room for so many new names, and refuses those beyond. -/
structure Rations
    (write : AtomTable → WorldState → String → Bool → Except AgentError (WorldState × AtomTable))
    (room : AtomTable → Nat) (refusal : AtomTable → String → AgentError) : Prop where
  known : ∀ {t name i}, t.index? name = some i → ∀ s value,
    write t s name value = .ok (s.set i value, t)
  new : ∀ {t name}, name ∉ t.names → room t ≠ 0 → ∀ s value,
    write t s name value = .ok (s.set t.names.length value, t.withName name)
  refused : ∀ {t name}, name ∉ t.names → room t = 0 → ∀ s value,
    write t s name value = .error (refusal t name)
  room_withName : ∀ t name, room (t.withName name) = room t - 1
  refusal_withName : ∀ t name, refusal (t.withName name) = refusal t

section Rations

variable
  {write : AtomTable → WorldState → String → Bool → Except AgentError (WorldState × AtomTable)}
  {room : AtomTable → Nat} {refusal : AtomTable → String → AgentError}

/-- **Writing takes new names as long as there is room**, and says which one it has refused. -/
theorem Rations.writeAll_cases (h : Rations write room refusal) (t : AtomTable) (s : WorldState)
    (pairs : List (String × Bool)) :
    (t.writeAll write s pairs).2 = t.filled (pairs.map Prod.fst) (room t) ∧
    ∀ e, (t.writeAll write s pairs).1 = .error e ↔
      ∃ name, (t.missing (pairs.map Prod.fst))[room t]? = some name ∧ e = refusal t name := by
  induction pairs generalizing t s with
  | nil => simp [writeAll, filled, missing_nil]
  | cons pair rest ih =>
      obtain ⟨name, value⟩ := pair
      rw [List.map_cons, writeAll]
      cases hindex : t.index? name with
      | some i =>
          have hmem : name ∈ t.names := List.mem_of_getElem? (getElem?_of_index? hindex)
          rw [h.known hindex, filled, missing_cons_of_mem hmem]
          exact ih t (s.set i value)
      | none =>
          have hnew : name ∉ t.names := index?_eq_none_iff.mp hindex
          rw [filled, missing_cons_of_not_mem hnew]
          by_cases hroom : room t = 0
          · rw [h.refused hnew hroom, hroom]
            simp [eq_comm]
          · obtain ⟨n, hn⟩ := Nat.exists_eq_succ_of_ne_zero hroom
            obtain ⟨htable, herror⟩ := ih (t.withName name) (s.set t.names.length value)
            rw [h.room_withName, hn, Nat.succ_sub_one] at htable herror
            rw [h.refusal_withName] at herror
            rw [h.new hnew hroom, hn]
            refine ⟨htable.trans ?_, herror⟩
            simp [filled, withName]

/-- Writing fails exactly where more names are new than there is room for. -/
theorem Rations.exists_error_iff (h : Rations write room refusal) (t : AtomTable) (s : WorldState)
    (pairs : List (String × Bool)) :
    (∃ e, (t.writeAll write s pairs).1 = .error e) ↔
      room t < (t.missing (pairs.map Prod.fst)).length := by
  simp only [(h.writeAll_cases t s pairs).2]
  constructor
  · rintro ⟨-, name, hname, -⟩
    exact (List.getElem?_eq_some_iff.mp hname).1
  · exact fun hlt => ⟨_, _, List.getElem?_eq_getElem hlt, rfl⟩

theorem Rations.exists_ok_iff (h : Rations write room refusal) (t : AtomTable) (s : WorldState)
    (pairs : List (String × Bool)) :
    (∃ s', (t.writeAll write s pairs).1 = .ok s') ↔
      (t.missing (pairs.map Prod.fst)).length ≤ room t := by
  rw [← Nat.not_lt, ← h.exists_error_iff t s]
  cases (t.writeAll write s pairs).1 with
  | ok s' => simp
  | error e => simp

/-- Names that the table has are all written, and it stays as it is. -/
theorem Rations.exists_writeAll_of_subset (h : Rations write room refusal) (s : WorldState)
    {pairs : List (String × Bool)} (hknown : pairs.map Prod.fst ⊆ t.names) :
    ∃ s', t.writeAll write s pairs = (.ok s', t) := by
  have hnone : t.missing (pairs.map Prod.fst) = [] := missing_eq_nil_iff.mpr hknown
  have htable := (h.writeAll_cases t s pairs).1
  rw [filled, hnone, List.take_nil, List.append_nil] at htable
  obtain ⟨s', hresult⟩ := (h.exists_ok_iff t s pairs).mpr (hnone ▸ Nat.zero_le _)
  exact ⟨s', Prod.ext hresult htable⟩

end Rations

/-! ## registering and setting -/

theorem free_withName (t : AtomTable) (name : String) : (t.withName name).free = t.free - 1 := by
  rw [free, free, withName, List.length_append, List.length_singleton, Nat.sub_sub]

/-- Registering has room for as many names as are left. -/
theorem rations_setRegistering :
    Rations setRegistering free fun t name => .atomCapExceeded name t.cap where
  known {t name i} hindex s value := by
    rw [setRegistering, register, hindex]
    rfl
  new {t name} hnew hfree s value := by
    rw [setRegistering, register_of_new hnew hfree]
    rfl
  refused {t name} hnew hfree s value := by
    rw [setRegistering, register_of_full hnew hfree]
    rfl
  room_withName := free_withName
  refusal_withName _ _ := rfl

/-- The error in which setting an atom ends where its name is not taken in. -/
def refusalToSet (t : AtomTable) (name : String) : AgentError :=
  if t.autoRegister then .atomCapExceeded name t.cap else .unknownAtom name

/-- Setting has that room only where the table takes in names by itself. -/
theorem rations_set : Rations set freeToSet refusalToSet where
  known {t name i} hindex s value := by rw [set, hindex]
  new {t name} hnew hroom s value := by
    rw [freeToSet] at hroom
    split at hroom
    · next hauto =>
        rw [set, index?_eq_none_iff.mpr hnew]
        simp only [hauto, if_true, register_of_new hnew hroom]
        rfl
    · exact absurd rfl hroom
  refused {t name} hnew hroom s value := by
    rw [freeToSet] at hroom
    rw [set, refusalToSet, index?_eq_none_iff.mpr hnew]
    cases hauto : t.autoRegister with
    | true =>
        rw [hauto, if_pos rfl] at hroom
        simp only [if_true, register_of_full hnew hroom]
        rfl
    | false => simp
  room_withName t name := by
    rw [freeToSet, freeToSet, free_withName]
    show (if t.autoRegister then _ else _) = _
    split
    · rfl
    · rfl
  refusal_withName _ _ := rfl

/-- There is no room for what is set where the table does not take names in, or is full. -/
theorem freeToSet_eq_zero_iff :
    t.freeToSet = 0 ↔ t.autoRegister = false ∨ t.cap ≤ t.names.length := by
  rw [freeToSet, free]
  cases t.autoRegister with
  | true => simp [Nat.sub_eq_zero_iff_le]
  | false => simp

end AtomTable

end PlanningAgents
