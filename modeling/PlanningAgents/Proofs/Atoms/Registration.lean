import Mathlib.Data.Finset.Card
import Mathlib.Data.List.Nodup
import PlanningAgents.Atoms.Table

/-!
# PlanningAgents.Proofs.Atoms.Registration

Tables of atoms as registering makes them.  A table takes names as long as there is room for those
that are new (`AtomTable.Fits`); what it names already stays where it is (`AtomTable.Registered`).
So a list of names either fits as a whole, or one of them is refused.

A state says the same by name in every table that goes on from the one in which it was written:
writing an atom is writing an entry of the map that the state stands for.

Main statements:

* `AtomTable.register_outcomes` — what registering a name does;
* `AtomTable.register_cases`, `AtomTable.encodeRegistering_cases` — names are registered exactly
  where they fit;
* `AtomTable.Valid.toMap_set`, `AtomTable.Writes.toMap_writeAll` — writing atoms writes entries of
  the map;
* `WorldState.remap_cases` — a state keeps its meaning in the terms of another table.
-/

namespace PlanningAgents

namespace SortedMap

variable {α : Type} {entries : List (String × α)} {key : String} {value : α}

/-- Where no key comes twice, a map has just the entries that it is made of. -/
theorem getElem?_ofList_eq_some_iff (h : (entries.map Prod.fst).Nodup) :
    (.ofList entries : SortedMap String α)[key]? = some value ↔ (key, value) ∈ entries := by
  have hentry {value : α} (hmem : (key, value) ∈ entries) :
      (.ofList entries : SortedMap String α)[key]? = some value :=
    Std.ExtTreeMap.getElem?_ofList_of_mem Std.ReflCmp.compare_self
      ((List.pairwise_map.mp h).imp fun hne heq => hne (Std.LawfulEqCmp.eq_of_compare heq)) hmem
  refine ⟨fun hvalue => ?_, hentry⟩
  have hkey : key ∈ (.ofList entries : SortedMap String α) := by
    rw [Std.ExtTreeMap.mem_iff_isSome_getElem?, hvalue]
    rfl
  rw [Std.ExtTreeMap.mem_ofList, List.contains_iff_mem, List.mem_map] at hkey
  obtain ⟨⟨_, other⟩, hmem, rfl⟩ := hkey
  rw [hentry hmem] at hvalue
  exact Option.some.inj hvalue ▸ hmem

/-- A map is the one that its entries make up, in whatever order. -/
theorem ofList_of_perm {m : SortedMap String α} (h : entries.Perm m.toList) :
    (.ofList entries : SortedMap String α) = m := by
  have hnodup : (entries.map Prod.fst).Nodup := by
    rw [(h.map Prod.fst).nodup_iff, Std.ExtTreeMap.map_fst_toList_eq_keys]
    exact Std.ExtTreeMap.nodup_keys
  apply Std.ExtTreeMap.ext_getElem?
  intro key
  apply Option.ext
  intro value
  rw [getElem?_ofList_eq_some_iff hnodup, h.mem_iff,
    Std.ExtTreeMap.mem_toList_iff_getElem?_eq_some]

theorem ofList_toList (m : SortedMap String α) : .ofList m.toList = m := ofList_of_perm (.refl _)

end SortedMap

namespace AtomTable

variable {t u v : AtomTable} {s : WorldState} {name : String} {i : Nat}

/-- A table as registering makes it: its names are distinct, and no more than it takes. -/
structure Valid (t : AtomTable) : Prop where
  nodup : t.names.Nodup
  length_le : t.names.length ≤ t.cap
  cap_le : t.cap ≤ maxAtoms

/-- There is room for names, as far as they are not registered yet. -/
def Fits (t : AtomTable) (names : List String) : Prop := (t.names ++ names).toFinset.card ≤ t.cap

/-- A table goes on from another one: every name keeps its number. -/
structure Extends (u t : AtomTable) : Prop where
  appends : t.names <+: u.names
  cap : u.cap = t.cap
  autoRegister : u.autoRegister = t.autoRegister
  valid : t.Valid → u.Valid

/-- A valid table goes on from another one, with names registered and no others. -/
structure Registered (u t : AtomTable) (names : List String) : Prop extends Extends u t where
  sound : u.Valid
  toFinset_names : u.names.toFinset = (t.names ++ names).toFinset

theorem valid_ofCap (cap : Nat) (autoRegister : Bool) : (ofCap cap autoRegister).Valid where
  nodup := List.nodup_nil
  length_le := Nat.zero_le _
  cap_le := Nat.min_le_right _ _

/-! ## numbers of names -/

theorem index?_eq_none_iff : t.index? name = none ↔ name ∉ t.names := by
  rw [index?, List.idxOf?_eq_none_iff]

/-- The number of a name finds it. -/
theorem getElem?_of_index? (h : t.index? name = some i) : t.names[i]? = some name := by
  obtain ⟨hlt, heq, -⟩ := List.idxOf?_eq_some_iff.mp h
  rw [List.getElem?_eq_getElem hlt, heq]

/-- In a valid table a name has one number. -/
theorem Valid.index?_eq_some_iff (h : t.Valid) :
    t.index? name = some i ↔ t.names[i]? = some name := by
  refine ⟨getElem?_of_index?, fun hi => ?_⟩
  cases hj : t.index? name with
  | none => exact absurd (List.mem_of_getElem? hi) (index?_eq_none_iff.mp hj)
  | some j =>
      have hname := getElem?_of_index? hj
      obtain ⟨hjlt, -⟩ := List.getElem?_eq_some_iff.mp hname
      rw [(List.getElem?_inj hjlt h.nodup).mp (hname.trans hi.symm)]

/-- In a valid table that goes on from another one, a name has the number that it has there. -/
theorem Valid.index?_of_extends (h : v.Valid) (hext : v.Extends u) (hi : u.names[i]? = some name) :
    v.index? name = some i := by
  obtain ⟨hlt, -⟩ := List.getElem?_eq_some_iff.mp hi
  obtain ⟨rest, hrest⟩ := hext.appends
  rw [h.index?_eq_some_iff, ← hrest, List.getElem?_append_left hlt, hi]

/-- The numbers of a valid table are those of bits. -/
theorem Valid.lt_of_getElem? (h : t.Valid) (hi : t.names[i]? = some name) : i < 64 := by
  obtain ⟨hlt, -⟩ := List.getElem?_eq_some_iff.mp hi
  have hlength := h.length_le
  have hcap := h.cap_le
  rw [maxAtoms] at hcap
  omega

/-- A name keeps its number. -/
theorem Extends.index? (h : u.Extends t) (hi : t.index? name = some i) :
    u.index? name = some i := by
  obtain ⟨rest, hrest⟩ := h.appends
  obtain ⟨hlt, heq, hfirst⟩ := List.idxOf?_eq_some_iff.mp hi
  rw [AtomTable.index?, ← hrest, List.idxOf?_eq_some_iff]
  refine ⟨by rw [List.length_append]; omega, ?_, ?_⟩
  · rw [List.getElem_append_left hlt, heq]
  · intro j hj
    rw [List.getElem_append_left (by omega)]
    exact hfirst j hj

namespace Extends

theorem refl (t : AtomTable) : t.Extends t := ⟨List.prefix_refl _, rfl, rfl, id⟩

theorem trans (h : v.Extends u) (h' : u.Extends t) : v.Extends t where
  appends := h'.appends.trans h.appends
  cap := h.cap.trans h'.cap
  autoRegister := h.autoRegister.trans h'.autoRegister
  valid := h.valid ∘ h'.valid

end Extends

/-! ## room for names -/

/-- What fits into a valid table is itself without the names that are new. -/
theorem Valid.fits_of_subset (h : t.Valid) {names : List String} (hsub : names ⊆ t.names) :
    t.Fits names := by
  have hsame : (t.names ++ names).toFinset = t.names.toFinset := by
    rw [List.toFinset_append, Finset.union_eq_left]
    intro name hname
    exact List.mem_toFinset.mpr (hsub (List.mem_toFinset.mp hname))
  rw [Fits, hsame]
  exact (List.toFinset_card_le _).trans h.length_le

/-- What fits, fits in part. -/
theorem Fits.left {names more : List String} (h : t.Fits (names ++ more)) : t.Fits names := by
  refine (Finset.card_le_card ?_).trans h
  rw [← List.append_assoc, List.toFinset_append (l := t.names ++ names)]
  exact Finset.subset_union_left

/-- Names fit behind others where all of them fit together. -/
theorem Registered.fits_iff {names more : List String} (h : u.Registered t names) :
    u.Fits more ↔ t.Fits (names ++ more) := by
  rw [Fits, Fits, h.cap, ← List.append_assoc, List.toFinset_append, h.toFinset_names,
    ← List.toFinset_append]

theorem Registered.trans {names more : List String} (h : v.Registered u more)
    (h' : u.Registered t names) : v.Registered t (names ++ more) where
  toExtends := h.toExtends.trans h'.toExtends
  sound := h.sound
  toFinset_names := by
    rw [h.toFinset_names, List.toFinset_append, h'.toFinset_names, ← List.toFinset_append,
      List.append_assoc]

/-- Nothing has to be registered for no names. -/
theorem Valid.registered_nil (h : t.Valid) : t.Registered t [] where
  toExtends := .refl t
  sound := h
  toFinset_names := by rw [List.append_nil]

/-! ## registering -/

/-- The table with one name more. -/
def withName (t : AtomTable) (name : String) : AtomTable := { t with names := t.names ++ [name] }

/-- How many names a table still takes. -/
def free (t : AtomTable) : Nat := t.cap - t.names.length

/-- A new name gets the next number, as long as there is one. -/
theorem register_of_new (h : name ∉ t.names) (hfree : t.free ≠ 0) :
    t.register name = .ok (t.names.length, t.withName name) := by
  rw [register, index?_eq_none_iff.mpr h]
  exact if_neg fun hfull => hfree (Nat.sub_eq_zero_of_le hfull)

theorem register_of_full (h : name ∉ t.names) (hfree : t.free = 0) :
    t.register name = .error (.atomCapExceeded name t.cap) := by
  rw [register, index?_eq_none_iff.mpr h]
  exact if_pos (Nat.le_of_sub_eq_zero hfree)

/-- **What registering does**: a name has its number, or gets the next one, or is refused. -/
theorem register_outcomes (t : AtomTable) (name : String) :
    (∃ i, t.index? name = some i ∧ t.register name = .ok (i, t)) ∨
    (name ∉ t.names ∧ t.free ≠ 0 ∧ t.register name = .ok (t.names.length, t.withName name)) ∨
    (name ∉ t.names ∧ t.free = 0 ∧ t.register name = .error (.atomCapExceeded name t.cap)) := by
  cases hindex : t.index? name with
  | some i => exact .inl ⟨i, rfl, by rw [register, hindex]⟩
  | none =>
      have hnew := index?_eq_none_iff.mp hindex
      by_cases hfree : t.free = 0
      · exact .inr (.inr ⟨hnew, hfree, register_of_full hnew hfree⟩)
      · exact .inr (.inl ⟨hnew, hfree, register_of_new hnew hfree⟩)

/-- **A name is refused** exactly if it is new and the table is full. -/
theorem exists_register_eq_error_iff :
    (∃ e, t.register name = .error e) ↔ name ∉ t.names ∧ t.free = 0 := by
  constructor
  · rintro ⟨e, herror⟩
    obtain ⟨i, -, heq⟩ | ⟨-, -, heq⟩ | ⟨hnew, hfree, -⟩ := t.register_outcomes name
    · exact nomatch herror.symm.trans heq
    · exact nomatch herror.symm.trans heq
    · exact ⟨hnew, hfree⟩
  · rintro ⟨hnew, hfree⟩
    exact ⟨_, register_of_full hnew hfree⟩

theorem extends_withName (h : name ∉ t.names) (hfree : t.free ≠ 0) :
    (t.withName name).Extends t where
  appends := List.prefix_append _ _
  cap := rfl
  autoRegister := rfl
  valid ht := by
    refine ⟨ht.nodup.append (List.nodup_singleton _) (by simpa using h), ?_, ht.cap_le⟩
    rw [withName, List.length_append, List.length_singleton]
    exact Nat.lt_of_sub_ne_zero hfree

/-- A new name fits as long as the table is not full. -/
theorem Valid.fits_singleton_iff (ht : t.Valid) (h : name ∉ t.names) :
    t.Fits [name] ↔ t.free ≠ 0 := by
  have hnodup : (t.names ++ [name]).Nodup :=
    ht.nodup.append (List.nodup_singleton _) (by simpa using h)
  rw [Fits, List.toFinset_card_of_nodup hnodup, List.length_append, List.length_singleton, free,
    Nat.sub_ne_zero_iff_lt, Nat.succ_le_iff]

/-- **A name is registered exactly where it fits.** -/
theorem register_cases (h : t.Valid) (name : String) :
    (t.Fits [name] ∧ ∃ i u, t.register name = .ok (i, u) ∧ u.Registered t [name] ∧
      u.index? name = some i) ∨
    ¬ t.Fits [name] ∧ t.register name = .error (.atomCapExceeded name t.cap) := by
  obtain ⟨i, hindex, heq⟩ | ⟨hnew, hfree, heq⟩ | ⟨hnew, hfree, heq⟩ := t.register_outcomes name
  · left
    have hmem : name ∈ t.names := List.mem_of_getElem? (getElem?_of_index? hindex)
    have hsub : [name] ⊆ t.names := by simpa using hmem
    refine ⟨h.fits_of_subset hsub, i, t, heq, ⟨.refl t, h, ?_⟩, hindex⟩
    rw [List.toFinset_append, eq_comm, Finset.union_eq_left]
    simpa using hmem
  · left
    have hext := extends_withName hnew hfree
    refine ⟨(h.fits_singleton_iff hnew).mpr hfree, _, _, heq, ⟨hext, hext.valid h, rfl⟩, ?_⟩
    rw [(hext.valid h).index?_eq_some_iff, withName, List.getElem?_concat_length]
  · exact .inr ⟨fun hfits => (h.fits_singleton_iff hnew).mp hfits hfree, heq⟩

/-- A table goes on from the one in which a name has been registered. -/
theorem extends_register (h : t.register name = .ok (i, u)) : u.Extends t := by
  obtain ⟨j, -, heq⟩ | ⟨hnew, hfree, heq⟩ | ⟨-, -, heq⟩ := t.register_outcomes name
  · obtain ⟨-, rfl⟩ := Prod.mk.inj (Except.ok.inj (h.symm.trans heq))
    exact .refl _
  · obtain ⟨-, rfl⟩ := Prod.mk.inj (Except.ok.inj (h.symm.trans heq))
    exact extends_withName hnew hfree
  · exact nomatch h.symm.trans heq

/-- A table goes on from the one through which an atom has been written. -/
theorem extends_set {s' : WorldState} {value : Bool} (h : t.set s name value = .ok (s', u)) :
    u.Extends t := by
  rw [set] at h
  split at h
  · obtain ⟨-, rfl⟩ := Prod.mk.inj (Except.ok.inj h)
    exact .refl t
  · split at h
    · cases hregister : t.register name with
      | error e =>
          rw [hregister] at h
          exact nomatch h
      | ok result =>
          rw [hregister] at h
          obtain ⟨-, rfl⟩ := Prod.mk.inj (Except.ok.inj h)
          exact extends_register hregister
    · exact nomatch h

/-! ## writing -/

/-- A way of writing an atom that registers it, if at all, and then sets its bit. -/
def Writes
    (write : AtomTable → WorldState → String → Bool → Except AgentError (WorldState × AtomTable)) :
    Prop :=
  ∀ {t s name value s' u}, write t s name value = .ok (s', u) →
    u.Extends t ∧ ∃ i, u.names[i]? = some name ∧ s' = s.set i value

theorem names_of_register (h : t.register name = .ok (i, u)) : u.names[i]? = some name :=
  (register_ok h).2

theorem writes_setRegistering : Writes setRegistering := by
  intro t s name value s' u h
  rw [setRegistering] at h
  cases hregister : t.register name with
  | error e =>
      rw [hregister] at h
      cases h
  | ok result =>
      rw [hregister] at h
      obtain ⟨rfl, rfl⟩ := Prod.mk.inj (Except.ok.inj h)
      exact ⟨extends_register hregister, _, names_of_register hregister, rfl⟩

theorem writes_set : Writes set := by
  intro t s name value s' u h
  refine ⟨extends_set h, ?_⟩
  rw [set] at h
  split at h
  · next i hindex =>
      obtain ⟨rfl, rfl⟩ := Prod.mk.inj (Except.ok.inj h)
      exact ⟨i, getElem?_of_index? hindex, rfl⟩
  · split at h
    · exact (writes_setRegistering h).2
    · cases h

/-- A table goes on from the one through which pairs have been written, or as many of them as could
be. -/
theorem Writes.extends_writeAll
    {write : AtomTable → WorldState → String → Bool → Except AgentError (WorldState × AtomTable)}
    (h : Writes write) (t : AtomTable) (s : WorldState) (pairs : List (String × Bool)) :
    (t.writeAll write s pairs).2.Extends t := by
  induction pairs generalizing t s with
  | nil => exact .refl t
  | cons pair rest ih =>
      rw [writeAll]
      split
      · next s' u hwrite => exact (ih u s').trans (h hwrite).1
      · exact .refl t

theorem extends_encode (t : AtomTable) (pairs : List (String × Bool)) :
    (t.encode pairs).2.Extends t := writes_set.extends_writeAll t .empty pairs

theorem extends_of_encode {pairs : List (String × Bool)} {result : Except AgentError WorldState}
    (h : t.encode pairs = (result, u)) : u.Extends t := by
  have hencode := t.extends_encode pairs
  rw [h] at hencode
  exact hencode

theorem extends_encodeRegistering (t : AtomTable) (pairs : List (String × Bool)) :
    (t.encodeRegistering pairs).2.Extends t := writes_setRegistering.extends_writeAll t .empty pairs

theorem extends_of_encodeRegistering {pairs : List (String × Bool)}
    (h : t.encodeRegistering pairs = (.ok s, u)) : u.Extends t := by
  have hencode := t.extends_encodeRegistering pairs
  rw [h] at hencode
  exact hencode

/-! ## states by name -/

/-- What is read has its name and its bit. -/
theorem mem_readFrom {names : List String} {value : Bool} (start : Nat) :
    (name, value) ∈ readFrom s start names ↔
      ∃ k, names[k]? = some name ∧ s.value? (start + k) = some value := by
  induction names generalizing start with
  | nil => simp [readFrom]
  | cons first rest ih =>
      have htail : (name, value) ∈ readFrom s (start + 1) rest ↔
          ∃ k, rest[k]? = some name ∧ s.value? (start + (k + 1)) = some value := by
        rw [ih]
        simp only [Nat.add_assoc, Nat.add_comm 1]
      have hsplit : (∃ k, (first :: rest)[k]? = some name ∧ s.value? (start + k) = some value) ↔
          (first = name ∧ s.value? start = some value) ∨
            (name, value) ∈ readFrom s (start + 1) rest := by
        rw [htail]
        constructor
        · rintro ⟨_ | k, hk, hvalue⟩
          · exact .inl ⟨by simpa using hk, hvalue⟩
          · exact .inr ⟨k, by simpa using hk, hvalue⟩
        · rintro (⟨rfl, hvalue⟩ | ⟨k, hk, hvalue⟩)
          · exact ⟨0, rfl, hvalue⟩
          · exact ⟨k + 1, by simpa using hk, hvalue⟩
      rw [hsplit, readFrom]
      cases hvalue : s.value? start with
      | none => simp
      | some b => simp [eq_comm]

/-- What is read are names of the table, in their order. -/
theorem map_fst_readFrom_sublist (s : WorldState) (start : Nat) (names : List String) :
    ((readFrom s start names).map Prod.fst).Sublist names := by
  induction names generalizing start with
  | nil => exact List.Sublist.refl _
  | cons first rest ih =>
      rw [readFrom]
      cases s.value? start with
      | none => exact (ih _).cons _
      | some b => exact (ih _).cons_cons _

/-- **A state says of a name** what its bit says. -/
theorem Valid.getElem?_toMap (h : t.Valid) (s : WorldState) (name : String) :
    (t.toMap s)[name]? = (t.index? name).bind s.value? := by
  have hnodup : ((t.read s).map Prod.fst).Nodup := h.nodup.sublist (map_fst_readFrom_sublist _ _ _)
  apply Option.ext
  intro value
  rw [toMap, SortedMap.getElem?_ofList_eq_some_iff hnodup, read, mem_readFrom,
    Option.bind_eq_some_iff]
  simp only [h.index?_eq_some_iff, Nat.zero_add]

/-- Where nothing is specified, nothing is said. -/
theorem Valid.toMap_empty (h : t.Valid) : t.toMap .empty = ∅ := by
  apply Std.ExtTreeMap.ext_getElem?
  intro name
  rw [h.getElem?_toMap, Std.ExtTreeMap.getElem?_empty]
  cases hindex : t.index? name with
  | none => rfl
  | some i => exact WorldState.value?_empty (h.lt_of_getElem? (getElem?_of_index? hindex))

/-- **Writing an atom** writes an entry of the map. -/
theorem Valid.toMap_set (h : t.Valid) (s : WorldState) (hindex : t.index? name = some i)
    (value : Bool) : t.toMap (s.set i value) = (t.toMap s).insert name value := by
  have hi := h.lt_of_getElem? (getElem?_of_index? hindex)
  apply Std.ExtTreeMap.ext_getElem?
  intro other
  rw [SortedMap.getElem?_insert, h.getElem?_toMap, h.getElem?_toMap]
  cases hother : t.index? other with
  | none =>
      have hne : other ≠ name := fun heq => by simp [heq, hindex] at hother
      rw [if_neg hne]
      rfl
  | some j =>
      have hj := h.lt_of_getElem? (getElem?_of_index? hother)
      have hsame : other = name ↔ i = j := by
        constructor
        · rintro rfl
          exact Option.some.inj (hindex.symm.trans hother)
        · rintro rfl
          exact Option.some.inj
            ((getElem?_of_index? hother).symm.trans (getElem?_of_index? hindex))
      show (s.set i value).value? j = _
      rw [WorldState.value?_set s hi hj]
      simp only [hsame]
      rfl

/-! ## encoding -/

/-- **What pairs have been written stands** in every table that goes on: each of them writes an
entry of the map. -/
theorem Writes.toMap_writeAll
    {write : AtomTable → WorldState → String → Bool → Except AgentError (WorldState × AtomTable)}
    (h : Writes write) {s' : WorldState} {pairs : List (String × Bool)}
    (hwrite : t.writeAll write s pairs = (.ok s', u)) (hv : v.Valid) (hext : v.Extends u) :
    v.toMap s' = (v.toMap s).insertMany pairs := by
  induction pairs generalizing t s with
  | nil =>
      obtain ⟨hs, -⟩ := Prod.mk.inj hwrite
      rw [Except.ok.inj hs, Std.ExtTreeMap.insertMany_nil]
  | cons pair rest ih =>
      obtain ⟨name, value⟩ := pair
      rw [writeAll] at hwrite
      cases hfirst : write t s name value with
      | error e =>
          rw [hfirst] at hwrite
          cases hwrite
      | ok result =>
          obtain ⟨r, w⟩ := result
          rw [hfirst] at hwrite
          obtain ⟨-, i, hname, rfl⟩ := h hfirst
          replace hwrite : w.writeAll write (s.set i value) rest = (.ok s', u) := hwrite
          have hlater := h.extends_writeAll w (s.set i value) rest
          rw [hwrite] at hlater
          have hindex := hv.index?_of_extends (hext.trans hlater) hname
          rw [ih hwrite, hv.toMap_set s hindex, ← Std.ExtTreeMap.insertMany_cons]

/-- Pairs are written exactly where their names fit. -/
theorem writeAll_setRegistering_cases (h : t.Valid) (s : WorldState)
    (pairs : List (String × Bool)) :
    (t.Fits (pairs.map Prod.fst) ∧ ∃ s' u, t.writeAll setRegistering s pairs = (.ok s', u) ∧
      u.Registered t (pairs.map Prod.fst)) ∨
    ¬ t.Fits (pairs.map Prod.fst) ∧ ∃ e, (t.writeAll setRegistering s pairs).1 = .error e := by
  induction pairs generalizing t s with
  | nil =>
      exact .inl ⟨h.fits_of_subset (List.nil_subset _), s, t, rfl, h.registered_nil⟩
  | cons pair rest ih =>
      obtain ⟨name, value⟩ := pair
      have hcons : ((name, value) :: rest).map Prod.fst = [name] ++ rest.map Prod.fst := rfl
      rw [hcons]
      obtain ⟨hfits, i, u, hregister, hu, hindex⟩ | ⟨hfull, hregister⟩ := register_cases h name
      · have hwrite : t.setRegistering s name value = .ok (s.set i value, u) := by
          rw [setRegistering, hregister]
          rfl
        have hwalk : t.writeAll setRegistering s ((name, value) :: rest) =
            u.writeAll setRegistering (s.set i value) rest := by
          rw [writeAll, hwrite]
        rw [hwalk, ← hu.fits_iff]
        obtain ⟨hrest, s', w, hw, hregistered⟩ | hrest := ih hu.sound (s.set i value)
        · exact .inl ⟨hrest, s', w, hw, hregistered.trans hu⟩
        · exact .inr hrest
      · right
        refine ⟨fun hfits => hfull hfits.left, .atomCapExceeded name t.cap, ?_⟩
        have hwrite : t.setRegistering s name value = .error (.atomCapExceeded name t.cap) := by
          rw [setRegistering, hregister]
          rfl
        rw [writeAll, hwrite]

/-- **Pairs are encoded exactly where their names fit**, and the state stands for their map. -/
theorem encodeRegistering_cases (h : t.Valid) (pairs : List (String × Bool)) :
    (t.Fits (pairs.map Prod.fst) ∧ ∃ s u, t.encodeRegistering pairs = (.ok s, u) ∧
      u.Registered t (pairs.map Prod.fst) ∧
      ∀ v : AtomTable, v.Valid → v.Extends u → v.toMap s = .ofList pairs) ∨
    ¬ t.Fits (pairs.map Prod.fst) ∧ ∃ e, (t.encodeRegistering pairs).1 = .error e := by
  obtain ⟨hfits, s, u, hwrite, hu⟩ | herror := writeAll_setRegistering_cases h .empty pairs
  · refine .inl ⟨hfits, s, u, hwrite, hu, fun v hv hext => ?_⟩
    rw [writes_setRegistering.toMap_writeAll hwrite hv hext, hv.toMap_empty,
      Std.ExtTreeMap.ofList_eq_insertMany_empty]
  · exact .inr herror

end AtomTable

/-- **A state keeps its meaning** in the terms of another table, exactly where the atoms that it
specifies fit there. -/
theorem WorldState.remap_cases {into : AtomTable} (h : into.Valid) (s : WorldState)
    (table : AtomTable) :
    (into.Fits ((table.read s).map Prod.fst) ∧ ∃ s' u, s.remap table into = (.ok s', u) ∧
      u.Registered into ((table.read s).map Prod.fst) ∧
      ∀ v : AtomTable, v.Valid → v.Extends u → v.toMap s' = table.toMap s) ∨
    ¬ into.Fits ((table.read s).map Prod.fst) ∧ ∃ e, (s.remap table into).1 = .error e :=
  AtomTable.encodeRegistering_cases h (table.read s)

end PlanningAgents
