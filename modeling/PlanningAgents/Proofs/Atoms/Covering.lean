import PlanningAgents.Proofs.Atoms.Distance
import PlanningAgents.Proofs.Atoms.Registration

/-!
# PlanningAgents.Proofs.Atoms.Covering

States in the terms of a table.  A state is canonical when it has no value where it specifies
nothing, and a table covers it when it names besides every atom that the state specifies
(`AtomTable.Covers`).  Writing through the table keeps a state covered, and so do effects that are
covered themselves; a table that goes on from another one covers what the other covers.

Nothing of a covered state is lost when it is read: what it says of a number it says of a name, and
it says the same in every table that goes on (`AtomTable.Covers.toMap_eq`).

Main statements:

* `WorldState.canonical_iff`, `WorldState.Canonical.apply` — canonical states, bit by bit;
* `AtomTable.Covers.set`, `AtomTable.Covers.apply`, `AtomTable.covers_of_encode` — what keeps a
  state covered;
* `AtomTable.Covers.exists_name`, `AtomTable.Covers.toMap_eq` — what a covered state says by name;
* `AtomTable.testBit_mask`, `AtomTable.testBit_allMask` — the bits of names, and of all names;
* `AtomTable.Valid.mask_describeBits` — bits are described by names and read back.
-/

namespace PlanningAgents

namespace WorldState

variable {s effect : WorldState} {i : Nat}

/-! ## canonical states -/

/-- A canonical state has no value where it specifies nothing. -/
theorem canonical_iff (s : WorldState) :
    s.Canonical ↔ ∀ i < 64, testBit s.dontcare i = true → testBit s.values i = false := by
  rw [Canonical]
  constructor
  · intro h i hi hdontcare
    have hbit := testBit_and s.values s.dontcare hi
    rw [h, hdontcare, Bool.and_true] at hbit
    rw [← hbit]
    simp [testBit_eq_getLsbD _ hi]
  · intro h
    apply eq_of_testBit
    intro i hi
    have hzero : testBit 0 i = false := by simp [testBit_eq_getLsbD _ hi]
    rw [testBit_and _ _ hi, hzero]
    cases hdontcare : testBit s.dontcare i with
    | true => rw [h i hi hdontcare, Bool.false_and]
    | false => rw [Bool.and_false]

theorem canonical_empty : empty.Canonical := by decide

/-- Writing an atom keeps a state canonical. -/
theorem Canonical.set (h : s.Canonical) (i : Nat) (value : Bool) : (s.set i value).Canonical := by
  rw [canonical_iff] at h ⊢
  intro j hj hdontcare
  simp only [WorldState.set, testBit_and _ _ hj, testBit_not _ hj, Bool.and_eq_true,
    Bool.not_eq_true'] at hdontcare
  cases value with
  | true => simp [WorldState.set, testBit_or _ _ hj, h j hj, hdontcare]
  | false => simp [WorldState.set, testBit_and _ _ hj, h j hj, hdontcare]

/-- A canonical effect keeps a state canonical. -/
theorem Canonical.apply (h : s.Canonical) (heffect : effect.Canonical) :
    (s.apply effect).Canonical := by
  rw [canonical_iff] at h heffect ⊢
  intro i hi hdontcare
  simp only [WorldState.apply, testBit_and _ _ hi, Bool.and_eq_true] at hdontcare
  simp [WorldState.apply, testBit_and _ _ hi, testBit_or _ _ hi, h i hi, heffect i hi, hdontcare]

end WorldState

namespace AtomTable

variable {t u : AtomTable} {s s' effect : WorldState} {name : String} {i : Nat}

/-! ## covered states -/

/-- A state is canonical, and the table names every atom that it specifies. -/
structure Covers (t : AtomTable) (s : WorldState) : Prop where
  canonical : s.Canonical
  named : ∀ i < 64, (s.value? i).isSome = true → i < t.names.length

/-- Where nothing is specified, nothing needs a name. -/
theorem covers_empty (t : AtomTable) : t.Covers .empty where
  canonical := WorldState.canonical_empty
  named i hi hsome := by
    rw [WorldState.value?_empty hi] at hsome
    cases hsome

/-- What is named stays named. -/
theorem Extends.length_le (h : u.Extends t) : t.names.length ≤ u.names.length :=
  h.appends.length_le

/-- A table covers what a table covers from which it goes on. -/
theorem Covers.extends (h : t.Covers s) (hext : u.Extends t) : u.Covers s where
  canonical := h.canonical
  named i hi hsome := (h.named i hi hsome).trans_le hext.length_le

/-- A table from which a valid one goes on is valid. -/
theorem Extends.valid_of_valid (h : u.Extends t) (hu : u.Valid) :
    t.Valid where
  nodup := hu.nodup.sublist h.appends.sublist
  length_le := by
    rw [← h.cap]
    exact h.length_le.trans hu.length_le
  cap_le := h.cap ▸ hu.cap_le

/-- The numbers of names are those of bits. -/
theorem Valid.length_lt (h : t.Valid) : t.names.length < 64 := by
  have hlength := h.length_le
  have hcap := h.cap_le
  rw [maxAtoms] at hcap
  omega

/-- Writing an atom that has a name keeps a state covered. -/
theorem Covers.set (h : t.Covers s) (hvalid : t.Valid) (hi : i < t.names.length) (value : Bool) :
    t.Covers (s.set i value) where
  canonical := h.canonical.set i value
  named j hj hsome := by
    rw [WorldState.value?_set s (hi.trans hvalid.length_lt) hj] at hsome
    by_cases hsame : i = j
    · exact hsame ▸ hi
    · rw [if_neg hsame] at hsome
      exact h.named j hj hsome

/-- An effect that is covered keeps a state covered. -/
theorem Covers.apply (h : t.Covers s) (heffect : t.Covers effect) : t.Covers (s.apply effect) where
  canonical := h.canonical.apply heffect.canonical
  named i hi hsome := by
    rw [WorldState.value?_apply s effect hi, Option.isSome_or, Bool.or_eq_true] at hsome
    exact hsome.elim (heffect.named i hi) (h.named i hi)

/-! ## writing -/

/-- **Writing through a table** keeps a state covered. -/
theorem Covers.write (h : t.Covers s) (hvalid : t.Valid) {value : Bool}
    {write : AtomTable → WorldState → String → Bool → Except AgentError (WorldState × AtomTable)}
    (hwrites : Writes write) (hwrite : write t s name value = .ok (s', u)) : u.Covers s' := by
  obtain ⟨hext, i, hname, rfl⟩ := hwrites hwrite
  obtain ⟨hi, -⟩ := List.getElem?_eq_some_iff.mp hname
  exact (h.extends hext).set (hext.valid hvalid) hi value

theorem Covers.writeAll (h : t.Covers s) (hvalid : t.Valid) {pairs : List (String × Bool)}
    {write : AtomTable → WorldState → String → Bool → Except AgentError (WorldState × AtomTable)}
    (hwrites : Writes write) (hwrite : t.writeAll write s pairs = (.ok s', u)) : u.Covers s' := by
  induction pairs generalizing t s with
  | nil =>
      obtain ⟨hs, rfl⟩ := Prod.mk.inj hwrite
      obtain rfl := Except.ok.inj hs
      exact h
  | cons pair rest ih =>
      rw [AtomTable.writeAll] at hwrite
      cases hfirst : write t s pair.1 pair.2 with
      | error e =>
          rw [hfirst] at hwrite
          cases hwrite
      | ok result =>
          rw [hfirst] at hwrite
          have hext := (hwrites hfirst).1
          exact ih (h.write hvalid hwrites hfirst) (hext.valid hvalid) hwrite

/-- What is encoded is covered. -/
theorem covers_of_encode (hvalid : t.Valid) {pairs : List (String × Bool)}
    (h : t.encode pairs = (.ok s, u)) : u.Covers s :=
  t.covers_empty.writeAll hvalid writes_set h

theorem covers_of_encodeRegistering (hvalid : t.Valid) {pairs : List (String × Bool)}
    (h : t.encodeRegistering pairs = (.ok s, u)) : u.Covers s :=
  t.covers_empty.writeAll hvalid writes_setRegistering h

/-! ## reading -/

/-- **Every atom that a covered state specifies** is read by its name, with its value. -/
theorem Covers.exists_name (h : t.Covers s) (hvalid : t.Valid) (hi : i < 64) {value : Bool}
    (hvalue : s.value? i = some value) :
    ∃ name, t.name? i = some name ∧ (name, value) ∈ t.read s ∧
      (t.toMap s)[name]? = some value := by
  have hlt := h.named i hi (by rw [hvalue]; rfl)
  have hname : t.names[i]? = some t.names[i] := List.getElem?_eq_getElem hlt
  refine ⟨t.names[i], hname, ?_, ?_⟩
  · rw [read, mem_readFrom]
    exact ⟨i, hname, by rw [Nat.zero_add, hvalue]⟩
  · rw [hvalid.getElem?_toMap, hvalid.index?_eq_some_iff.mpr hname]
    exact hvalue

/-- **A covered state says the same by name** in every table that goes on. -/
theorem Covers.toMap_eq (h : t.Covers s) (hvalid : t.Valid) (hext : u.Extends t) :
    u.toMap s = t.toMap s := by
  apply Std.ExtTreeMap.ext_getElem?
  intro name
  rw [(hext.valid hvalid).getElem?_toMap, hvalid.getElem?_toMap]
  cases hindex : t.index? name with
  | some i => rw [hext.index? hindex]
  | none =>
      cases hlater : u.index? name with
      | none => rfl
      | some i =>
          -- the number is a new one, so that the state does not specify it
          have hname := getElem?_of_index? hlater
          have hi := (hext.valid hvalid).lt_of_getElem? hname
          show s.value? i = none
          rw [← Option.not_isSome_iff_eq_none]
          intro hsome
          obtain ⟨rest, hrest⟩ := hext.appends
          rw [← hrest, List.getElem?_append_left (h.named i hi hsome)] at hname
          rw [hvalid.index?_eq_some_iff.mpr hname] at hindex
          cases hindex

/-! ## masks -/

/-- Collecting bits adds those of the numbers that are passed. -/
theorem testBit_foldl_bit (numbers : List Nat) (hnumbers : ∀ j ∈ numbers, j < 64) (w : UInt64)
    (hi : i < 64) :
    testBit (numbers.foldl (fun m j => m ||| bit j) w) i = true ↔
      testBit w i = true ∨ i ∈ numbers := by
  induction numbers generalizing w with
  | nil => simp
  | cons j rest ih =>
      have hj := hnumbers j List.mem_cons_self
      rw [List.foldl_cons, ih (fun k hk => hnumbers k (List.mem_cons_of_mem _ hk)),
        testBit_or _ _ hi, testBit_bit hj hi, List.mem_cons, Bool.or_eq_true, decide_eq_true_eq,
        or_assoc, eq_comm (a := j)]

/-- **The bits of names** are those of their numbers. -/
theorem testBit_mask (hvalid : t.Valid) (names : List String) (hi : i < 64) :
    testBit (t.mask names) i = true ↔ ∃ name ∈ names, t.index? name = some i := by
  have hnumbers : ∀ j ∈ names.filterMap t.index?, j < 64 := by
    intro j hj
    obtain ⟨name, -, hindex⟩ := List.mem_filterMap.mp hj
    exact hvalid.lt_of_getElem? (getElem?_of_index? hindex)
  have hzero : testBit 0 i = false := by simp [testBit_eq_getLsbD _ hi]
  rw [mask, testBit_foldl_bit _ hnumbers _ hi, hzero, List.mem_filterMap]
  simp

/-- The word below a bit has the bits of all smaller numbers. -/
theorem testBit_bit_sub_one {n : Nat} (hn : n < 64) (hi : i < 64) :
    testBit (bit n - 1) i = decide (i < n) := by
  have hbit : (bit n).toNat = 2 ^ n := by
    apply Nat.eq_of_testBit_eq
    intro j
    rw [Nat.testBit_two_pow]
    exact getLsbD_bit hn j
  have hone : (1 : UInt64) ≤ bit n := by
    rw [UInt64.le_iff_toNat_le, hbit]
    exact Nat.one_le_two_pow
  have hsub : (bit n - 1).toNat = 2 ^ n - 1 := by
    rw [UInt64.toNat_sub_of_le _ _ hone, hbit]
    rfl
  rw [testBit_eq_getLsbD _ hi, ← Nat.testBit_two_pow_sub_one, ← hsub]
  rfl

/-- **The bits of all names** are those below their number. -/
theorem testBit_allMask (hvalid : t.Valid) (hi : i < 64) :
    testBit t.allMask i = true ↔ i < t.names.length := by
  have hlength := hvalid.length_lt
  rw [allMask, if_neg (Nat.not_le_of_lt hlength), testBit_bit_sub_one hlength hi,
    decide_eq_true_eq]

/-- The names of bits are those names whose numbers are set. -/
theorem namesFrom_eq (m : UInt64) (start : Nat) (names : List String) :
    namesFrom m start names = ((names.zipIdx start).filter (testBit m ·.2)).map Prod.fst := by
  induction names generalizing start with
  | nil => rfl
  | cons name rest ih =>
      rw [namesFrom, List.zipIdx_cons, List.filter_cons, ih]
      split
      · rfl
      · rfl

theorem mem_describeBits {m : UInt64} :
    name ∈ t.describeBits m ↔ ∃ i, t.names[i]? = some name ∧ testBit m i = true := by
  rw [describeBits, namesFrom_eq, List.mem_map]
  simp [List.mk_mem_zipIdx_iff_getElem?]

/-- No name is described twice. -/
theorem Valid.nodup_describeBits (h : t.Valid) (m : UInt64) : (t.describeBits m).Nodup := by
  have hsub : (t.describeBits m).Sublist t.names := by
    rw [describeBits, namesFrom_eq]
    exact (List.filter_sublist.map _).trans (by rw [List.zipIdx_map_fst])
  exact h.nodup.sublist hsub

/-- **Bits are described and read back** as far as they have names. -/
theorem Valid.mask_describeBits (h : t.Valid) (m : UInt64) :
    t.mask (t.describeBits m) = m &&& t.allMask := by
  apply eq_of_testBit
  intro i hi
  rw [Bool.eq_iff_iff, testBit_mask h _ hi, testBit_and _ _ hi, Bool.and_eq_true,
    testBit_allMask h hi]
  constructor
  · rintro ⟨name, hname, hindex⟩
    obtain ⟨j, hj, hbit⟩ := mem_describeBits.mp hname
    obtain rfl := Option.some.inj (hindex.symm.trans (h.index?_eq_some_iff.mpr hj))
    exact ⟨hbit, (List.getElem?_eq_some_iff.mp hj).1⟩
  · rintro ⟨hbit, hlt⟩
    have hname : t.names[i]? = some t.names[i] := List.getElem?_eq_getElem hlt
    exact ⟨_, mem_describeBits.mpr ⟨i, hname, hbit⟩, h.index?_eq_some_iff.mpr hname⟩

end AtomTable

end PlanningAgents
