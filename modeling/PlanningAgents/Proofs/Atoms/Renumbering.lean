import Mathlib.Algebra.BigOperators.Fin
import Mathlib.Data.Fintype.Sum
import PlanningAgents.Proofs.Atoms.Covering

/-!
# PlanningAgents.Proofs.Atoms.Renumbering

Other numbers for the same atoms.  A permutation of the bits of a word moves every bit to its new
place and changes nothing else, so that all that states are asked, whether one meets another, what
an effect makes of one, how far one is from another, is answered alike before and after
(`WorldState.renumber`).

A table is rebuilt in another order when other names come first.  What a state says by name in the
one table another state says in the other (`AtomTable.SaysAlike`), and one permutation renumbers all
such states, since an atom that is named in both tables has one number in each.

Main statements:

* `testBit_permuteBits` — every bit is moved to its new place;
* `WorldState.meets_renumber`, `WorldState.apply_renumber`, `WorldState.distanceTo_renumber` — what
  is asked of states is answered alike;
* `AtomTable.exists_renumber_eq` — states that say the same by name differ by a permutation.
-/

namespace PlanningAgents

/-! ## words -/

/-- The word in which every bit of `w` has the number that `π` gives it. -/
def permuteBits (π : Equiv.Perm (Fin 64)) (w : UInt64) : UInt64 :=
  (((List.finRange 64).filter fun i : Fin 64 => testBit w i).map fun i => (π i : Nat)).foldl
    (fun m j => m ||| bit j) 0

variable {π : Equiv.Perm (Fin 64)} {v w : UInt64}

/-- Every bit is moved to its new place. -/
theorem testBit_permuteBits (π : Equiv.Perm (Fin 64)) (w : UInt64) (i : Fin 64) :
    testBit (permuteBits π w) (π i) = testBit w i := by
  have hnumbers : ∀ j ∈ ((List.finRange 64).filter fun i : Fin 64 => testBit w i).map
      fun i => (π i : Nat), j < 64 := by
    intro j hj
    obtain ⟨i, -, rfl⟩ := List.mem_map.mp hj
    exact (π i).isLt
  have hzero : testBit 0 (π i) = false := by simp [testBit_eq_getLsbD _ (π i).isLt]
  rw [Bool.eq_iff_iff, permuteBits, AtomTable.testBit_foldl_bit _ hnumbers _ (π i).isLt, hzero]
  simp [Fin.val_inj]

/-- Words that have the same bits in their new places are the same. -/
theorem eq_of_testBit_perm (π : Equiv.Perm (Fin 64))
    (h : ∀ i : Fin 64, testBit v (π i) = testBit w (π i)) : v = w := by
  apply eq_of_testBit
  intro i hi
  simpa using h (π.symm ⟨i, hi⟩)

theorem permuteBits_inj : permuteBits π v = permuteBits π w ↔ v = w := by
  refine ⟨fun h => eq_of_testBit fun i hi => ?_, congrArg _⟩
  have hbit := congrArg (testBit · (π ⟨i, hi⟩)) h
  simpa only [testBit_permuteBits] using hbit

theorem permuteBits_and (v w : UInt64) :
    permuteBits π (v &&& w) = permuteBits π v &&& permuteBits π w := by
  apply eq_of_testBit_perm π
  intro i
  simp only [testBit_permuteBits, testBit_and _ _ (π i).isLt, testBit_and _ _ i.isLt]

theorem permuteBits_or (v w : UInt64) :
    permuteBits π (v ||| w) = permuteBits π v ||| permuteBits π w := by
  apply eq_of_testBit_perm π
  intro i
  simp only [testBit_permuteBits, testBit_or _ _ (π i).isLt, testBit_or _ _ i.isLt]

theorem permuteBits_xor (v w : UInt64) :
    permuteBits π (v ^^^ w) = permuteBits π v ^^^ permuteBits π w := by
  apply eq_of_testBit_perm π
  intro i
  simp only [testBit_permuteBits, testBit_xor _ _ (π i).isLt, testBit_xor _ _ i.isLt]

theorem permuteBits_not (w : UInt64) : permuteBits π (~~~w) = ~~~permuteBits π w := by
  apply eq_of_testBit_perm π
  intro i
  simp only [testBit_permuteBits, testBit_not _ (π i).isLt, testBit_not _ i.isLt]

/-- The bits of a word are counted one by one. -/
theorem countBits_eq_sum (w : UInt64) (n : Nat) :
    countBits w n = ∑ i ∈ Finset.range n, if testBit w i then 1 else 0 := by
  induction n with
  | zero => rfl
  | succ n ih => rw [countBits, ih, Finset.sum_range_succ]

/-- No bit is lost on the way. -/
theorem countBits_permuteBits (w : UInt64) : countBits (permuteBits π w) 64 = countBits w 64 := by
  rw [countBits_eq_sum, countBits_eq_sum, Finset.sum_range, Finset.sum_range,
    ← Equiv.sum_comp π]
  simp only [testBit_permuteBits]

namespace WorldState

/-! ## states -/

/-- The state that says of the new number of every atom what `s` says of its old one. -/
def renumber (π : Equiv.Perm (Fin 64)) (s : WorldState) : WorldState where
  values := permuteBits π s.values
  dontcare := permuteBits π s.dontcare

variable {s t : WorldState}

/-- The new number of an atom stands for what the old one did. -/
theorem value?_renumber (π : Equiv.Perm (Fin 64)) (s : WorldState) (i : Fin 64) :
    (s.renumber π).value? (π i) = s.value? i := by
  rw [value?, value?, renumber, testBit_permuteBits, testBit_permuteBits]

@[simp] theorem renumber_inj : s.renumber π = t.renumber π ↔ s = t := by
  rw [renumber, renumber, mk.injEq, permuteBits_inj, permuteBits_inj, ← mk.injEq]

/-- Whether a state meets another does not hang on the numbers of atoms. -/
@[simp] theorem meets_renumber (s t : WorldState) :
    (s.renumber π).meets (t.renumber π) = s.meets t := by
  rw [Bool.eq_iff_iff, meets, meets, beq_iff_eq, beq_iff_eq]
  simp only [renumber, ← permuteBits_not, ← permuteBits_and, permuteBits_inj]

/-- Nor does what an effect makes of a state. -/
@[simp] theorem apply_renumber (s effect : WorldState) :
    (s.renumber π).apply (effect.renumber π) = (s.apply effect).renumber π := by
  simp only [renumber, apply, ← permuteBits_not, ← permuteBits_and, ← permuteBits_or]

/-- Nor how far a state is from a goal. -/
@[simp] theorem distanceTo_renumber (s goal : WorldState) :
    (s.renumber π).distanceTo (goal.renumber π) = s.distanceTo goal := by
  simp only [renumber, distanceTo, ← permuteBits_not, ← permuteBits_xor, ← permuteBits_and,
    countBits_permuteBits]

theorem Canonical.renumber (h : s.Canonical) : (s.renumber π).Canonical := by
  rw [canonical_iff] at h ⊢
  intro j hj hdontcare
  obtain ⟨i, hi⟩ := π.surjective ⟨j, hj⟩
  obtain rfl : (π i : Nat) = j := congrArg Fin.val hi
  simp only [WorldState.renumber, testBit_permuteBits] at hdontcare ⊢
  exact h i i.isLt hdontcare

/-- Canonical states that say the same of every number are the same. -/
theorem Canonical.ext (hs : s.Canonical) (ht : t.Canonical)
    (h : ∀ i < 64, s.value? i = t.value? i) : s = t := by
  rw [canonical_iff] at hs ht
  have hdontcare : s.dontcare = t.dontcare := by
    apply eq_of_testBit
    intro i hi
    have hvalue := h i hi
    grind [value?]
  have hvalues : s.values = t.values := by
    apply eq_of_testBit
    intro i hi
    have hvalue := h i hi
    have hzero := hs i hi
    have hzero' := ht i hi
    grind [value?]
  cases s
  cases t
  rw [mk.injEq]
  exact ⟨hvalues, hdontcare⟩

end WorldState

namespace AtomTable

/-! ## tables -/

/-- In two tables two states say the same by name. -/
structure SaysAlike (t u : AtomTable) (s s' : WorldState) : Prop where
  covers : t.Covers s
  covers' : u.Covers s'
  toMap_eq : u.toMap s' = t.toMap s

/-- The number in another table of the atom with a number. -/
def numberIn (t u : AtomTable) (i : Nat) : Option Nat := (t.name? i).bind u.index?

variable {t u : AtomTable} {s s' effect effect' : WorldState} {name : String} {i j k : Nat}

theorem numberIn_eq_some_iff (hu : u.Valid) :
    t.numberIn u i = some j ↔ ∃ name, t.names[i]? = some name ∧ u.names[j]? = some name := by
  rw [numberIn, name?, Option.bind_eq_some_iff]
  simp only [hu.index?_eq_some_iff]

/-- Two atoms have two numbers in the other table. -/
theorem numberIn_inj (ht : t.Valid) (hu : u.Valid) (hi : t.numberIn u i = some j)
    (hk : t.numberIn u k = some j) : i = k := by
  obtain ⟨name, hname, hj⟩ := (numberIn_eq_some_iff hu).mp hi
  obtain ⟨name', hname', hj'⟩ := (numberIn_eq_some_iff hu).mp hk
  obtain rfl := Option.some.inj (hj.symm.trans hj')
  exact (List.getElem?_inj (List.getElem?_eq_some_iff.mp hname).1 ht.nodup).mp
    (hname.trans hname'.symm)

/-- A permutation gives every atom that is in both tables its number in the other one. -/
theorem exists_perm_numberIn (ht : t.Valid) (hu : u.Valid) :
    ∃ π : Equiv.Perm (Fin 64), ∀ (i : Fin 64) (j : Nat), t.numberIn u i = some j → π i = j := by
  let f (i : Fin 64) : Fin 64 := Fin.ofNat 64 ((t.numberIn u i).getD 0)
  let both : Finset (Fin 64) := Finset.univ.filter fun i => (t.numberIn u i).isSome
  have hf {i : Fin 64} {j : Nat} (hj : t.numberIn u i = some j) : (f i : Nat) = j := by
    obtain ⟨name, -, hname⟩ := (numberIn_eq_some_iff hu).mp hj
    have hlt := hu.lt_of_getElem? hname
    simp only [f, hj, Option.getD_some, Fin.val_ofNat]
    exact Nat.mod_eq_of_lt hlt
  have hinj : Set.InjOn f both := by
    intro i hi k hk heq
    obtain ⟨j, hj⟩ := Option.isSome_iff_exists.mp (Finset.mem_filter.mp hi).2
    obtain ⟨j', hj'⟩ := Option.isSome_iff_exists.mp (Finset.mem_filter.mp hk).2
    obtain rfl : j = j' := by rw [← hf hj, heq, hf hj']
    exact Fin.ext (numberIn_inj ht hu hj hj')
  obtain ⟨g, hg⟩ := Finset.exists_equiv_extend_of_card_eq (t := Finset.univ)
    (by simp) (Finset.subset_univ _) hinj
  refine ⟨g.trans (Equiv.subtypeUnivEquiv Finset.mem_univ), fun i j hj => ?_⟩
  have hi : i ∈ both := Finset.mem_filter.mpr ⟨Finset.mem_univ i, by rw [hj]; rfl⟩
  rw [← hf hj, ← hg i hi]
  rfl

namespace SaysAlike

/-- What a state says of an atom, the other one says of its number there. -/
theorem value?_of_value? (h : t.SaysAlike u s s') (ht : t.Valid) (hu : u.Valid) (hi : i < 64)
    {value : Bool} (hvalue : s.value? i = some value) :
    ∃ j, t.numberIn u i = some j ∧ s'.value? j = some value := by
  obtain ⟨name, hname, -, hmap⟩ := h.covers.exists_name ht hi hvalue
  rw [← h.toMap_eq, hu.getElem?_toMap, Option.bind_eq_some_iff] at hmap
  obtain ⟨j, hj, hvalue'⟩ := hmap
  exact ⟨j, by rw [numberIn, hname, Option.bind_some, hj], hvalue'⟩

/-- **States that say the same by name** differ by the permutation of their tables. -/
theorem eq_renumber (h : t.SaysAlike u s s') (ht : t.Valid) (hu : u.Valid)
    {π : Equiv.Perm (Fin 64)}
    (hπ : ∀ (i : Fin 64) (j : Nat), t.numberIn u i = some j → π i = j) : s' = s.renumber π := by
  refine h.covers'.canonical.ext h.covers.canonical.renumber fun j hj => ?_
  obtain ⟨i, hi⟩ := π.surjective ⟨j, hj⟩
  obtain rfl : (π i : Nat) = j := congrArg Fin.val hi
  rw [WorldState.value?_renumber]
  apply Option.ext
  intro value
  constructor
  · intro hvalue
    -- the name that the other state knows the atom by has a number here too
    obtain ⟨name, hname, -, hmap⟩ := h.covers'.exists_name hu (π i).isLt hvalue
    rw [h.toMap_eq, ht.getElem?_toMap, Option.bind_eq_some_iff] at hmap
    obtain ⟨k, hk, hvalue'⟩ := hmap
    have hk' := getElem?_of_index? hk
    have hnumber := hπ ⟨k, ht.lt_of_getElem? hk'⟩ (π i)
      ((numberIn_eq_some_iff hu).mpr ⟨name, hk', hname⟩)
    obtain rfl := π.injective (Fin.ext hnumber)
    exact hvalue'
  · intro hvalue
    obtain ⟨j, hj, hvalue'⟩ := h.value?_of_value? ht hu i.isLt hvalue
    rw [hπ i j hj]
    exact hvalue'

end SaysAlike

/-- By name too, an effect decides the atoms that it specifies and keeps the others. -/
theorem Valid.getElem?_toMap_apply (h : t.Valid) (s effect : WorldState) (name : String) :
    (t.toMap (s.apply effect))[name]? = (t.toMap effect)[name]?.or (t.toMap s)[name]? := by
  rw [h.getElem?_toMap, h.getElem?_toMap, h.getElem?_toMap]
  cases hindex : t.index? name with
  | none => rfl
  | some i => exact WorldState.value?_apply s effect (h.lt_of_getElem? (getElem?_of_index? hindex))

/-- Effects that say the same make the same of states that say the same. -/
theorem SaysAlike.apply (h : t.SaysAlike u s s') (heffect : t.SaysAlike u effect effect')
    (ht : t.Valid) (hu : u.Valid) : t.SaysAlike u (s.apply effect) (s'.apply effect') where
  covers := h.covers.apply heffect.covers
  covers' := h.covers'.apply heffect.covers'
  toMap_eq := by
    apply Std.ExtTreeMap.ext_getElem?
    intro name
    rw [hu.getElem?_toMap_apply, ht.getElem?_toMap_apply, h.toMap_eq, heffect.toMap_eq]

/-- **One permutation renumbers** all states that say the same by name. -/
theorem exists_renumber_eq (ht : t.Valid) (hu : u.Valid) :
    ∃ π : Equiv.Perm (Fin 64), ∀ s s', t.SaysAlike u s s' → s' = s.renumber π := by
  obtain ⟨π, hπ⟩ := exists_perm_numberIn ht hu
  exact ⟨π, fun s s' h => h.eq_renumber ht hu hπ⟩

end AtomTable

end PlanningAgents
