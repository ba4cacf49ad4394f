import PlanningAgents.Proofs.Atoms.RoundTrip

/-!
# PlanningAgents.Proofs.Atoms.Remapping

States in the terms of another table.  A state and its image say the same by name
(`AtomTable.SaysAlike`), and so the image is the only state of the other table that does
(`AtomTable.SaysAlike.remap_eq`).  Whatever is asked of two states is answered alike for their
images, as one permutation of numbers makes both images of the two.

Main statements:

* `WorldState.saysAlike_of_remap` — a state and its image say the same, in every table that goes on;
* `AtomTable.SaysAlike.perm_describeBits_changed` — the same names have changed;
* `WorldState.remap_homomorphism` — remapping keeps what is said by name, and all that is asked of
  states.
-/

namespace PlanningAgents

namespace AtomTable

variable {t u v : AtomTable} {s r s' r' : WorldState} {name : String}

/-! ## changes by name -/

/-- By name, the atoms that have changed between two states. -/
theorem Valid.mem_describeBits_changed (h : t.Valid) :
    name ∈ t.describeBits (s.changed r) ↔
      ∃ value, (t.toMap s)[name]? = some value ∧ (t.toMap r)[name]? = some !value := by
  have hnumber {i : Nat} (hi : t.names[i]? = some name) (x : WorldState) :
      (t.toMap x)[name]? = x.value? i := by
    rw [h.getElem?_toMap, h.index?_eq_some_iff.mpr hi]
    rfl
  rw [mem_describeBits]
  constructor
  · rintro ⟨i, hi, hbit⟩
    rw [WorldState.testBit_changed_iff _ _ (h.lt_of_getElem? hi)] at hbit
    rwa [hnumber hi, hnumber hi]
  · rintro ⟨value, hs, hr⟩
    obtain ⟨i, hi⟩ : ∃ i, t.names[i]? = some name := by
      rw [← List.mem_iff_getElem?]
      refine h.mem_names_of_mem_toMap (s := s) ?_
      rw [Std.ExtTreeMap.mem_iff_isSome_getElem?, hs]
      rfl
    rw [hnumber hi] at hs hr
    exact ⟨i, hi, (WorldState.testBit_changed_iff _ _ (h.lt_of_getElem? hi)).mpr ⟨value, hs, hr⟩⟩

namespace SaysAlike

/-- **The same names have changed** between states that say the same. -/
theorem perm_describeBits_changed (h : t.SaysAlike u s s') (h' : t.SaysAlike u r r') (ht : t.Valid)
    (hu : u.Valid) :
    (u.describeBits (s'.changed r')).Perm (t.describeBits (s.changed r)) := by
  refine (List.perm_ext_iff_of_nodup (hu.nodup_describeBits _) (ht.nodup_describeBits _)).mpr ?_
  intro name
  rw [hu.mem_describeBits_changed, ht.mem_describeBits_changed, h.toMap_eq, h'.toMap_eq]

/-- **The state that says the same** in another table is the one that remapping gives. -/
theorem remap_eq (h : t.SaysAlike u s s') (hu : u.Valid) : s.remap t u = (.ok s', u) :=
  h.covers'.writeAll_eq hu writes_setRegistering rations_setRegistering h.toMap_eq.symm

end SaysAlike

/-- What states say alike in a table they say alike in every table that goes on. -/
theorem SaysAlike.extends (h : t.SaysAlike u s s') (hu : u.Valid) (hext : v.Extends u) :
    t.SaysAlike v s s' where
  covers := h.covers
  covers' := h.covers'.extends hext
  toMap_eq := (h.covers'.toMap_eq hu hext).trans h.toMap_eq

end AtomTable

namespace WorldState

open AtomTable

variable {table into u : AtomTable} {s s' : WorldState}

/-! ## remapping -/

/-- A state and its image say the same. -/
theorem saysAlike_of_remap (hs : table.Covers s) (hinto : into.Valid)
    (hrun : s.remap table into = (.ok s', u)) : table.SaysAlike u s s' where
  covers := hs
  covers' := covers_of_encodeRegistering hinto hrun
  toMap_eq := by
    have hu := (extends_of_encodeRegistering hrun).valid hinto
    rw [writes_setRegistering.toMap_writeAll hrun hu (.refl u), hu.toMap_empty,
      ← Std.ExtTreeMap.ofList_eq_insertMany_empty, toMap]

/-- A state is remapped exactly where there is room for the atoms that it specifies, which are then
the only new ones. -/
theorem remap_ok (hs : table.Covers s) (hinto : into.Valid)
    (hrun : s.remap table into = (.ok s', u)) :
    u.toMap s' = table.toMap s ∧ u.Extends into ∧
      u.names = into.names ++ into.missing ((table.read s).map Prod.fst) := by
  obtain ⟨hfilled, -⟩ := rations_setRegistering.writeAll_cases into .empty (table.read s)
  have hroom := (rations_setRegistering.exists_ok_iff into .empty (table.read s)).mp
    ⟨s', congrArg Prod.fst hrun⟩
  rw [show into.writeAll setRegistering .empty (table.read s) = (.ok s', u) from hrun] at hfilled
  refine ⟨(saysAlike_of_remap hs hinto hrun).toMap_eq, extends_of_encodeRegistering hrun, ?_⟩
  rw [show u = _ from hfilled, filled, List.take_of_length_le hroom]

/-- The images of two states, one made after the other, both stand in the later table. -/
theorem saysAlike_of_remap_remap {r r' : WorldState} {v : AtomTable} (hs : table.Covers s)
    (hr : table.Covers r) (hinto : into.Valid) (hrun : s.remap table into = (.ok s', u))
    (hrun' : r.remap table u = (.ok r', v)) :
    v.Valid ∧ table.SaysAlike v s s' ∧ table.SaysAlike v r r' := by
  have hu := (extends_of_encodeRegistering hrun).valid hinto
  have hext := extends_of_encodeRegistering hrun'
  exact ⟨hext.valid hu, (saysAlike_of_remap hs hinto hrun).extends hu hext,
    saysAlike_of_remap hr hu hrun'⟩

/-- **Remapping is a homomorphism by name.**  A state says the same in the terms of another table,
whose names keep their numbers, and which takes in the missing names of atoms that are specified and
no others; it fails exactly if these are more than the table has numbers left.  The images of two
states in one table are to each other as the states are: one applied to the other is the image of
what the states make, they meet each other alike, are as far apart, and the same names have
changed. -/
theorem remap_homomorphism (htable : table.Valid) (hinto : into.Valid) :
    (∀ s, table.Covers s →
      ((∃ e, (s.remap table into).1 = .error e) ↔
        into.free < (into.missing ((table.read s).map Prod.fst)).length) ∧
      ∀ s' u, s.remap table into = (.ok s', u) →
        u.toMap s' = table.toMap s ∧
        (∀ name i, into.index? name = some i → u.index? name = some i) ∧
        u.names = into.names ++ into.missing ((table.read s).map Prod.fst)) ∧
    ∀ s r s' r' u v, table.Covers s → table.Covers r →
      (s.remap table into = (.ok s', u) ∧ r.remap table u = (.ok r', v) ∨
        r.remap table into = (.ok r', u) ∧ s.remap table u = (.ok s', v)) →
      (s.apply r).remap table v = (.ok (s'.apply r'), v) ∧
      s'.meets r' = s.meets r ∧ s'.distanceTo r' = s.distanceTo r ∧
      (v.describeBits (s'.changed r')).Perm (table.describeBits (s.changed r)) := by
  refine ⟨fun s hs => ⟨rations_setRegistering.exists_error_iff into .empty _, fun s' u hrun => ?_⟩,
    fun s r s' r' u v hs hr hruns => ?_⟩
  · obtain ⟨hmap, hext, hnames⟩ := remap_ok hs hinto hrun
    exact ⟨hmap, fun name i => hext.index?, hnames⟩
  · obtain ⟨hv, halike, halike'⟩ : v.Valid ∧ table.SaysAlike v s s' ∧ table.SaysAlike v r r' := by
      obtain ⟨hrun, hrun'⟩ | ⟨hrun, hrun'⟩ := hruns
      · exact saysAlike_of_remap_remap hs hr hinto hrun hrun'
      · exact (saysAlike_of_remap_remap hr hs hinto hrun hrun').imp_right And.symm
    obtain ⟨π, hπ⟩ := exists_renumber_eq htable hv
    refine ⟨(halike.apply halike' htable hv).remap_eq hv, ?_, ?_,
      halike.perm_describeBits_changed halike' htable hv⟩
    · rw [hπ s s' halike, hπ r r' halike', meets_renumber]
    · rw [hπ s s' halike, hπ r r' halike', distanceTo_renumber]

/-- The atoms of those who are about to cross a river. -/
def nearBank : AtomTable := { names := ["raft_built", "across", "home"] }

/-- The atoms of those who have crossed it, who can name two more. -/
def farBank : AtomTable := { names := ["home", "rain"], cap := 4 }

/-- Whoever crosses the river takes two atoms along.  On the far bank arriving comes to the same as
on the near one, and it is still the crossing that has changed. -/
theorem remap_homomorphism_banks :
    nearBank.Valid ∧ farBank.Valid ∧ ∃ s r s' r' u v,
      nearBank.Covers s ∧ nearBank.Covers r ∧
      s.remap nearBank farBank = (.ok s', u) ∧ r.remap nearBank u = (.ok r', v) ∧
      u.names = ["home", "rain", "raft_built", "across"] ∧
      (s.apply r).remap nearBank v = (.ok (s'.apply r'), v) ∧
      s'.meets r' = false ∧ s'.distanceTo r' = 2 ∧
      (v.describeBits (s'.changed r')).Perm ["across"] ∧
      ∃ e, (s.remap nearBank { farBank with cap := 3 }).1 = .error e := by
  have hnear : nearBank.Valid := ⟨by decide, by decide, by decide⟩
  have hfar : farBank.Valid := ⟨by decide, by decide, by decide⟩
  have hnarrow : Valid { farBank with cap := 3 } := ⟨by decide, by decide, by decide⟩
  have hs : nearBank.Covers ⟨0b001, ~~~0b011⟩ := ⟨by decide, by decide +kernel⟩
  have hr : nearBank.Covers ⟨0b110, ~~~0b110⟩ := ⟨by decide, by decide +kernel⟩
  have hrun : (⟨0b001, ~~~0b011⟩ : WorldState).remap nearBank farBank =
      (.ok ⟨0b0100, ~~~0b1100⟩,
        { farBank with names := ["home", "rain", "raft_built", "across"] }) := by
    decide +kernel
  have hrun' : (⟨0b110, ~~~0b110⟩ : WorldState).remap nearBank
      { farBank with names := ["home", "rain", "raft_built", "across"] } =
        (.ok ⟨0b1001, ~~~0b1001⟩,
          { farBank with names := ["home", "rain", "raft_built", "across"] }) := by
    decide +kernel
  obtain ⟨-, hpairs⟩ := remap_homomorphism hnear hfar
  obtain ⟨happly, hmeets, hdistance, hchanged⟩ := hpairs _ _ _ _ _ _ hs hr (.inl ⟨hrun, hrun'⟩)
  refine ⟨hnear, hfar, _, _, _, _, _, _, hs, hr, hrun, hrun', rfl, happly, ?_, ?_, ?_, ?_⟩
  · rw [hmeets]
    decide +kernel
  · rw [hdistance]
    decide +kernel
  · exact hchanged
  · exact ((remap_homomorphism hnear hnarrow).1 _ hs).1.mpr (by decide +kernel)

end WorldState

end PlanningAgents
