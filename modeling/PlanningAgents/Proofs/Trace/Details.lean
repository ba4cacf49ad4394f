import PlanningAgents.Proofs.Atoms.RoundTrip
import PlanningAgents.Proofs.Planner.Encoding
import PlanningAgents.Trace.Event

/-!
# PlanningAgents.Proofs.Trace.Details

What an event keeps of the details that it is given.  Only so many keys get in, and they get in by
the order in which they first come up (`TraceEvent.keysOf`).  Which value a key has is another
matter: the last one given for it counts, also when no other key can get in any more.

A value is cut by characters, which take from one to four bytes each.  The cut is on the border of
two characters, so that what is kept is a text, and its bytes are the first ones of the value.

Main statements:

* `TraceEvent.Holds` — what an event that has been given some details holds;
* `TraceEvent.Holds.withExtra` — one more detail;
* `TraceEvent.extra_withDetails` — any number of details, given to a new event.
-/

namespace PlanningAgents

namespace TraceEvent

/-! ## cutting a text -/

/-- The beginning of a text that an event keeps. -/
def clip (text : String) : String := String.ofList (text.toList.take maxExtraChars)

/-- What is cut off is a text too. -/
theorem exists_eq_clip_append (text : String) : ∃ rest, text = clip text ++ rest := by
  refine ⟨String.ofList (text.toList.drop maxExtraChars), ?_⟩
  rw [clip, ← String.ofList_append, List.take_append_drop, String.ofList_toList]

/-- The cut is on the border of two characters. -/
theorem isValid_rawEndPos_clip (text : String) : (clip text).rawEndPos.IsValid text := by
  obtain ⟨rest, hrest⟩ := exists_eq_clip_append text
  exact String.Pos.Raw.isValid_iff_exists_append.mpr ⟨_, rest, hrest, rfl⟩

/-- What is kept are the first bytes of the text. -/
theorem toByteArray_clip (text : String) :
    (clip text).toByteArray = text.toByteArray.extract 0 (clip text).utf8ByteSize := by
  obtain ⟨rest, hrest⟩ := exists_eq_clip_append text
  generalize clip text = kept at hrest ⊢
  rw [hrest, String.toByteArray_append]
  exact (ByteArray.extract_append_eq_left rfl).symm

/-! ## keys and values -/

/-- The keys of details, each once, by the order in which they first come up. -/
def keysOf (details : List (String × String)) : List String := (details.map Prod.fst).eraseDups

/-- Gives an event details, one after the other. -/
def withDetails (e : TraceEvent) (details : List (String × String)) : TraceEvent :=
  details.foldl (fun e d => e.withExtra d.1 d.2) e

variable {e : TraceEvent} {details : List (String × String)} {key value : String}

theorem withDetails_concat (e : TraceEvent) (details : List (String × String))
    (d : String × String) :
    e.withDetails (details ++ [d]) = (e.withDetails details).withExtra d.1 d.2 := by
  rw [withDetails, List.foldl_append]
  rfl

theorem mem_keysOf : key ∈ keysOf details ↔ key ∈ details.map Prod.fst := List.mem_eraseDups

theorem keysOf_concat_of_mem (h : key ∈ keysOf details) (value : String) :
    keysOf (details ++ [(key, value)]) = keysOf details := by
  rw [keysOf, List.map_append]
  exact eraseDups_append_of_subset (List.cons_subset.mpr ⟨mem_keysOf.mp h, List.nil_subset _⟩)

theorem keysOf_concat_of_not_mem (h : key ∉ keysOf details) (value : String) :
    keysOf (details ++ [(key, value)]) = keysOf details ++ [key] := by
  rw [keysOf, List.map_append]
  exact eraseDups_concat_of_not_mem fun hmem => h (mem_keysOf.mpr hmem)

/-- The last detail counts. -/
theorem lastSaid_concat (details : List (String × String)) (key value other : String) :
    lastSaid (details ++ [(key, value)]) other =
      if other = key then some value else lastSaid details other := by
  by_cases hkey : key = other
  · simp [lastSaid, List.filter_append, hkey]
  · simp [lastSaid, List.filter_append, hkey, Ne.symm hkey]

/-- A key that has come up has a value. -/
theorem isSome_lastSaid (h : key ∈ keysOf details) : (lastSaid details key).isSome = true := by
  rw [Option.isSome_iff_ne_none, Ne, lastSaid_eq_none_iff, not_not]
  exact mem_keysOf.mp h

/-! ## what an event holds -/

/-- **What an event holds** of details that it has been given: the first keys that came up, each
with the last value that was given for it. -/
structure Holds (e : TraceEvent) (details : List (String × String)) : Prop where
  getElem? (key : String) : e.extra[key]? =
    if key ∈ (keysOf details).take maxExtraEntries then (lastSaid details key).map clip else none
  size : e.extra.size = min maxExtraEntries (keysOf details).length

namespace Holds

/-- The keys that are held are the first ones. -/
theorem contains_iff (h : e.Holds details) (key : String) :
    e.extra.contains key = true ↔ key ∈ (keysOf details).take maxExtraEntries := by
  rw [← Std.ExtTreeMap.isSome_getElem?_eq_contains, h.getElem?]
  split
  · next hmem =>
      rw [Option.isSome_map, isSome_lastSaid (List.mem_of_mem_take hmem)]
      exact iff_of_true rfl hmem
  · next hmem => exact iff_of_false Bool.false_ne_true hmem

/-- A new event holds nothing. -/
theorem of_extra_eq_empty (h : e.extra = .empty) : e.Holds [] where
  getElem? key := by rw [h]; exact Std.ExtTreeMap.getElem?_empty
  size := by rw [h]; rfl

theorem extra_withExtra (h : e.extra.contains key = true ∨ e.extra.size < maxExtraEntries)
    (value : String) : (e.withExtra key value).extra = e.extra.insert key (clip value) := by
  rw [TraceEvent.withExtra, if_neg, clip]
  simp only [Bool.and_eq_true, decide_eq_true_eq, Bool.not_eq_true', not_and, Bool.not_eq_false]
  exact fun hfull => h.resolve_right (Nat.not_lt.mpr hfull)

/-- A key that is held takes the new value, and the keys stay. -/
theorem withExtra_of_held (h : e.Holds details)
    (hheld : key ∈ (keysOf details).take maxExtraEntries) (value : String) :
    (e.withExtra key value).Holds (details ++ [(key, value)]) := by
  have hkeys := keysOf_concat_of_mem (List.mem_of_mem_take hheld) value
  have hcontains := (h.contains_iff key).mpr hheld
  have hextra := extra_withExtra (.inl hcontains) value
  refine ⟨fun other => ?_, ?_⟩
  · rw [hextra, SortedMap.getElem?_insert, h.getElem?, hkeys, lastSaid_concat]
    split
    · next hother => rw [hother, if_pos hheld]; rfl
    · rfl
  · rw [hextra, SortedMap.size_insert, if_pos hcontains, hkeys, h.size]

/-- A key that is not among the first ones does not get in, and its value is not asked for. -/
theorem withExtra_of_full (h : e.Holds details)
    (hheld : key ∉ (keysOf details).take maxExtraEntries)
    (hfull : maxExtraEntries ≤ (keysOf details).length) (value : String) :
    (e.withExtra key value).Holds (details ++ [(key, value)]) := by
  have hcontains : ¬e.extra.contains key = true := fun hc => hheld ((h.contains_iff key).mp hc)
  have hsize : e.extra.size = maxExtraEntries := h.size.trans (Nat.min_eq_left hfull)
  have hsame : e.withExtra key value = e := by
    rw [TraceEvent.withExtra, if_pos]
    simp only [hcontains, hsize, le_refl, decide_true, Bool.not_false, Bool.and_self]
  have htake : (keysOf (details ++ [(key, value)])).take maxExtraEntries =
      (keysOf details).take maxExtraEntries := by
    by_cases hmem : key ∈ keysOf details
    · rw [keysOf_concat_of_mem hmem]
    · rw [keysOf_concat_of_not_mem hmem, List.take_append_of_le_length hfull]
  refine ⟨fun other => ?_, ?_⟩
  · rw [hsame, htake, h.getElem?, lastSaid_concat]
    split
    · next hother =>
        have hne : other ≠ key := fun heq => hheld (heq ▸ hother)
        rw [if_neg hne]
    · rfl
  · rw [hsame, h.size, ← List.length_take, ← List.length_take, htake]

/-- A new key gets in, where there is room for it. -/
theorem withExtra_of_room (h : e.Holds details) (hnew : key ∉ keysOf details)
    (hroom : (keysOf details).length < maxExtraEntries) (value : String) :
    (e.withExtra key value).Holds (details ++ [(key, value)]) := by
  have hkeys := keysOf_concat_of_not_mem hnew value
  have hbefore : (keysOf details).take maxExtraEntries = keysOf details :=
    List.take_of_length_le hroom.le
  have hafter : (keysOf (details ++ [(key, value)])).take maxExtraEntries =
      keysOf details ++ [key] := by
    rw [hkeys]
    exact List.take_of_length_le (by rw [List.length_append, List.length_singleton]; omega)
  have hcontains : ¬e.extra.contains key = true := fun hc =>
    hnew (List.mem_of_mem_take ((h.contains_iff key).mp hc))
  have hsize : e.extra.size = (keysOf details).length := h.size.trans (Nat.min_eq_right hroom.le)
  have hextra : (e.withExtra key value).extra = _ := extra_withExtra (.inr (hsize ▸ hroom)) value
  refine ⟨fun other => ?_, ?_⟩
  · rw [hextra, SortedMap.getElem?_insert, h.getElem?, hbefore, hafter, lastSaid_concat]
    simp only [List.mem_append, List.mem_singleton]
    by_cases hother : other = key
    · rw [if_pos hother, if_pos (.inr hother), if_pos hother]; rfl
    · simp only [hother, or_false, if_false]
  · rw [hextra, SortedMap.size_insert, if_neg hcontains, hkeys, hsize, List.length_append,
      List.length_singleton, Nat.min_eq_right hroom]

/-- **One more detail** gets in if its key is held already, or if there is room for one more. -/
theorem withExtra (h : e.Holds details) (key value : String) :
    (e.withExtra key value).Holds (details ++ [(key, value)]) := by
  by_cases hheld : key ∈ (keysOf details).take maxExtraEntries
  · exact h.withExtra_of_held hheld value
  · rcases Nat.lt_or_ge (keysOf details).length maxExtraEntries with hroom | hfull
    · rw [List.take_of_length_le hroom.le] at hheld
      exact h.withExtra_of_room hheld hroom value
    · exact h.withExtra_of_full hheld hfull value

/-- **Any number of details.** -/
theorem withDetails (h : e.extra = .empty) (details : List (String × String)) :
    (e.withDetails details).Holds details := by
  induction details using List.reverseRecOn with
  | nil => exact of_extra_eq_empty h
  | append_singleton details d ih =>
      rw [withDetails_concat]
      exact ih.withExtra d.1 d.2

end Holds

/-- **What a new event holds of the details it is given**: the first eight keys that come up, or all
where they are fewer, each with the last value that was given for it, and of that the first 96
characters.  The cut is on the border of two characters, so the bytes kept are the first ones. -/
theorem extra_withDetails (kind : TraceKind) (entity : UInt64) (message : String)
    (details : List (String × String)) :
    let e : TraceEvent := { kind, entity, message }
    (∀ key : String, (e.withDetails details).extra[key]? =
        if key ∈ (keysOf details).take 8 then (lastSaid details key).map clip else none) ∧
      (e.withDetails details).extra.size = min 8 (keysOf details).length ∧
      ∀ text, (clip text).toList = text.toList.take 96 ∧
        (clip text).rawEndPos.IsValid text ∧
        (clip text).toByteArray = text.toByteArray.extract 0 (clip text).utf8ByteSize := by
  intro e
  have hholds : (e.withDetails details).Holds details := Holds.withDetails rfl details
  exact ⟨hholds.getElem?, hholds.size, fun text => ⟨String.toList_ofList,
    isValid_rawEndPos_clip text, toByteArray_clip text⟩⟩

end TraceEvent

end PlanningAgents
