import PlanningAgents.Proofs.Atoms.Filling
import PlanningAgents.Proofs.Atoms.Renumbering

/-!
# PlanningAgents.Proofs.Atoms.RoundTrip

Pairs of names and values, and the states that they describe.  What is encoded says of every name
what the last pair with that name said (`lastSaid`).  Conversely a state that a table covers is
nothing but its map (`AtomTable.Covers.ext`), so that pairs which make up this map give the state
back, in whatever order they come.

Main statements:

* `SortedMap.getElem?_ofList` — the last entry of a key decides;
* `AtomTable.Covers.ext` — covered states that say the same are the same;
* `AtomTable.Covers.writeAll_eq` — pairs that say what a covered state says write this state;
* `AtomTable.Valid.encodes_and_decodes` — encoding and decoding are inverse.
-/

namespace PlanningAgents

variable {α : Type}

/-! ## what pairs say -/

/-- What the last of the pairs with a name says. -/
def lastSaid (pairs : List (String × α)) (name : String) : Option α :=
  (pairs.filter (·.1 = name)).getLast?.map (·.2)

theorem lastSaid_cons (pair : String × α) (rest : List (String × α)) (name : String) :
    lastSaid (pair :: rest) name =
      (lastSaid rest name).or (if name = pair.1 then some pair.2 else none) := by
  by_cases hname : pair.1 = name
  · cases hlast : (rest.filter (·.1 = name)).getLast? <;>
      simp [lastSaid, hname, List.getLast?_cons, hlast]
  · simp [lastSaid, hname, Ne.symm hname]

/-- Nothing is said of a name exactly where no pair has it. -/
theorem lastSaid_eq_none_iff {pairs : List (String × α)} {name : String} :
    lastSaid pairs name = none ↔ name ∉ pairs.map Prod.fst := by
  rw [lastSaid, Option.map_eq_none_iff, List.getLast?_eq_none_iff, List.filter_eq_nil_iff,
    List.mem_map, not_exists]
  simp only [decide_eq_true_eq, not_and]

namespace SortedMap

/-- Entries that are written decide their keys, the last one of each. -/
theorem getElem?_insertMany (m : SortedMap String α) (entries : List (String × α)) (key : String) :
    (m.insertMany entries)[key]? = (lastSaid entries key).or m[key]? := by
  induction entries generalizing m with
  | nil => rfl
  | cons entry rest ih =>
      obtain ⟨k, value⟩ := entry
      rw [Std.ExtTreeMap.insertMany_cons, ih, getElem?_insert, lastSaid_cons, Option.or_assoc]
      split
      · rfl
      · rfl

theorem getElem?_ofList (entries : List (String × α)) (key : String) :
    (.ofList entries : SortedMap String α)[key]? = lastSaid entries key := by
  rw [Std.ExtTreeMap.ofList_eq_insertMany_empty, getElem?_insertMany,
    Std.ExtTreeMap.getElem?_empty, Option.or_none]

end SortedMap

namespace AtomTable

variable {t u : AtomTable} {s s' : WorldState} {name : String} {pairs : List (String × Bool)}
  {write : AtomTable → WorldState → String → Bool → Except AgentError (WorldState × AtomTable)}
  {room : AtomTable → Nat} {refusal : AtomTable → String → AgentError}

/-! ## states and their maps -/

/-- What is read of a registered name is what the map says of it. -/
theorem Valid.get_eq (h : t.Valid) (s : WorldState) (hname : name ∈ t.names) :
    t.get s name = .ok (t.toMap s)[name]? := by
  cases hindex : t.index? name with
  | none => exact absurd hname (index?_eq_none_iff.mp hindex)
  | some i =>
      rw [get, hindex, h.getElem?_toMap, hindex]
      rfl

/-- The map of a state speaks of registered names only. -/
theorem Valid.mem_names_of_mem_toMap (h : t.Valid) (hname : name ∈ t.toMap s) : name ∈ t.names := by
  rw [Std.ExtTreeMap.mem_iff_isSome_getElem?, h.getElem?_toMap] at hname
  by_contra hnew
  rw [index?_eq_none_iff.mpr hnew] at hname
  cases hname

/-- **A covered state is nothing but its map.** -/
theorem Covers.ext (h : t.Covers s) (h' : t.Covers s') (ht : t.Valid)
    (hmap : t.toMap s = t.toMap s') : s = s' := by
  -- what the one state says of a number, the map says of its name, and so the other state too
  have halike {r r' : WorldState} (hr : t.Covers r) (hsame : t.toMap r = t.toMap r') {i : Nat}
      (hi : i < 64) {value : Bool} (hvalue : r.value? i = some value) :
      r'.value? i = some value := by
    obtain ⟨name, hname, -, hentry⟩ := hr.exists_name ht hi hvalue
    rw [hsame, ht.getElem?_toMap, ht.index?_eq_some_iff.mpr hname] at hentry
    exact hentry
  exact h.canonical.ext h'.canonical fun i hi =>
    Option.ext fun value => ⟨halike h hmap hi, halike h' hmap.symm hi⟩

/-- **Pairs that say what a covered state says** write this state, and no name is new to them. -/
theorem Covers.writeAll_eq (h : t.Covers s) (ht : t.Valid) (hwrites : Writes write)
    (hrations : Rations write room refusal) (hsay : .ofList pairs = t.toMap s) :
    t.writeAll write .empty pairs = (.ok s, t) := by
  have hknown : pairs.map Prod.fst ⊆ t.names := by
    intro name hname
    refine ht.mem_names_of_mem_toMap (s := s) ?_
    rwa [← hsay, Std.ExtTreeMap.mem_ofList, List.contains_iff_mem]
  obtain ⟨s', hwrite⟩ := hrations.exists_writeAll_of_subset .empty hknown
  have hcovers : t.Covers s' := t.covers_empty.writeAll ht hwrites hwrite
  have hmap : t.toMap s' = t.toMap s := by
    rw [hwrites.toMap_writeAll hwrite ht (.refl t), ht.toMap_empty,
      ← Std.ExtTreeMap.ofList_eq_insertMany_empty, hsay]
  rw [hwrite, hcovers.ext h ht hmap]

/-- What has been written is what the last pair of each name says. -/
theorem Writes.getElem?_toMap_writeAll (hwrites : Writes write) (ht : t.Valid)
    (hwrite : t.writeAll write .empty pairs = (.ok s, u)) (name : String) :
    (u.toMap s)[name]? = lastSaid pairs name := by
  have hext := hwrites.extends_writeAll t .empty pairs
  rw [hwrite] at hext
  have hu := hext.valid ht
  rw [hwrites.toMap_writeAll hwrite hu (.refl u), hu.toMap_empty, SortedMap.getElem?_insertMany,
    Std.ExtTreeMap.getElem?_empty, Option.or_none]

/-! ## there and back -/

/-- **Encoding and decoding are inverse.**  What has been encoded says of each name what the last of
its pairs said, and leaves open every other name.  The entries of a covered state, in any order, are
encoded in the table as it is, and give the state back.  A table that takes in no names by itself
encodes just the pairs whose names it has. -/
theorem Valid.encodes_and_decodes (h : t.Valid) :
    (∀ pairs s u, t.encodeRegistering pairs = (.ok s, u) ∨ t.encode pairs = (.ok s, u) →
      (∀ name, (u.toMap s)[name]? = lastSaid pairs name) ∧
      ∀ name ∈ u.names, u.get s name = .ok (lastSaid pairs name) ∧
        (name ∉ pairs.map Prod.fst → u.get s name = .ok none)) ∧
    (∀ s pairs, t.Covers s → pairs.Perm (t.toMap s).toList →
      t.encodeRegistering pairs = (.ok s, t) ∧ t.encode pairs = (.ok s, t)) ∧
    (t.autoRegister = false → ∀ pairs,
      (∃ s u, t.encode pairs = (.ok s, u)) ↔ ∀ pair ∈ pairs, pair.1 ∈ t.names) := by
  refine ⟨fun pairs s u hencode => ?_, fun s pairs hcovers hperm => ?_, fun hauto pairs => ?_⟩
  · obtain ⟨hu, hmap⟩ : u.Valid ∧ ∀ name, (u.toMap s)[name]? = lastSaid pairs name := by
      obtain hencode | hencode := hencode
      · exact ⟨(extends_of_encodeRegistering hencode).valid h,
          writes_setRegistering.getElem?_toMap_writeAll h hencode⟩
      · exact ⟨(extends_of_encode hencode).valid h,
          writes_set.getElem?_toMap_writeAll h hencode⟩
    refine ⟨hmap, fun name hname => ?_⟩
    have hget : u.get s name = .ok (lastSaid pairs name) := by rw [hu.get_eq s hname, hmap]
    exact ⟨hget, fun hunsaid => by rw [hget, lastSaid_eq_none_iff.mpr hunsaid]⟩
  · have hsay := SortedMap.ofList_of_perm hperm
    exact ⟨hcovers.writeAll_eq h writes_setRegistering rations_setRegistering hsay,
      hcovers.writeAll_eq h writes_set rations_set hsay⟩
  · have hnoRoom : t.freeToSet = 0 := freeToSet_eq_zero_iff.mpr (.inl hauto)
    have hok := rations_set.exists_ok_iff t .empty pairs
    rw [hnoRoom, Nat.le_zero, List.length_eq_zero_iff, missing_eq_nil_iff] at hok
    calc (∃ s u, t.encode pairs = (.ok s, u)) ↔ ∃ s, (t.encode pairs).1 = .ok s :=
          exists_congr fun s => ⟨fun ⟨_, hrun⟩ => hrun ▸ rfl, fun hrun => ⟨_, Prod.ext hrun rfl⟩⟩
      _ ↔ pairs.map Prod.fst ⊆ t.names := hok
      _ ↔ ∀ pair ∈ pairs, pair.1 ∈ t.names := List.forall_mem_map

/-- A table that takes in no names by itself. -/
def pantry : AtomTable := { names := ["hungry", "has_food"] }

/-- In the pantry the last word on hunger counts, and nothing is known of food. -/
theorem encodes_and_decodes_pantry :
    pantry.Valid ∧ pantry.autoRegister = false ∧ ∃ s,
      pantry.encode [("hungry", true), ("hungry", false)] = (.ok s, pantry) ∧
      (pantry.toMap s)["hungry"]? = some false ∧ pantry.get s "has_food" = .ok none ∧
      pantry.encode (pantry.toMap s).toList = (.ok s, pantry) ∧
      ¬ ∃ s u, pantry.encode [("hungry", true), ("tired", true)] = (.ok s, u) := by
  have hvalid : pantry.Valid := ⟨by decide, by decide, by decide⟩
  obtain ⟨hencode, hdecode, hstrict⟩ := hvalid.encodes_and_decodes
  have hrun : pantry.encode [("hungry", true), ("hungry", false)] =
      (.ok (WorldState.empty.set 0 false), pantry) := by decide +kernel
  obtain ⟨hmap, hget⟩ := hencode _ _ _ (.inr hrun)
  refine ⟨hvalid, rfl, _, hrun, hmap "hungry", (hget "has_food" (by decide)).2 (by decide), ?_, ?_⟩
  · exact (hdecode _ _ (covers_of_encode hvalid hrun) (.refl _)).2
  · rw [hstrict rfl]
    decide

end AtomTable

end PlanningAgents
