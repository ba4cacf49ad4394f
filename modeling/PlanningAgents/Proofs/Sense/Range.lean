import Mathlib.Data.List.Nodup
import Mathlib.Data.List.DropRight
import PlanningAgents.Proofs.Sense.Order

/-!
# PlanningAgents.Proofs.Sense.Range

What the list of everyone within reach holds.  The list is sorted, and of sightings of one entity
that follow each other only the first is kept (`Sense.dropRepeats`).  So everyone within reach is
listed, first at the nearest distance, and in order.

An entity that the world lists at several positions is listed once as long as nobody else is sighted
between two of its sightings.  Otherwise its sightings do not follow each other, and it is listed
again behind the other one.

Main statements:

* `Sense.dropRepeats_induction` — the four shapes of a list that repeats are dropped from;
* `Sense.find?_dropRepeats`, `Sense.nodup_dropRepeats_iff` — what is kept of a sorted list;
* `Sense.allInRange_exact` — the list, and when it names nobody twice.
-/

namespace PlanningAgents

namespace Sense

open Sighting (Measured Before key)

/-! ## repeats -/

variable {s t : Sighting} {rest found : List Sighting}

theorem dropRepeats_cons_of_eq (h : t.2 = s.2) :
    dropRepeats (s :: t :: rest) = dropRepeats (s :: rest) := by
  simp [dropRepeats, h, List.dropWhile_idempotent]

theorem dropRepeats_cons_of_ne (h : t.2 ≠ s.2) :
    dropRepeats (s :: t :: rest) = s :: dropRepeats (t :: rest) := by
  simp [dropRepeats, h]

/-- A list is empty, or a single sighting, or it begins with two sightings, of one entity or of two.
Of the first two only one is looked at again in either case. -/
theorem dropRepeats_induction {P : List Sighting → Prop} (nil : P []) (single : ∀ s, P [s])
    (same : ∀ s t rest, t.2 = s.2 → P (s :: rest) → P (s :: t :: rest))
    (other : ∀ s t rest, t.2 ≠ s.2 → P (t :: rest) → P (s :: t :: rest)) : ∀ found, P found
  | [] => nil
  | [s] => single s
  | s :: t :: rest =>
    if h : t.2 = s.2 then same s t rest h (dropRepeats_induction nil single same other (s :: rest))
    else other s t rest h (dropRepeats_induction nil single same other (t :: rest))
termination_by found => found.length

theorem dropRepeats_sublist (found : List Sighting) : (dropRepeats found).Sublist found := by
  induction found using dropRepeats_induction with
  | nil => exact .slnil
  | single s => exact .refl _
  | same s t rest h ih =>
      rw [dropRepeats_cons_of_eq h]
      exact ih.trans ((List.sublist_cons_self t rest).cons_cons s)
  | other s t rest h ih =>
      rw [dropRepeats_cons_of_ne h]
      exact ih.cons_cons s

/-- Dropping repeats does not change who is found first. -/
theorem find?_dropRepeats (p : EntityId → Bool) (found : List Sighting) :
    (dropRepeats found).find? (p ·.2) = found.find? (p ·.2) := by
  induction found using dropRepeats_induction with
  | nil => rfl
  | single s => rfl
  | same s t rest h ih =>
      rw [dropRepeats_cons_of_eq h, ih]
      cases hp : p s.2 <;> simp [hp, h]
  | other s t rest h ih =>
      rw [dropRepeats_cons_of_ne h]
      cases hp : p s.2 <;> simp [hp, ih]

/-! ## sorted sightings -/

/-- Sightings in the order of their keys; those that tie stay as they are. -/
def ordered (found : List Sighting) : List Sighting :=
  found.mergeSort fun a b => decide (a.key ≤ b.key)

theorem mem_ordered : s ∈ ordered found ↔ s ∈ found := List.mem_mergeSort

theorem pairwise_ordered (found : List Sighting) :
    (ordered found).Pairwise fun a b => a.key ≤ b.key := by
  have hsorted : (ordered found).Pairwise fun a b => decide (a.key ≤ b.key) = true :=
    List.pairwise_mergeSort (fun a b c => by simpa using le_trans)
      (fun a b => by simpa using le_total _ _) found
  simpa using hsorted

/-- One more sighting goes behind those with smaller keys, and in front of those that it ties
with. -/
theorem exists_ordered_cons (s : Sighting) (found : List Sighting) :
    ∃ before behind, ordered (s :: found) = before ++ s :: behind ∧
      ordered found = before ++ behind ∧ ∀ b ∈ before, b.key < s.key := by
  obtain ⟨before, behind, hcons, hrest, hbefore⟩ : ∃ before behind,
      ordered (s :: found) = before ++ s :: behind ∧ ordered found = before ++ behind ∧
        ∀ b ∈ before, (!decide (s.key ≤ b.key)) = true :=
    List.mergeSort_cons (fun a b c => by simpa using le_trans)
      (fun a b => by simpa using le_total _ _) s found
  exact ⟨before, behind, hcons, hrest, fun b hb => by simpa using hbefore b hb⟩

/-- Sightings at distances that are numbers are sorted by their keys. -/
theorem mergeSort_eq_ordered (h : ∀ s ∈ found, s.Measured) :
    found.mergeSort (fun a b => Sighting.compare a b != .gt) = ordered found := by
  have hsame : (found.mergeSort fun a b => Sighting.compare a b != .gt).map id =
      (found.map id).mergeSort fun a b => decide (a.key ≤ b.key) := by
    refine List.map_mergeSort fun a ha b hb => ?_
    rw [Sighting.compare_eq (h a ha) (h b hb), Bool.eq_iff_iff]
    simp [compare_le_iff_le]
  simpa [ordered] using hsame

/-- What is found first in a sorted list comes before all else that could have been found. -/
theorem key_le_of_find? {p : Sighting → Bool} (hsorted : found.Pairwise fun a b => a.key ≤ b.key)
    (hfirst : found.find? p = some t) (hs : s ∈ found) (hp : p s = true) : t.key ≤ s.key := by
  induction hsorted with
  | nil => simp at hs
  | @cons a rest hle _ ih =>
      rw [List.find?_cons] at hfirst
      rcases List.mem_cons.mp hs with rfl | hrest
      · simp_all
      · cases ha : p a with
        | true => simp_all
        | false => exact ih (by simpa [ha] using hfirst) hrest

/-- No sighting of another entity stands between two sightings of one entity. -/
def Unparted (found : List Sighting) : Prop :=
  ∀ a ∈ found, ∀ b ∈ found, ∀ c ∈ found, a.2 = c.2 → a.key < b.key → b.key < c.key → b.2 = a.2

theorem key_lt_of_ne (h : s.key ≤ t.key) (hne : t.2 ≠ s.2) : s.key < t.key :=
  lt_of_le_of_ne h fun heq => hne (Sighting.entity_eq heq).symm

/-- What is kept of a sorted list is strictly sorted. -/
theorem pairwise_dropRepeats (hsorted : found.Pairwise fun a b => a.key ≤ b.key) :
    (dropRepeats found).Pairwise fun a b => a.key < b.key := by
  induction found using dropRepeats_induction with
  | nil => exact .nil
  | single s => exact List.pairwise_singleton _ s
  | same s t rest h ih =>
      rw [dropRepeats_cons_of_eq h]
      exact ih (hsorted.sublist ((List.sublist_cons_self t rest).cons_cons s))
  | other s t rest h ih =>
      obtain ⟨hs, hrest⟩ := List.pairwise_cons.mp hsorted
      rw [dropRepeats_cons_of_ne h, List.pairwise_cons]
      refine ⟨fun z hz => ?_, ih hrest⟩
      have hst : s.key < t.key := key_lt_of_ne (hs t List.mem_cons_self) h
      rcases List.mem_cons.mp ((dropRepeats_sublist _).subset hz) with rfl | hz
      · exact hst
      · exact hst.trans_le ((List.pairwise_cons.mp hrest).1 z hz)

/-- Every sighting has one of the same entity that is kept, and nobody else is sighted between. -/
theorem exists_mem_dropRepeats (hsorted : found.Pairwise fun a b => a.key ≤ b.key)
    (hs : s ∈ found) :
    ∃ r ∈ dropRepeats found, r.2 = s.2 ∧ r.key ≤ s.key ∧
      ∀ b ∈ found, r.key < b.key → b.key < s.key → b.2 = s.2 := by
  induction found using dropRepeats_induction with
  | nil => simp at hs
  | single a => exact ⟨a, by simp_all [dropRepeats]⟩
  | same a t rest h ih =>
      rw [dropRepeats_cons_of_eq h]
      obtain ⟨ha, htail⟩ := List.pairwise_cons.mp hsorted
      obtain ⟨ht, -⟩ := List.pairwise_cons.mp htail
      have hsub := (List.sublist_cons_self t rest).cons_cons a
      rcases eq_or_ne s t with rfl | hne
      · -- Between the first two there is no key at all.
        refine ⟨a, List.mem_cons_self, h.symm, ha s List.mem_cons_self, fun b hb hab hbs => ?_⟩
        simp only [List.mem_cons] at hb
        rcases hb with hb | rfl | hb
        · rw [hb, h]
        · rfl
        · exact absurd hbs (ht b hb).not_gt
      · obtain ⟨r, hr, hentity, hle, hbetween⟩ := ih (hsorted.sublist hsub) (by simp_all)
        refine ⟨r, hr, hentity, hle, fun b hb hrb hbs => ?_⟩
        rcases eq_or_ne b t with rfl | hb'
        · -- The second one follows the first, and so nobody but the first can be kept for it.
          rcases List.mem_cons.mp ((dropRepeats_sublist _).subset hr) with rfl | hr
          · rw [h, hentity]
          · exact absurd hrb (ht r hr).not_gt
        · exact hbetween b (by simp_all) hrb hbs
  | other a t rest h ih =>
      rw [dropRepeats_cons_of_ne h]
      obtain ⟨ha, htail⟩ := List.pairwise_cons.mp hsorted
      rcases List.mem_cons.mp hs with rfl | hs
      · exact ⟨s, List.mem_cons_self, rfl, le_rfl, fun b _ hsb hbs => absurd hbs hsb.not_gt⟩
      · obtain ⟨r, hr, hentity, hle, hbetween⟩ := ih htail hs
        refine ⟨r, List.mem_cons_of_mem a hr, hentity, hle, fun b hb hrb hbs => ?_⟩
        rcases List.mem_cons.mp hb with rfl | hb
        · exact absurd hrb (ha r ((dropRepeats_sublist _).subset hr)).not_gt
        · exact hbetween b hb hrb hbs

/-- **Nobody is kept twice** exactly when nobody else stands between two sightings of one entity. -/
theorem nodup_dropRepeats_iff (hsorted : found.Pairwise fun a b => a.key ≤ b.key) :
    ((dropRepeats found).map Prod.snd).Nodup ↔ Unparted found := by
  constructor
  · intro hnodup a ha b hb c hc hac hab hbc
    by_contra hne
    obtain ⟨r, hr, hra, hrle, -⟩ := exists_mem_dropRepeats hsorted ha
    obtain ⟨q, hq, hqc, -, hbetween⟩ := exists_mem_dropRepeats hsorted hc
    have hbq : b.key ≤ q.key := not_lt.mp fun hqb => hne ((hbetween b hb hqb hbc).trans hac.symm)
    have hrq : r = q := List.inj_on_of_nodup_map hnodup hr hq (by rw [hra, hqc, hac])
    exact absurd (hrle.trans_lt (hab.trans_le hbq)) (by simp [hrq])
  · intro hunparted
    induction found using dropRepeats_induction with
    | nil => exact .nil
    | single s => exact List.nodup_singleton _
    | same s t rest h ih =>
        have hsub := (List.sublist_cons_self t rest).cons_cons s
        rw [dropRepeats_cons_of_eq h]
        exact ih (hsorted.sublist hsub) fun a ha b hb c hc =>
          hunparted a (hsub.subset ha) b (hsub.subset hb) c (hsub.subset hc)
    | other s t rest h ih =>
        obtain ⟨hs, htail⟩ := List.pairwise_cons.mp hsorted
        obtain ⟨ht, -⟩ := List.pairwise_cons.mp htail
        rw [dropRepeats_cons_of_ne h, List.map_cons, List.nodup_cons]
        refine ⟨fun hmem => ?_, ih htail fun a ha b hb c hc =>
          hunparted a (.tail s ha) b (.tail s hb) c (.tail s hc)⟩
        obtain ⟨z, hz, hzs⟩ := List.mem_map.mp hmem
        rcases List.mem_cons.mp ((dropRepeats_sublist _).subset hz) with rfl | hz
        · exact h hzs
        · exact h (hunparted s (by simp) t (by simp) z (by simp [hz]) hzs.symm
            (key_lt_of_ne (hs t (by simp)) h) (key_lt_of_ne (ht z hz) (by rw [hzs]; exact h.symm)))

/-! ## who is within reach -/

variable {W : Type} [World W] {world : W} {entity : EntityId} {radius : Float32}
  {includeSelf : Bool}

/-- One entity sees another one at each position that the world lists for the other, at the squared
distance of that position from where the one stands. -/
def Sees (world : W) (entity : EntityId) (s : Sighting) : Prop :=
  ∃ origin position, World.position world entity = some origin ∧
    (s.2, position) ∈ World.positioned world ∧ s.1 = origin.distanceSquared position

/-- A sighting that a query asks for. -/
structure InReach (world : W) (entity : EntityId) (radius : Float32) (includeSelf : Bool)
    (s : Sighting) : Prop where
  sees : Sees world entity s
  isOther : includeSelf = true ∨ s.2 ≠ entity
  near : s.1 ≤ squaredRadius radius

/-- All sightings, in listed order. -/
def seen (world : W) (entity : EntityId) : List Sighting :=
  (World.position world entity).elim [] (sightings world)

theorem mem_seen : s ∈ seen world entity ↔ Sees world entity s := by
  unfold seen Sees
  cases World.position world entity with
  | none => simp
  | some origin =>
      simp only [Option.elim, sightings, List.mem_map, Prod.exists, Option.some.injEq]
      constructor
      · rintro ⟨other, position, hlisted, rfl⟩
        exact ⟨origin, position, rfl, hlisted, rfl⟩
      · rintro ⟨_, position, rfl, hlisted, hs⟩
        exact ⟨s.2, position, hlisted, Prod.ext hs.symm rfl⟩

/-- The sightings that a query asks for, in listed order. -/
def reached (world : W) (entity : EntityId) (radius : Float32) (includeSelf : Bool) :
    List Sighting :=
  (seen world entity).filter fun s =>
    (includeSelf || s.2 != entity) && decide (s.1 ≤ squaredRadius radius)

theorem mem_reached : s ∈ reached world entity radius includeSelf ↔
    InReach world entity radius includeSelf s := by
  simp only [reached, List.mem_filter, mem_seen, Bool.and_eq_true, Bool.or_eq_true, bne_iff_ne,
    decide_eq_true_eq]
  exact ⟨fun ⟨hsees, hother, hnear⟩ => ⟨hsees, hother, hnear⟩,
    fun ⟨hsees, hother, hnear⟩ => ⟨hsees, hother, hnear⟩⟩

/-- What is within reach is at a distance that is a number. -/
theorem InReach.measured (h : InReach world entity radius includeSelf s) : s.Measured :=
  (le_iff.mp h.near).1

/-- The sightings that a query asks for, in order and without repeats. -/
def listing (world : W) (entity : EntityId) (radius : Float32) (includeSelf : Bool) :
    List Sighting :=
  dropRepeats (ordered (reached world entity radius includeSelf))

/-- The answer is the listing, cut to the length that is asked for. -/
theorem allInRange_eq (world : W) (entity : EntityId) (radius : Float32) (includeSelf : Bool)
    (maxResults : Option Nat) :
    allInRange world entity radius ⟨includeSelf, maxResults⟩ =
      (maxResults.elim (listing world entity radius includeSelf)
        (listing world entity radius includeSelf).take).map Sighting.toSensed := by
  have hsort : (reached world entity radius includeSelf).mergeSort
      (fun a b => Sighting.compare a b != .gt) =
        ordered (reached world entity radius includeSelf) :=
    mergeSort_eq_ordered fun s hs => (mem_reached.mp hs).measured
  rw [listing, ← hsort, allInRange, reached, seen]
  cases World.position world entity with
  | none => cases maxResults <;> simp [dropRepeats]
  | some origin => cases maxResults <;> rfl

theorem mem_ordered_reached : s ∈ ordered (reached world entity radius includeSelf) ↔
    InReach world entity radius includeSelf s :=
  mem_ordered.trans mem_reached

theorem inReach_of_mem_listing (h : s ∈ listing world entity radius includeSelf) :
    InReach world entity radius includeSelf s :=
  mem_ordered_reached.mp ((dropRepeats_sublist _).subset h)

/-- Who is listed comes before all who are listed behind. -/
theorem pairwise_listing : (listing world entity radius includeSelf).Pairwise Before :=
  (pairwise_dropRepeats (pairwise_ordered _)).imp_of_mem fun ha hb hlt =>
    (Sighting.before_iff (inReach_of_mem_listing ha).measured
      (inReach_of_mem_listing hb).measured).mpr hlt

/-- Everyone within reach is listed, and first at the nearest distance. -/
theorem exists_find?_listing (h : InReach world entity radius includeSelf s) :
    ∃ t, (listing world entity radius includeSelf).find? (·.2 == s.2) = some t ∧ t.1 ≤ s.1 := by
  rw [listing, find?_dropRepeats (· == s.2)]
  have hs := mem_ordered_reached.mpr h
  have hsome : ((ordered (reached world entity radius includeSelf)).find? (·.2 == s.2)).isSome :=
    List.find?_isSome.mpr ⟨s, hs, by simp⟩
  obtain ⟨t, ht⟩ := Option.isSome_iff_exists.mp hsome
  have htreach := mem_ordered_reached.mp (List.mem_of_find?_eq_some ht)
  have hentity : t.2 = s.2 := by simpa using List.find?_some ht
  exact ⟨t, ht, Sighting.le_of_key_le htreach.measured h.measured hentity
    (key_le_of_find? (pairwise_ordered _) ht hs (beq_self_eq_true s.2))⟩

/-- Nobody is listed twice exactly when nobody else is within reach between two sightings of one
entity. -/
theorem nodup_listing_iff : ((listing world entity radius includeSelf).map Prod.snd).Nodup ↔
    ∀ a b c, InReach world entity radius includeSelf a → InReach world entity radius includeSelf b →
      InReach world entity radius includeSelf c → a.2 = c.2 → a.Before b → b.Before c →
      b.2 = a.2 := by
  rw [listing, nodup_dropRepeats_iff (pairwise_ordered _)]
  constructor
  · intro h a b c ha hb hc hac hab hbc
    exact h a (mem_ordered_reached.mpr ha) b (mem_ordered_reached.mpr hb) c
      (mem_ordered_reached.mpr hc) hac ((Sighting.before_iff ha.measured hb.measured).mp hab)
      ((Sighting.before_iff hb.measured hc.measured).mp hbc)
  · intro h a ha b hb c hc hac hab hbc
    rw [mem_ordered_reached] at ha hb hc
    exact h a b c ha hb hc hac ((Sighting.before_iff ha.measured hb.measured).mpr hab)
      ((Sighting.before_iff hb.measured hc.measured).mpr hbc)

/-- **Everyone within reach is listed, nearest first.**  The list is ordered by squared distance and
then by entity; it holds nothing but sightings within reach, and of everyone within reach first the
nearest one; a query for some of the nearest gives the beginning of the list.  Nobody is listed
twice exactly when nobody else is within reach between two sightings of one entity. -/
theorem allInRange_exact (world : W) (entity : EntityId) (radius : Float32) (includeSelf : Bool) :
    ∃ found : List Sighting,
      (∀ maxResults, allInRange world entity radius ⟨includeSelf, maxResults⟩ =
        (maxResults.elim found found.take).map Sighting.toSensed) ∧
      found.Pairwise Before ∧
      (∀ s ∈ found, InReach world entity radius includeSelf s) ∧
      (∀ s, InReach world entity radius includeSelf s →
        ∃ t, found.find? (·.2 == s.2) = some t ∧ t.1 ≤ s.1) ∧
      ((found.map Prod.snd).Nodup ↔
        ∀ a b c, InReach world entity radius includeSelf a →
          InReach world entity radius includeSelf b → InReach world entity radius includeSelf c →
          a.2 = c.2 → a.Before b → b.Before c → b.2 = a.2) :=
  ⟨listing world entity radius includeSelf, allInRange_eq world entity radius includeSelf,
    pairwise_listing, fun _ => inReach_of_mem_listing, fun _ => exists_find?_listing,
    nodup_listing_iff⟩

/-! ## a world that lists an entity twice -/

/-- A world of entities at positions, some of them perhaps at several. -/
structure Points where
  listed : List (EntityId × Vec2)

instance : World Points where
  position world entity := world.listed.lookup entity
  positioned world := world.listed

/-- The second entity is listed before and behind the third one. -/
def passing : Points := ⟨[(1, ⟨0, 0⟩), (2, ⟨1, 0⟩), (3, ⟨2, 0⟩), (2, ⟨3, 0⟩)]⟩

/-- **An entity is listed twice** where another one is sighted between. -/
theorem allInRange_passing :
    (allInRange passing 1 5 {}).map (·.entity) = [2, 3, 2] ∧
      ¬((allInRange passing 1 5 {}).map (·.entity)).Nodup := by
  have hlisted : (allInRange passing 1 5 {}).map (·.entity) = [2, 3, 2] := by
    rw [show ({} : RangeQuery) = ⟨false, none⟩ from rfl, allInRange_eq, listing, ordered]
    rw [List.mergeSort_of_pairwise]
    · decide +kernel
    · decide +kernel
  rw [hlisted]
  exact ⟨rfl, by decide⟩

end Sense

end PlanningAgents
