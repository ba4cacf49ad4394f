import PlanningAgents.Proofs.Sense.Range

/-!
# PlanningAgents.Proofs.Sense.Nearest

The nearest one and the list of everyone within reach.  The one is a walk that keeps the best
sighting so far, the other sorts, and both prefer the sighting that is listed first among those that
tie.  So the nearest one is the first on the list that is accepted.

The two differ at a distance that is NaN, which is neither beyond the radius nor within it: the walk
takes such a sighting, and as it ties with every other one, it may keep it from a nearer one.

Main statements:

* `Sense.find?_ordered_cons`, `Sense.foldl_better_cons` — both ways of looking, from one sighting to
  the next;
* `Sense.nearestMatching_of_measured` — the two agree where distances are numbers;
* `Sense.nearestMatching_agrees` — and where they agree whoever is accepted.
-/

namespace PlanningAgents

namespace Sense

open Sighting (Measured)

/-! ## two ways of looking -/

variable {s b : Sighting} {found : List Sighting}

/-- A sighting, or the best of those listed behind it if that one is nearer. -/
def nearer (s : Sighting) : Option Sighting → Sighting
  | none => s
  | some t => if t.key < s.key then t else s

/-- Looking through the sorted sightings, with one more listed in front. -/
theorem find?_ordered_cons (p : Sighting → Bool) (s : Sighting) (found : List Sighting) :
    (ordered (s :: found)).find? p =
      if p s then some (nearer s ((ordered found).find? p)) else (ordered found).find? p := by
  obtain ⟨before, behind, hcons, hrest, hbefore⟩ := exists_ordered_cons s found
  have hsorted := pairwise_ordered (s :: found)
  rw [hcons, List.pairwise_append, List.pairwise_cons] at hsorted
  rw [hcons, hrest, List.find?_append, List.find?_append]
  cases hb : before.find? p with
  | some b =>
      -- The one that is found in front is nearer.
      have hlt := hbefore b (List.mem_of_find?_eq_some hb)
      by_cases hp : p s <;> simp [hp, nearer, hlt]
  | none =>
      by_cases hp : p s
      · cases ht : behind.find? p with
        | none => simp [hp, nearer]
        | some t =>
            have hle := hsorted.2.1.1 t (List.mem_of_find?_eq_some ht)
            simp [hp, nearer, hle.not_gt]
      · simp [hp]

theorem better_some (hs : s.Measured) (hb : b.Measured) :
    Sighting.better (some b) s = some (nearer b (some s)) := by
  simp only [Sighting.better, nearer, Sighting.compare_eq hs hb, compare_lt_iff_lt]
  split <;> rfl

/-- The nearer of three does not depend on which two are looked at first. -/
theorem nearer_nearer (a b : Sighting) (best : Option Sighting) :
    nearer (nearer a (some b)) best = nearer a (some (nearer b best)) := by
  cases best with
  | none => rfl
  | some c =>
      simp only [nearer]
      split_ifs <;> grind

/-- The walk, begun with a sighting in hand. -/
theorem foldl_better_some (hb : b.Measured) (h : ∀ s ∈ found, s.Measured) :
    found.foldl Sighting.better (some b) =
      some (nearer b (found.foldl Sighting.better none)) := by
  induction found generalizing b with
  | nil => rfl
  | cons s found ih =>
      have hs : s.Measured := h s List.mem_cons_self
      have hfound : ∀ s ∈ found, s.Measured := fun s hs => h s (List.mem_cons_of_mem _ hs)
      have hmeasured : (nearer b (some s)).Measured := by
        simp only [nearer]
        split <;> assumption
      rw [List.foldl_cons, better_some hs hb, ih hmeasured hfound, nearer_nearer, ← ih hs hfound]
      rfl

/-- **The walk finds what is first in order**, where all distances are numbers. -/
theorem foldl_better_eq_find? {p : Sighting → Bool} (h : ∀ s ∈ found, s.Measured) :
    (found.filter p).foldl Sighting.better none = (ordered found).find? p := by
  induction found with
  | nil => simp [ordered]
  | cons s found ih =>
      have hfound : ∀ s ∈ found, s.Measured := fun s hs => h s (List.mem_cons_of_mem _ hs)
      rw [find?_ordered_cons, ← ih hfound]
      by_cases hp : p s
      · rw [List.filter_cons_of_pos hp, if_pos hp, List.foldl_cons, Sighting.better,
          foldl_better_some (h s List.mem_cons_self)
            fun s hs => hfound s (List.mem_of_mem_filter hs)]
      · rw [List.filter_cons_of_neg hp, if_neg hp]

/-- The walk finds somebody unless there is nobody. -/
theorem foldl_better_eq_none_iff {best : Option Sighting} :
    found.foldl Sighting.better best = none ↔ best = none ∧ found = [] := by
  induction found generalizing best with
  | nil => simp
  | cons s found ih =>
      have hbetter : Sighting.better best s ≠ none := by
        unfold Sighting.better
        split <;> [simp; split <;> simp]
      simp [ih, hbetter]

/-! ## the nearest one -/

variable {W : Type} [World W] {world : W} {entity : EntityId} {radius : Float32}
  {accept : EntityId → Bool}

/-- The sightings that the walk looks at. -/
def candidates (world : W) (entity : EntityId) (radius : Float32) (accept : EntityId → Bool) :
    List Sighting :=
  (seen world entity).filter fun s =>
    s.2 != entity && accept s.2 && !(decide (squaredRadius radius < s.1))

theorem nearestMatching_eq (world : W) (entity : EntityId) (radius : Float32)
    (accept : EntityId → Bool) : nearestMatching world entity radius accept =
      ((candidates world entity radius accept).foldl Sighting.better none).map
        Sighting.toSensed := by
  unfold nearestMatching candidates seen
  cases World.position world entity with
  | none => rfl
  | some origin => simp [Option.map_eq_bind]

/-- A distance that is a number is beyond a radius or within it. -/
theorem not_squaredRadius_lt_iff (hs : s.Measured) :
    ¬squaredRadius radius < s.1 ↔ s.1 ≤ squaredRadius radius := by
  simp only [lt_iff, le_iff, isNaN_squaredRadius, show s.1.isNaN = false from hs, true_and, not_lt]

/-- Who is accepted at a distance that is a number is looked at exactly when within reach. -/
theorem candidates_eq_filter
    (h : ∀ s, Sees world entity s → s.2 ≠ entity → accept s.2 = true → s.Measured) :
    candidates world entity radius accept =
      (reached world entity radius false).filter (accept ·.2) := by
  rw [candidates, reached, List.filter_filter]
  refine List.filter_congr fun s hs => ?_
  by_cases hother : s.2 = entity
  · simp [hother]
  · cases haccept : accept s.2 with
    | false => simp
    | true =>
        have hnear : ¬squaredRadius radius < s.1 ↔ s.1 ≤ squaredRadius radius :=
          not_squaredRadius_lt_iff (h s (mem_seen.mp hs) hother haccept)
        simp only [← decide_not, hnear, Bool.false_or, Bool.and_true, Bool.true_and]

/-- **The nearest one is the first that is accepted** of everyone within reach, where nobody who is
accepted stands at a distance that is NaN. -/
theorem nearestMatching_of_measured
    (h : ∀ s, Sees world entity s → s.2 ≠ entity → accept s.2 = true → s.Measured) :
    nearestMatching world entity radius accept =
      (allInRange world entity radius {}).find? (accept ·.entity) := by
  rw [nearestMatching_eq, candidates_eq_filter h, foldl_better_eq_find? fun s hs =>
    (mem_reached.mp hs).measured, show ({} : RangeQuery) = ⟨false, none⟩ from rfl, allInRange_eq]
  simp only [Option.elim, List.find?_map]
  rw [listing, ← find?_dropRepeats accept]
  rfl

/-- Whoever is seen at a distance that is NaN is found by the walk that looks for nobody else. -/
theorem nearestMatching_of_not_measured (hsees : Sees world entity s) (hother : s.2 ≠ entity)
    (hs : ¬s.Measured) : nearestMatching world entity radius (· == s.2) ≠ none := by
  have hmem : s ∈ candidates world entity radius (· == s.2) := by
    have hnot : ¬squaredRadius radius < s.1 := fun hlt => hs (lt_iff.mp hlt).2.1
    simp [candidates, mem_seen, hsees, hother, hnot]
  rw [nearestMatching_eq, Ne, Option.map_eq_none_iff, foldl_better_eq_none_iff]
  exact fun h => List.ne_nil_of_mem hmem h.2

/-- An entity that is listed once is seen at one distance. -/
theorem eq_of_sees {t : Sighting} (honce : ((World.positioned world).map Prod.fst).Nodup)
    (hs : Sees world entity s) (ht : Sees world entity t) (h : s.2 = t.2) : s = t := by
  obtain ⟨origin, p, horigin, hp, hsp⟩ := hs
  obtain ⟨origin', q, horigin', hq, htq⟩ := ht
  obtain rfl : origin = origin' := Option.some.inj (horigin.symm.trans horigin')
  have hpq : (s.2, p) = (t.2, q) := List.inj_on_of_nodup_map honce hp hq h
  obtain rfl : p = q := congrArg Prod.snd hpq
  exact Prod.ext (hsp.trans htq.symm) h

/-- **The nearest one is the first on the list that is accepted**, as long as nobody who is accepted
is seen at a distance that is NaN.  Where the world lists nobody twice, that is also needed: the two
agree whoever is accepted exactly when everyone else is seen at a distance that is a number. -/
theorem nearestMatching_agrees (world : W) (entity : EntityId) (radius : Float32) :
    (∀ accept : EntityId → Bool,
      (∀ s, Sees world entity s → s.2 ≠ entity → accept s.2 = true → s.Measured) →
        nearestMatching world entity radius accept =
          (allInRange world entity radius {}).find? (accept ·.entity)) ∧
    (((World.positioned world).map Prod.fst).Nodup →
      ((∀ accept : EntityId → Bool, nearestMatching world entity radius accept =
          (allInRange world entity radius {}).find? (accept ·.entity)) ↔
        ∀ s, Sees world entity s → s.2 ≠ entity → s.Measured)) := by
  refine ⟨fun accept h => nearestMatching_of_measured h, fun honce =>
    ⟨fun hagree s hsees hother => ?_, fun h accept =>
      nearestMatching_of_measured fun s hsees hother _ => h s hsees hother⟩⟩
  by_contra hs
  refine nearestMatching_of_not_measured hsees hother hs ((hagree (· == s.2)).trans ?_)
  -- The entity could only be listed by the one sighting that there is of it.
  rw [show ({} : RangeQuery) = ⟨false, none⟩ from rfl, allInRange_eq, Option.elim,
    List.find?_eq_none]
  intro _ hmem hentity
  obtain ⟨t, ht, rfl⟩ := List.mem_map.mp hmem
  have hreach := inReach_of_mem_listing ht
  have hst : t = s := eq_of_sees honce hreach.sees hsees (eq_of_beq hentity)
  exact hs (hst ▸ hreach.measured)

/-- Of three entities in a row the second one is at no position that could be told. -/
def misplaced : Points := ⟨[(1, ⟨0, 0⟩), (2, ⟨0 / 0, 0⟩), (3, ⟨1, 0⟩)]⟩

theorem nearestMatching_agrees_misplaced :
    (∀ s, Sees misplaced 1 s → s.2 ≠ 1 → (s.2 != 2) = true → s.Measured) ∧
      nearestMatching misplaced 1 5 (· != 2) =
        (allInRange misplaced 1 5 {}).find? (·.entity != 2) := by
  have hmeasured : ∀ s, Sees misplaced 1 s → s.2 ≠ 1 → (s.2 != 2) = true → s.Measured := by
    intro s hs
    have hall : ∀ s ∈ seen misplaced 1, s.2 ≠ 1 → (s.2 != 2) = true → s.Measured := by
      decide +kernel
    exact hall s (mem_seen.mpr hs)
  exact ⟨hmeasured, (nearestMatching_agrees misplaced 1 5).1 (· != 2) hmeasured⟩

/-- **A distance that is NaN hides a nearer one**: the third entity is the only one within reach,
but the second one is taken for the nearest. -/
theorem nearestMatching_misplaced :
    (nearestMatching misplaced 1 5 fun _ => true).map (·.entity) = some 2 ∧
      ((allInRange misplaced 1 5 {}).find? fun _ => true).map (·.entity) = some 3 ∧
      (nearestMatching misplaced 1 5 fun _ => true) ≠
        (allInRange misplaced 1 5 {}).find? fun _ => true := by
  have hnearest : (nearestMatching misplaced 1 5 fun _ => true).map (·.entity) = some 2 := by
    decide +kernel
  have hfirst : ((allInRange misplaced 1 5 {}).find? fun _ => true).map (·.entity) = some 3 := by
    decide +kernel
  refine ⟨hnearest, hfirst, fun h => ?_⟩
  rw [h, hfirst] at hnearest
  exact absurd hnearest (by decide)

end Sense

end PlanningAgents
