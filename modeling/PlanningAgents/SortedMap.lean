import Std.Data.ExtTreeMap

/-!
# PlanningAgents.SortedMap

Finite maps that list their entries in ascending key order.  Two maps with the same content are the
same value, and every walk over a map visits keys in one fixed order.

Main statements:

* `SortedMap.getElem?_insert` — the last value written for a key is the one that is read.
* `SortedMap.getElem?_erase` — an erased key is absent and the others are kept.
* `SortedMap.size_insert` — writing adds an entry exactly when its key had no value.
-/

namespace PlanningAgents

/-- A finite map whose entries are listed in ascending key order. -/
abbrev SortedMap (κ : Type u) (α : Type v) [Ord κ] := Std.ExtTreeMap κ α compare

namespace SortedMap

variable {κ : Type u} {α : Type v} [Ord κ] [Std.TransOrd κ]

/-- The last value written for a key is the one that is read. -/
theorem getElem?_insert [Std.LawfulEqOrd κ] [DecidableEq κ] (m : SortedMap κ α) (k j : κ) (v : α) :
    (m.insert k v)[j]? = if j = k then some v else m[j]? := by
  rw [Std.ExtTreeMap.getElem?_insert]
  simp only [Std.LawfulEqCmp.compare_eq_iff_eq, eq_comm (a := k)]

/-- An erased key is absent and the others are kept. -/
theorem getElem?_erase [Std.LawfulEqOrd κ] [DecidableEq κ] (m : SortedMap κ α) (k j : κ) :
    (m.erase k)[j]? = if j = k then none else m[j]? := by
  rw [Std.ExtTreeMap.getElem?_erase]
  simp only [Std.LawfulEqCmp.compare_eq_iff_eq, eq_comm (a := k)]

/-- Writing adds an entry exactly when its key had no value. -/
theorem size_insert (m : SortedMap κ α) (k : κ) (v : α) :
    (m.insert k v).size = if m.contains k then m.size else m.size + 1 :=
  Std.ExtTreeMap.size_insert

end SortedMap

end PlanningAgents
