import PlanningAgents.Planner.Frontier

/-!
# PlanningAgents.Proofs.Planner.Frontier

The frontier of a search hands out its entries best first.  `Frontier.Ordered` says that every
entry of the heap is at most as great as the entries below it; merging keeps this, and with it
every operation.

Main statements:

* `Frontier.ordered_insert`, `Frontier.ordered_pop?` — the operations keep the order;
* `Frontier.le_of_pop?` — what is popped comes before everything that is left.
-/

namespace PlanningAgents

/-! ## the order of entries -/

namespace Entry

theorem le_refl (a : Entry α) : a.le a = true := by simp [le]

/-- Of two entries one comes first. -/
theorem le_of_not_le {a b : Entry α} (h : ¬ a.le b = true) : b.le a = true := by
  grind [le]

theorem le_trans {a b c : Entry α} (hab : a.le b = true) (hbc : b.le c = true) :
    a.le c = true := by
  grind [le]

/-- An entry that comes first promises no more than the other. -/
theorem total_le_of_le {a b : Entry α} (h : a.le b = true) : a.total ≤ b.total := by
  grind [le]

end Entry

/-! ## the heap -/

namespace Frontier

/-- Every entry comes before the entries below it. -/
def Ordered : Frontier α → Prop
  | .empty => True
  | .node _ e l r => (∀ x ∈ l.toList ++ r.toList, e.le x = true) ∧ l.Ordered ∧ r.Ordered

theorem mem_merge {a b : Frontier α} {x : Entry α} :
    x ∈ (merge a b).toList ↔ x ∈ a.toList ∨ x ∈ b.toList := by
  rw [(perm_merge a b).mem_iff, List.mem_append]

theorem ordered_join {e : Entry α} {a b : Frontier α}
    (he : ∀ x ∈ a.toList ++ b.toList, e.le x = true) (ha : a.Ordered) (hb : b.Ordered) :
    (join e a b).Ordered := by
  unfold join
  split
  · exact ⟨he, ha, hb⟩
  · exact ⟨fun x hx => he x (List.perm_append_comm.mem_iff.mp hx), hb, ha⟩

/-- Merging keeps the order. -/
theorem ordered_merge {a b : Frontier α} (ha : a.Ordered) (hb : b.Ordered) :
    (merge a b).Ordered := by
  fun_induction merge a b with
  | case1 b => exact hb
  | case2 a => exact ha
  | case3 ra x la qa rb y lb qb hxy ih =>
      obtain ⟨hx, hla, hqa⟩ := ha
      refine ordered_join ?_ hla (ih hqa hb)
      intro z hz
      rw [List.mem_append, mem_merge] at hz
      obtain hz | hz | hz := hz
      · exact hx z (List.mem_append_left _ hz)
      · exact hx z (List.mem_append_right _ hz)
      · obtain rfl | hz := List.mem_cons.mp hz
        · exact hxy
        · exact Entry.le_trans hxy (hb.1 z hz)
  | case4 ra x la qa rb y lb qb hxy ih =>
      have hyx := Entry.le_of_not_le hxy
      obtain ⟨hy, hlb, hqb⟩ := hb
      refine ordered_join ?_ hlb (ih ha hqb)
      intro z hz
      rw [List.mem_append, mem_merge] at hz
      obtain hz | hz | hz := hz
      · exact hy z (List.mem_append_left _ hz)
      · obtain rfl | hz := List.mem_cons.mp hz
        · exact hyx
        · exact Entry.le_trans hyx (ha.1 z hz)
      · exact hy z (List.mem_append_right _ hz)

/-- Inserting keeps the order. -/
theorem ordered_insert {f : Frontier α} (hf : f.Ordered) (e : Entry α) : (f.insert e).Ordered :=
  ordered_merge ⟨by simp [toList], trivial, trivial⟩ hf

/-- Popping keeps the order. -/
theorem ordered_pop? {f g : Frontier α} {e : Entry α} (hf : f.Ordered)
    (h : f.pop? = some (e, g)) : g.Ordered := by
  cases f with
  | empty => simp [pop?] at h
  | node r x a b =>
      simp only [pop?, Option.some.injEq, Prod.mk.injEq] at h
      obtain ⟨-, ha, hb⟩ := hf
      rw [← h.2]
      exact ordered_merge ha hb

/-- What is popped comes before everything that is left. -/
theorem le_of_pop? {f g : Frontier α} {e : Entry α} (hf : f.Ordered)
    (h : f.pop? = some (e, g)) : ∀ x ∈ g.toList, e.le x = true := by
  cases f with
  | empty => simp [pop?] at h
  | node r y a b =>
      simp only [pop?, Option.some.injEq, Prod.mk.injEq] at h
      obtain ⟨rfl, rfl⟩ := h
      intro x hx
      exact hf.1 x (List.mem_append.mpr (mem_merge.mp hx))

/-- A frontier gives out an entry unless it is empty. -/
theorem pop?_eq_none_iff {f : Frontier α} : f.pop? = none ↔ f.toList = [] := by
  cases f <;> simp [pop?, toList]

end Frontier

end PlanningAgents
