/-!
# PlanningAgents.Planner.Frontier

The open states of a search, of which the most promising one is taken up next.  The queue is a
leftist heap: a tree whose every entry is at most as great as the entries below it, with the
shorter right spine always on the right.

Main statements:

* `Frontier.perm_insert`, `Frontier.perm_pop?` — inserting adds just the entry, and popping removes
  just the entry that it returns.
-/

namespace PlanningAgents

/-- An open item with the keys that order it. -/
structure Entry (α : Type u) where
  /-- The estimated cost of the whole way through the item. -/
  total : Nat
  /-- The estimated cost of the rest of the way. -/
  rest : Nat
  /-- Counts the entries, so that of otherwise equal ones the earlier comes first. -/
  serial : Nat
  item : α

/-- Whether `a` is taken before `b`, or is as good. -/
def Entry.le (a b : Entry α) : Bool :=
  if a.total ≠ b.total then a.total < b.total
  else if a.rest ≠ b.rest then a.rest < b.rest
  else a.serial ≤ b.serial

/-- A leftist heap of entries. -/
inductive Frontier (α : Type u) where
  | empty
  | node (rank : Nat) (entry : Entry α) (left right : Frontier α)

namespace Frontier

/-- The length of the right spine, as it is stored. -/
def rank : Frontier α → Nat
  | .empty => 0
  | .node r _ _ _ => r

/-- The number of entries. -/
def size : Frontier α → Nat
  | .empty => 0
  | .node _ _ l r => l.size + r.size + 1

/-- The entries, in the order of the tree. -/
def toList : Frontier α → List (Entry α)
  | .empty => []
  | .node _ e l r => e :: (l.toList ++ r.toList)

/-- A tree from its root and its two parts, the shorter one on the right. -/
def join (e : Entry α) (a b : Frontier α) : Frontier α :=
  if b.rank ≤ a.rank then .node (b.rank + 1) e a b else .node (a.rank + 1) e b a

/-- All entries of two heaps. -/
def merge : Frontier α → Frontier α → Frontier α
  | .empty, b => b
  | a, .empty => a
  | .node ra x la qa, .node rb y lb qb =>
    if x.le y then join x la (merge qa (.node rb y lb qb))
    else join y lb (merge (.node ra x la qa) qb)
termination_by a b => a.size + b.size
decreasing_by all_goals simp only [size]; omega

/-- Adds an entry. -/
def insert (f : Frontier α) (e : Entry α) : Frontier α := merge (.node 1 e .empty .empty) f

/-- Takes the first entry. -/
def pop? : Frontier α → Option (Entry α × Frontier α)
  | .empty => none
  | .node _ e l r => some (e, merge l r)

theorem perm_join (e : Entry α) (a b : Frontier α) :
    (join e a b).toList.Perm (e :: (a.toList ++ b.toList)) := by
  unfold join
  split
  · exact .refl _
  · exact List.Perm.cons _ List.perm_append_comm

/-- Merging neither loses nor makes up entries. -/
theorem perm_merge (a b : Frontier α) : (merge a b).toList.Perm (a.toList ++ b.toList) := by
  fun_induction merge a b with
  | case1 b => simp [toList]
  | case2 a => simp [toList]
  | case3 ra x la qa rb y lb qb h ih =>
    refine (perm_join ..).trans ?_
    simp only [toList, List.cons_append, List.append_assoc] at ih ⊢
    exact (ih.append_left la.toList).cons _
  | case4 ra x la qa rb y lb qb h ih =>
    refine (perm_join ..).trans ?_
    have swap := List.perm_append_comm_assoc lb.toList (x :: (la.toList ++ qa.toList)) qb.toList
    exact (((ih.append_left lb.toList).trans swap).cons y).trans List.perm_middle.symm

theorem size_eq_length (f : Frontier α) : f.size = f.toList.length := by
  induction f with
  | empty => rfl
  | node r e a b iha ihb => simp [size, toList, iha, ihb]

theorem size_merge (a b : Frontier α) : (merge a b).size = a.size + b.size := by
  simp [size_eq_length, (perm_merge a b).length_eq]

/-- Inserting adds just the entry. -/
theorem perm_insert (f : Frontier α) (e : Entry α) :
    (f.insert e).toList.Perm (e :: f.toList) := by
  simpa [insert, toList] using perm_merge (.node 1 e .empty .empty) f

/-- Popping removes just the entry that it returns. -/
theorem perm_pop? {f g : Frontier α} {e : Entry α} (h : f.pop? = some (e, g)) :
    f.toList.Perm (e :: g.toList) := by
  cases f with
  | empty => simp [pop?] at h
  | node r x a b =>
    simp only [pop?, Option.some.injEq, Prod.mk.injEq] at h
    obtain ⟨rfl, rfl⟩ := h
    exact ((perm_merge a b).symm).cons _

theorem size_pop? {f g : Frontier α} {e : Entry α} (h : f.pop? = some (e, g)) :
    g.size < f.size := by
  simp [size_eq_length, (perm_pop? h).length_eq]

end Frontier

end PlanningAgents
