/-!
# PlanningAgents.Text.Field

Texts set in fields of a given width, which is counted in characters.

Main statements:

* `length_set` — without a limit, a set text is as long as the longer of the text and its field.
-/

namespace PlanningAgents.Text

/-- Where a text stands in a field that is wider than it. -/
inductive Alignment where
  | left | right | center
  deriving DecidableEq, Repr

/-- A field: how wide it is, where the text stands in it and what fills the rest. -/
structure Field where
  width : Nat
  alignment : Alignment := .left
  fill : Char := ' '
  /-- Characters beyond this count are cut off. -/
  limit : Option Nat := none

namespace Field

/-- The filling characters on the left, when `spare` are needed in all. -/
def leftSpare (f : Field) (spare : Nat) : Nat :=
  match f.alignment with
  | .left => 0
  | .right => spare
  | .center => spare / 2

theorem leftSpare_le (f : Field) (spare : Nat) : f.leftSpare spare ≤ spare := by
  unfold leftSpare; split <;> omega

/-- Sets a text in the field.  A text that is too long for the width is kept whole. -/
def set (f : Field) (s : String) : String :=
  let cs := match f.limit with
    | none => s.toList
    | some n => s.toList.take n
  let spare := f.width - cs.length
  String.ofList (List.replicate (f.leftSpare spare) f.fill ++ cs ++
    List.replicate (spare - f.leftSpare spare) f.fill)

/-- Without a limit, a set text is as long as the longer of the text and its field. -/
theorem length_set (f : Field) (s : String) (h : f.limit = none) :
    (f.set s).length = max f.width s.length := by
  have := f.leftSpare_le (f.width - s.length)
  simp only [set, h, String.length_ofList, List.length_append, List.length_replicate,
    String.length_toList]
  omega

end Field

/-- Fills a text up on its right. -/
def padRight (width : Nat) (s : String) : String := ({ width } : Field).set s

/-- Fills a text up on its left. -/
def padLeft (width : Nat) (s : String) : String := ({ width, alignment := .right } : Field).set s

end PlanningAgents.Text
