import PlanningAgents.Text.CaseTable

/-!
# PlanningAgents.Text.Case

Upper and lower case of whole texts, in every script.  A letter may become several (`ß` becomes
`SS`), and the lower case of a capital sigma depends on where in a word it stands.

Main statements:

* `upper_append` — upper case is taken letter by letter.
-/

namespace PlanningAgents.Text

/-- The other case of a code point: an expansion, else the shift of its run, else itself. -/
def changeCase (expansions : List (Nat × List Nat)) (runs : List CaseRun) (c : Char) : List Char :=
  match expansions.lookup c.toNat with
  | some many => many.map Char.ofNat
  | none =>
    match runs.find? (·.holds c.toNat) with
    | some run => [Char.ofNat (c.toNat + run.shift).toNat]
    | none => [c]

/-- The upper case of one character. -/
def upperChar (c : Char) : List Char := changeCase upperExpansions upperRuns c

/-- The lower case of one character, wherever it stands. -/
def lowerChar (c : Char) : List Char := changeCase lowerExpansions lowerRuns c

/-- Whether the first character that does not merely join letters has a case. -/
def continuesWord (cs : List Char) : Bool :=
  match cs.dropWhile (inRanges caseIgnorableRanges) with
  | [] => false
  | c :: _ => inRanges casedRanges c

/-- The lower case of a text of which `before` (nearest first) has been read already.  A capital
sigma that ends a word takes its final form. -/
def lowerAfter (before : List Char) : List Char → List Char
  | [] => []
  | c :: rest =>
    let here :=
      if c = 'Σ' then
        if continuesWord before && !continuesWord rest then ['ς'] else ['σ']
      else lowerChar c
    here ++ lowerAfter (c :: before) rest

/-- The text in upper case. -/
def upper (s : String) : String := String.ofList (s.toList.flatMap upperChar)

/-- The text in lower case. -/
def lower (s : String) : String := String.ofList (lowerAfter [] s.toList)

/-- Upper case is taken letter by letter. -/
theorem upper_append (s t : String) : upper (s ++ t) = upper s ++ upper t := by
  simp [upper]

end PlanningAgents.Text
