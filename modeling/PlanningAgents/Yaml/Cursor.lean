/-!
# PlanningAgents.Yaml.Cursor

A place in a text, with its line and column, and the classes of characters that YAML tells apart.

Main statements:

* `Cursor.scan_done` — a scan whose first step is its last gives what this step gives.
-/

namespace PlanningAgents.Yaml

/-! ## characters -/

/-- Whether a character ends a line. -/
def isBreak (c : Char) : Bool :=
  c = '\n' || c = '\r' || c = '\u0085' || c = '\u2028' || c = '\u2029'

/-- Whether a character is white space within a line. -/
def isBlank (c : Char) : Bool := c = ' ' || c = '\t'

/-- Whether a character may stand in an anchor or a handle. -/
def isWordChar (c : Char) : Bool := c.isAlphanum || c = '_' || c = '-'

/-- Whether a character may stand in a text at all. -/
def isAllowed (c : Char) : Bool :=
  let n := c.toNat
  c = '\t' || c = '\n' || c = '\r' || (0x20 ≤ n && n ≤ 0x7E) || n = 0x85 ||
    (0xA0 ≤ n && n ≤ 0xFFFD) || 0x10000 ≤ n

/-- The mark that may stand before a text to tell its encoding. -/
def byteOrderMark : Char := '\uFEFF'

/-- Whether what comes next is the end or a line break. -/
def endsLine (next : Option Char) : Bool := next.all isBreak

/-- Whether what comes next is the end, a line break or white space. -/
def endsWord (next : Option Char) : Bool := next.all fun c => isBreak c || isBlank c

/-- How many octets characters take. -/
def octetCount (cs : List Char) : Nat := cs.foldl (fun n ch => n + ch.utf8Size) 0

/-! ## cursors -/

/-- A place in a text. -/
structure Cursor where
  /-- What has not been read yet. -/
  rest : List Char
  /-- How many characters that is. -/
  left : Nat
  /-- How many octets have been read. -/
  offset : Nat := 0
  line : Nat := 0
  column : Nat := 0

namespace Cursor

/-- The beginning of a text. -/
def ofChars (cs : List Char) : Cursor := { rest := cs, left := cs.length }

/-- The next character. -/
def peek (c : Cursor) : Option Char := c.rest.head?

/-- The character at a distance. -/
def peekAt (c : Cursor) (n : Nat) : Option Char := c.rest[n]?

/-- Moves on within a line. -/
def advance (c : Cursor) (n : Nat := 1) : Cursor :=
  { c with
    rest := c.rest.drop n
    left := c.left - n
    offset := c.offset + octetCount (c.rest.take n)
    column := c.column + n }

/-- Moves past a line break, if one comes next, and gives what it counts as in a text: the breaks
of old are one newline, the separators of lines and paragraphs stay what they are. -/
def lineBreak (c : Cursor) : List Char × Cursor :=
  let past (n : Nat) : Cursor :=
    { c.advance n with line := c.line + 1, column := 0 }
  match c.rest with
  | '\r' :: '\n' :: _ => (['\n'], past 2)
  | ch :: _ =>
    if ch = '\u2028' || ch = '\u2029' then ([ch], past 1)
    else if isBreak ch then (['\n'], past 1)
    else ([], c)
  | [] => ([], c)

/-- Takes the characters that come next as long as they satisfy a condition; none of them may be a
line break. -/
def takeWhile (c : Cursor) (p : Char → Bool) : List Char × Cursor :=
  let taken := c.rest.takeWhile p
  (taken, c.advance taken.length)

/-- Whether three dashes or three dots come next as a word of their own. -/
def atMark (c : Cursor) (mark : Char) : Bool :=
  match c.rest with
  | x :: y :: z :: rest => x = mark && y = mark && z = mark && endsWord rest.head?
  | _ => false

/-- Whether a line begins here that separates documents. -/
def atDocumentMark (c : Cursor) : Bool := c.column = 0 && (c.atMark '-' || c.atMark '.')

/-- What a step of a scan leads to. -/
inductive Progress (σ ρ : Type) where
  | more (state : σ) (c : Cursor)
  | done (result : ρ) (c : Cursor)

/-- Repeats a step until it is done.  Each step but the last has to move on. -/
def scan {σ ρ : Type} (step : σ → Cursor → Option (Progress σ ρ)) (state : σ) (c : Cursor) :
    Option (ρ × Cursor) :=
  match step state c with
  | none => none
  | some (.done result d) => some (result, d)
  | some (.more state d) => if d.left < c.left then scan step state d else none
termination_by c.left

/-- A scan whose first step is its last gives what this step gives. -/
theorem scan_done {σ ρ : Type} {step : σ → Cursor → Option (Progress σ ρ)} {state : σ}
    {c d : Cursor} {result : ρ} (h : step state c = some (.done result d)) :
    scan step state c = some (result, d) := by
  rw [scan, h]

end Cursor

end PlanningAgents.Yaml
