import PlanningAgents.Text.Hex
import PlanningAgents.Yaml.Cursor

/-!
# PlanningAgents.Yaml.Text

The three ways in which YAML writes a text: plain, between quotes, and as an indented block.

In plain and quoted texts line breaks are folded: one break counts as a space, of several the first
is dropped, and white space around them does not count.

Main statements:

* `Folded.join_blanks` — white space within a line is kept as it is.
-/

namespace PlanningAgents.Yaml

open Cursor

/-! ## folding -/

/-- A text that is being read; everything is kept latest first. -/
structure Folded where
  text : List Char := []
  /-- White space since the last character, as long as no line has ended. -/
  blanks : List Char := []
  /-- Whether a line has ended since the last character. -/
  broken : Bool := false
  /-- The first line break since the last character, unless it was escaped. -/
  first : List Char := []
  /-- Further line breaks. -/
  more : List Char := []

namespace Folded

/-- Takes over the white space and the line breaks that have been met since the last character. -/
def join (f : Folded) : Folded :=
  { text :=
      if f.broken then
        if f.first = ['\n'] then (if f.more.isEmpty then [' '] else f.more) ++ f.text
        else f.more ++ f.first ++ f.text
      else f.blanks ++ f.text }

/-- Whether white space or line breaks have been met since the last character. -/
def isPending (f : Folded) : Bool := f.broken || !f.blanks.isEmpty

/-- Appends a character. -/
def push (f : Folded) (ch : Char) : Folded :=
  let g := f.join
  { g with text := ch :: g.text }

/-- Meets white space. -/
def blank (f : Folded) (ch : Char) : Folded :=
  if f.broken then f else { f with blanks := ch :: f.blanks }

/-- Meets a line break. -/
def lineBreak (f : Folded) (ch : List Char) : Folded :=
  if f.broken then { f with more := ch ++ f.more }
  else { f with blanks := [], broken := true, first := ch }

/-- The text that has been read. -/
def value (f : Folded) : String := String.ofList f.text.reverse

/-- White space within a line is kept as it is. -/
theorem join_blanks (f : Folded) (h : f.broken = false) : f.join.text = f.blanks ++ f.text := by
  simp [join, h]

end Folded

/-! ## plain texts -/

/-- One step in a plain text that has to be indented by `indent` columns.  Inside brackets, commas
and brackets end it, and it may begin in any column. -/
def plainStep (inFlow : Bool) (indent : Int) (f : Folded) (c : Cursor) :
    Option (Progress Folded Folded) :=
  match c.peek with
  | none => some (.done f c)
  | some ch =>
    if isBreak ch then
      let (b, c) := c.lineBreak
      some (.more (f.lineBreak b) c)
    else if isBlank ch then
      if f.broken && c.column < indent && ch = '\t' then none
      else some (.more (f.blank ch) c.advance)
    else if f.isPending && ((!inFlow && c.column < indent) || c.atDocumentMark || ch = '#') then
      some (.done f c)
    else
      let next := c.peekAt 1
      if inFlow && ch = ':' && next.any (",?[]\x7b\x7d".contains ·) then none
      else if (ch = ':' && endsWord next) || (inFlow && ",[]\x7b\x7d".contains ch) then
        some (.done f c)
      else some (.more (f.push ch) c.advance)

/-- Reads a plain text.  What stands between its end and the next character that counts is skipped;
also tells whether a line ended there. -/
def plainText (inFlow : Bool) (indent : Int) (c : Cursor) : Option ((String × Bool) × Cursor) := do
  let (f, c) ← scan (plainStep inFlow indent) {} c
  return ((f.value, f.broken), c)

/-! ## texts between quotes -/

/-- The characters that one-letter escapes stand for. -/
def escapes : List (Char × Char) :=
  [('0', '\x00'), ('a', '\x07'), ('b', '\x08'), ('t', '\t'), ('\t', '\t'), ('n', '\n'),
    ('v', '\x0b'), ('f', '\x0c'), ('r', '\r'), ('e', '\x1b'), (' ', ' '), ('"', '"'), ('/', '/'),
    ('\\', '\\'), ('N', '\u0085'), ('_', '\u00a0'), ('L', '\u2028'), ('P', '\u2029')]

/-- How many hexadecimal digits follow the letter of an escape. -/
def escapeDigits : List (Char × Nat) := [('x', 2), ('u', 4), ('U', 8)]

/-- The character with a code, if there is one. -/
def charOf? (n : Nat) : Option Char := if n.isValidChar then some (Char.ofNat n) else none

/-- Reads the escape of which the letter comes next. -/
def escape? (c : Cursor) : Option (Char × Cursor) := do
  let ch ← c.peek
  match escapeDigits.lookup ch with
  | some n =>
    let digits := (c.rest.drop 1).take n
    if digits.length < n then none
    return (← charOf? (← Text.ofHex? digits), c.advance (n + 1))
  | none => return (← escapes.lookup ch, c.advance)

/-- One step between quotes.  Between single quotes a quote is written twice; between double quotes
there are escapes, and the end of a line may be escaped too. -/
def quotedStep (quote : Char) (f : Folded) (c : Cursor) : Option (Progress Folded Folded) :=
  match c.peek with
  | none => none
  | some ch =>
    if isBreak ch then
      let (b, c) := c.lineBreak
      some (.more (f.lineBreak b) c)
    else if isBlank ch then some (.more (f.blank ch) c.advance)
    else if c.atDocumentMark then none
    else if ch = quote then
      if quote = '\'' && c.peekAt 1 = some '\'' then some (.more (f.push ch) (c.advance 2))
      else some (.done f.join c.advance)
    else if ch = '\\' && quote = '"' then
      let c := c.advance
      if c.peek.any isBreak then
        some (.more { f.join with broken := true } c.lineBreak.2)
      else (escape? c).map fun (e, c) => .more (f.push e) c
    else some (.more (f.push ch) c.advance)

/-- Reads a text from behind its opening quote. -/
def quotedText (quote : Char) (c : Cursor) : Option (String × Cursor) := do
  let (f, c) ← scan (quotedStep quote) {} c
  return (f.value, c)

/-! ## blocks -/

/-- What becomes of the line breaks at the end of a block. -/
inductive Chomping where
  | strip | clip | keep
  deriving DecidableEq

/-- Skips indentation and empty lines.  When `indent` is zero, any indentation is skipped.  Gives
the line breaks, latest first, and the deepest column met. -/
def blockGap (indent : Nat) (c : Cursor) : Option ((List Char × Nat) × Cursor) :=
  let step (s : List Char × Nat) (c : Cursor) :
      Option (Progress (List Char × Nat) (List Char × Nat)) :=
    let found := (c.takeWhile (· = ' ')).1.length
    let c := c.advance (if indent = 0 then found else min found (indent - c.column))
    let deepest := max s.2 c.column
    if (indent = 0 || c.column < indent) && c.peek = some '\t' then none
    else if c.peek.any isBreak then
      let (b, c) := c.lineBreak
      some (.more (b ++ s.1, deepest) c)
    else some (.done (s.1, deepest) c)
  scan step ([], 0) c

/-- A block that is being read; everything is kept latest first. -/
structure Block where
  text : List Char := []
  /-- The end of the last line. -/
  lineEnd : List Char := []
  /-- Empty lines after it. -/
  empty : List Char := []
  /-- Whether the last line began with white space. -/
  wasBlank : Bool := false

/-- Reads one line of a block.  When lines are folded, the break between two lines that both begin
with a character counts as a space, or not at all where empty lines follow it. -/
def blockStep (literal : Bool) (indent : Nat) (b : Block) (c : Cursor) :
    Option (Progress Block Block) :=
  if c.column = indent && c.peek.isSome then do
    let isBlank := c.peek.any isBlank
    let lineEnd :=
      if !literal && b.lineEnd = ['\n'] && !b.wasBlank && !isBlank then
        if b.empty.isEmpty then [' '] else []
      else b.lineEnd
    let (line, c) := c.takeWhile fun ch => !isBreak ch
    let text := line.reverse ++ b.empty ++ lineEnd ++ b.text
    let (lineEnd, c) := c.lineBreak
    let ((empty, _), c) ← blockGap indent c
    return .more { text, lineEnd, empty, wasBlank := isBlank } c
  else some (.done b c)

/-- Reads the digit that may follow the mark of a block; a zero is an error. -/
def indentDigit? (c : Cursor) : Option (Nat × Cursor) :=
  match c.peek with
  | some '0' => none
  | some ch => if ch.isDigit then some (ch.toNat - '0'.toNat, c.advance) else some (0, c)
  | none => some (0, c)

/-- Reads the sign that may follow the mark of a block. -/
def chomping? (c : Cursor) : Option Chomping × Cursor :=
  match c.peek with
  | some '+' => (some .keep, c.advance)
  | some '-' => (some .strip, c.advance)
  | _ => (none, c)

/-- Skips white space and a comment. -/
def skipComment (c : Cursor) : Cursor :=
  let c := (c.takeWhile isBlank).2
  if c.peek = some '#' then (c.takeWhile fun ch => !isBreak ch).2 else c

/-- Reads a block from behind its mark.  `parent` is the indentation of what it belongs to. -/
def blockText (literal : Bool) (parent : Int) (c : Cursor) : Option (String × Cursor) := do
  let (sign, c) := chomping? c
  let (digit, c) ← indentDigit? c
  let (sign, c) := if sign.isNone && digit ≠ 0 then chomping? c else (sign, c)
  let c := skipComment c
  if !endsLine c.peek then none
  let (_, c) := c.lineBreak
  let base := parent.toNat
  let given := if digit = 0 then 0 else base + digit
  let ((empty, deepest), c) ← blockGap given c
  let indent := if given = 0 then max deepest (max (parent + 1).toNat 1) else given
  let (b, c) ← scan (blockStep literal indent) { empty } c
  let text := match sign.getD .clip with
    | .strip => b.text
    | .clip => b.lineEnd ++ b.text
    | .keep => b.empty ++ b.lineEnd ++ b.text
  return (String.ofList text.reverse, c)

end PlanningAgents.Yaml
