import PlanningAgents.Yaml.Text
import PlanningAgents.Yaml.Token

/-!
# PlanningAgents.Yaml.Lexer

Splits a YAML text into tokens.

A mapping key is recognised only by the colon behind it.  Wherever a key may begin, the place is
therefore remembered; when the colon comes, the tokens that begin the key, and the mapping if there
is none yet, are put in at this place.  A key has to end on its line and within 1024 octets.

Main statements:

* `Lexer.count_put` — the count of tokens stays right when one is put in.
-/

namespace PlanningAgents.Yaml

open Cursor

/-- A place at which a mapping key may have begun. -/
structure KeyPlace where
  /-- How many tokens stand before it. -/
  before : Nat
  /-- Whether nothing but a key may begin here. -/
  required : Bool
  start : Cursor

/-- Whether a key that begins at a place can no longer end here. -/
def KeyPlace.isStale (k : KeyPlace) (c : Cursor) : Bool :=
  k.start.line < c.line || k.start.offset + 1024 < c.offset

/-- What has been split so far. -/
structure Lexer where
  /-- Latest first. -/
  tokens : List Token := []
  count : Nat := 0
  /-- The column of the innermost block; -1 outside of all blocks. -/
  indent : Int := -1
  /-- The columns of the blocks around it. -/
  outer : List Int := []
  /-- Where a key may have begun, for the innermost pair of brackets first. -/
  keys : List (Option KeyPlace) := [none]
  /-- Whether a key may begin here. -/
  keyAllowed : Bool := true

namespace Lexer

/-- Whether a bracket is open. -/
def inFlow (l : Lexer) : Bool := !(l.keys.drop 1).isEmpty

/-- Puts in a token where `before` tokens stand before it. -/
def putAt (l : Lexer) (before : Nat) (t : Token) : Lexer :=
  { l with tokens := l.tokens.insertIdx (l.count - before) t, count := l.count + 1 }

/-- Appends a token. -/
def put (l : Lexer) (t : Token) : Lexer := l.putAt l.count t

/-- The count of tokens stays right when one is put in. -/
theorem count_put (l : Lexer) (t : Token) (h : l.count = l.tokens.length) :
    (l.put t).count = (l.put t).tokens.length := by
  simp [put, putAt, h]

/-! ## indentation -/

/-- Opens a block at a column, unless one is open there. -/
def openBlock (l : Lexer) (column before : Nat) (t : Token) : Lexer :=
  if !l.inFlow && l.indent < column then
    { l with indent := column, outer := l.indent :: l.outer }.putAt before t
  else l

/-- Closes the open blocks at the columns listed, as long as they lie beyond `column`. -/
def closeFrom (l : Lexer) (column : Int) : List Int → Lexer
  | [] => l
  | outer :: rest =>
    if column < l.indent then
      closeFrom ({ l with indent := outer, outer := rest }.put .blockEnd) column rest
    else l

/-- Closes the blocks that lie beyond a column. -/
def closeBlocks (l : Lexer) (column : Int) : Lexer :=
  if l.inFlow then l else l.closeFrom column l.outer

/-! ## keys -/

/-- Forgets where a key may have begun; an error when nothing but a key may have. -/
def dropKey (l : Lexer) : Option Lexer :=
  match l.keys with
  | some k :: rest => if k.required then none else some { l with keys := none :: rest }
  | _ => some l

/-- Remembers that a key may begin here. -/
def noteKey (l : Lexer) (c : Cursor) : Option Lexer :=
  if l.keyAllowed then do
    let required := !l.inFlow && l.indent = c.column
    let l ← l.dropKey
    return { l with keys := some { before := l.count, required, start := c } :: l.keys.drop 1 }
  else some l

/-- Forgets a key that can no longer end.  Keys outside of the innermost brackets wait until those
are closed, since no colon can reach them before. -/
def dropStaleKey (l : Lexer) (c : Cursor) : Option Lexer :=
  match l.keys with
  | some k :: _ => if k.isStale c then l.dropKey else some l
  | _ => some l

/-! ## between tokens -/

/-- One step over white space, comments and line breaks.  At the beginning of a line tabs are no
white space. -/
def gapStep (l : Lexer) (c : Cursor) : Option (Progress Lexer Lexer) :=
  let c := if c.column = 0 && c.peek = some byteOrderMark then c.advance else c
  let tabs := l.inFlow || !l.keyAllowed
  let c := (c.takeWhile fun ch => ch = ' ' || (tabs && ch = '\t')).2
  let c := if c.peek = some '#' then (c.takeWhile fun ch => !isBreak ch).2 else c
  if c.peek.any isBreak then
    some (.more (if l.inFlow then l else { l with keyAllowed := true }) c.lineBreak.2)
  else some (.done l c)

/-! ## directives, anchors and tags -/

/-- Reads a number of at most nine digits. -/
def number? (c : Cursor) : Option (Nat × Cursor) :=
  let (ds, c) := c.takeWhile Char.isDigit
  if ds.isEmpty || 9 < ds.length then none
  else some (ds.foldl (fun n d => 10 * n + (d.toNat - '0'.toNat)) 0, c)

/-- Skips white space. -/
def skipBlanks (c : Cursor) : Cursor := (c.takeWhile isBlank).2

/-- Reads the handle of a tag: word characters behind an exclamation mark, and another mark if
there is one. -/
def handle? (c : Cursor) : Option (String × Cursor) := do
  if c.peek ≠ some '!' then none
  let (word, c) := c.advance.takeWhile isWordChar
  let (last, c) := if c.peek = some '!' then (['!'], c.advance) else ([], c)
  return (String.ofList ('!' :: word ++ last), c)

/-- Whether a character may stand in a tag. -/
def isTagChar (verbatim : Bool) (ch : Char) : Bool :=
  isWordChar ch || ";/?:@&=+$.!~*'()%".contains ch || (verbatim && ",[]".contains ch)

/-- How many octets follow the first one of a character. -/
def octetsAfter (octet : UInt8) : Option Nat :=
  if octet < 0x80 then some 0
  else if octet / 32 = 6 then some 1
  else if octet / 16 = 14 then some 2
  else if octet / 8 = 30 then some 3
  else none

/-- Reads an octet written as a percent sign and two digits. -/
def octet? (cs : List Char) : Option (UInt8 × List Char) :=
  match cs with
  | '%' :: a :: b :: rest => (Text.ofHex? [a, b]).map (·.toUInt8, rest)
  | _ => none

/-- Reads further octets of a character. -/
def octetsFrom : Nat → List Char → Option (List UInt8 × List Char)
  | 0, cs => some ([], cs)
  | n + 1, cs => do
    let (octet, cs) ← octet? cs
    if octet / 64 ≠ 2 then none
    let (octets, cs) ← octetsFrom n cs
    return (octet :: octets, cs)

/-- The octets of characters, some of which may be written as octets.  Only the shape of such a
character is checked, so that it need not be one. -/
def unescape (fuel : Nat) (cs : List Char) : Option (List UInt8) :=
  match fuel, cs with
  | _, [] => some []
  | 0, _ => none
  | fuel + 1, '%' :: rest => do
    let (first, cs) ← octet? ('%' :: rest)
    let (more, cs) ← octetsFrom (← octetsAfter first) cs
    return first :: more ++ (← unescape fuel cs)
  | fuel + 1, ch :: rest => return ch.toString.toUTF8.toList ++ (← unescape fuel rest)

/-- Reads the characters of a tag; there has to be one of them, or one in `head`, which they follow.
A null octet ends the tag. -/
def tagChars? (verbatim : Bool) (head : String) (c : Cursor) : Option (List UInt8 × Cursor) := do
  let (cs, c) := c.takeWhile (isTagChar verbatim)
  if head = "" && cs.isEmpty then none
  return ((head.toUTF8.toList.drop 1 ++ (← unescape cs.length cs)).takeWhile (· ≠ 0), c)

/-- Reads a tag.  A tag in angle brackets is complete; another one begins with a handle, which is a
single exclamation mark unless the tag says otherwise. -/
def tag? (inFlow : Bool) (c : Cursor) : Option (Token × Cursor) := do
  let (t, c) ←
    if c.peekAt 1 = some '<' then do
      let (uri, c) ← tagChars? true "" (c.advance 2)
      if c.peek ≠ some '>' then none
      pure (Token.tag "" uri, c.advance)
    else do
      let (handle, c) ← handle? c
      if handle ≠ "!" && handle.endsWith "!" then
        let (suffix, c) ← tagChars? false "" c
        pure (Token.tag handle suffix, c)
      else
        let (suffix, c) ← tagChars? false handle c
        pure (if suffix = [] then Token.tag "" "!".toUTF8.toList else Token.tag "!" suffix, c)
  if !(inFlow && c.peek = some ',') && !endsWord c.peek then none
  return (t, c)

/-- Reads the name of an anchor or a reference. -/
def anchorName? (c : Cursor) : Option (String × Cursor) :=
  let (name, c) := c.takeWhile isWordChar
  if !name.isEmpty && (endsWord c.peek || c.peek.any ("?:,]\x7d%@\x60".contains ·)) then
    some (String.ofList name, c)
  else none

/-- Reads a directive from behind its percent sign, up to the end of the line. -/
def directive? (c : Cursor) : Option (Token × Cursor) := do
  let (name, c) := c.takeWhile isWordChar
  if name.isEmpty || !endsWord c.peek then none
  let (t, c) ←
    if String.ofList name = "YAML" then do
      let (major, c) ← number? (skipBlanks c)
      if c.peek ≠ some '.' then none
      let (minor, c) ← number? c.advance
      pure (Token.version major minor, c)
    else if String.ofList name = "TAG" then do
      let (handle, c) ← handle? (skipBlanks c)
      if (handle ≠ "!" && !handle.endsWith "!") || !c.peek.any isBlank then none
      let (expansion, c) ← tagChars? true "" (skipBlanks c)
      if !endsWord c.peek then none
      pure (Token.handle handle expansion, c)
    else none
  let c := skipComment c
  if !endsLine c.peek then none
  return (t, c.lineBreak.2)

/-! ## tokens -/

/-- Ends all blocks and keys, as documents and directives do. -/
def closeAll (l : Lexer) : Option Lexer := do
  let l ← (l.closeBlocks (-1)).dropKey
  return { l with keyAllowed := false }

/-- Meets an opening bracket. -/
def openFlow (l : Lexer) (t : Token) (c : Cursor) : Option (Progress Lexer Lexer) := do
  let l ← l.noteKey c
  return .more ({ l with keys := none :: l.keys, keyAllowed := true }.put t) c.advance

/-- Meets a closing bracket. -/
def closeFlow (l : Lexer) (t : Token) (c : Cursor) : Option (Progress Lexer Lexer) := do
  let l ← l.dropKey
  let keys := if l.inFlow then l.keys.drop 1 else l.keys
  return .more ({ l with keys, keyAllowed := false }.put t) c.advance

/-- Meets the dash of an item or the mark of a key. -/
def indicator (l : Lexer) (opens t : Token) (keyAllowed : Bool) (c : Cursor) :
    Option (Progress Lexer Lexer) := do
  if !l.inFlow && !l.keyAllowed then none
  let l ← (l.openBlock c.column l.count opens).dropKey
  return .more ({ l with keyAllowed }.put t) c.advance

/-- Meets the colon behind a key. -/
def colon (l : Lexer) (c : Cursor) : Option (Progress Lexer Lexer) :=
  match l.keys with
  | some k :: rest =>
    let l := { l with keys := none :: rest }.putAt k.before .key
    let l := l.openBlock k.start.column k.before .blockRecordStart
    some (.more ({ l with keyAllowed := false }.put .value) c.advance)
  | _ =>
    if !l.inFlow && !l.keyAllowed then none
    else
      let l := l.openBlock c.column l.count .blockRecordStart
      some (.more ({ l with keyAllowed := !l.inFlow }.put .value) c.advance)

/-- Meets something that may be a key. -/
def content (l : Lexer) (c : Cursor) (x : Option (Token × Cursor)) :
    Option (Progress Lexer Lexer) := do
  let l ← l.noteKey c
  let (t, c) ← x
  return .more ({ l with keyAllowed := false }.put t) c

/-- Meets a block of text. -/
def block (l : Lexer) (style : TextStyle) (c : Cursor) : Option (Progress Lexer Lexer) := do
  let l ← l.dropKey
  let (s, c) ← blockText (style = .literal) l.indent c.advance
  return .more ({ l with keyAllowed := true }.put (.text style s)) c

/-- Meets a plain text. -/
def plain (l : Lexer) (c : Cursor) : Option (Progress Lexer Lexer) := do
  let l ← l.noteKey c
  let ((s, broken), c) ← plainText l.inFlow (l.indent + 1) c
  return .more ({ l with keyAllowed := broken }.put (.text .plain s)) c

/-- The characters with which no plain text begins. -/
def indicators : String := "-?:,[]\x7b\x7d#&*!|>'\"%@\x60"

/-- Meets a character that begins a token. -/
def dispatch (l : Lexer) (c : Cursor) (ch : Char) : Option (Progress Lexer Lexer) :=
  let spaced := endsWord (c.peekAt 1)
  if c.column = 0 && ch = '%' then do
    let l ← l.closeAll
    let (t, c) ← directive? c.advance
    return .more (l.put t) c
  else if c.atDocumentMark then do
    let l ← l.closeAll
    return .more (l.put (if ch = '-' then .documentStart else .documentEnd)) (c.advance 3)
  else if ch = '[' then l.openFlow .flowListStart c
  else if ch = '\x7b' then l.openFlow .flowRecordStart c
  else if ch = ']' then l.closeFlow .flowListEnd c
  else if ch = '\x7d' then l.closeFlow .flowRecordEnd c
  else if ch = ',' then do
    let l ← l.dropKey
    return .more ({ l with keyAllowed := true }.put .flowEntry) c.advance
  else if ch = '-' && spaced then l.indicator .blockListStart .blockEntry true c
  else if ch = '?' && (l.inFlow || spaced) then l.indicator .blockRecordStart .key (!l.inFlow) c
  else if ch = ':' && (l.inFlow || spaced) then l.colon c
  else if ch = '*' then l.content c ((anchorName? c.advance).map fun (n, c) => (.reference n, c))
  else if ch = '&' then l.content c ((anchorName? c.advance).map fun (n, c) => (.anchor n, c))
  else if ch = '!' then l.content c (tag? l.inFlow c)
  else if ch = '|' && !l.inFlow then l.block .literal c
  else if ch = '>' && !l.inFlow then l.block .folded c
  else if ch = '\'' || ch = '"' then
    l.content c ((quotedText ch c.advance).map fun (s, c) => (.text .quoted s, c))
  else if !(isBlank ch || isBreak ch || indicators.contains ch) ||
      (ch = '-' && !(c.peekAt 1).any isBlank) ||
      (!l.inFlow && (ch = '?' || ch = ':') && !spaced) then l.plain c
  else none

/-- Splits off what comes next. -/
def step (l : Lexer) (c : Cursor) : Option (Progress Lexer Lexer) := do
  let (l, c) ← scan gapStep l c
  let l := (← l.dropStaleKey c).closeBlocks c.column
  match c.peek with
  | none =>
    let l ← l.closeAll
    return .done (l.put .streamEnd) c
  | some ch => l.dispatch c ch

end Lexer

/-- The tokens of a text; `none` when it cannot be split. -/
def tokens? (s : String) : Option (List Token) := do
  let cs := s.toList
  if !cs.all isAllowed then none
  let (l, _) ← scan Lexer.step {} (.ofChars cs)
  return l.tokens.reverse

end PlanningAgents.Yaml
