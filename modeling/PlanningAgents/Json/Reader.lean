import PlanningAgents.Json.Value
import PlanningAgents.Decimal.Numeral
import PlanningAgents.Text.Hex

/-!
# PlanningAgents.Json.Reader

Reads JSON text, one character at a time and without recursion on nesting: what is open is kept
on a stack.  The reader is strict: nothing but white space may stand around the value, numbers
have no leading zeros, and control characters inside texts are refused.
-/

namespace PlanningAgents.Json

open Decimal (Numeral)

/-! ## scalars -/

/-- Reads a numeral; also says whether it is written as a whole number. -/
def numeral? (cs : List Char) : Option (Numeral × Bool) := do
  let (negative, cs) := match cs with
    | '-' :: r => (true, r)
    | r => (false, r)
  let (whole, cs) := Numeral.digitsOf cs
  if whole.isEmpty || (whole.head? = some 0 && 1 < whole.length) then none
  let (fraction, cs) ← match cs with
    | '.' :: r =>
      match Numeral.digitsOf r with
      | ([], _) => none
      | (ds, r) => some (ds, r)
    | r => some ([], r)
  let exponent ← Numeral.exponent? cs
  return ({ negative, whole, fraction, exponent := exponent.getD 0 },
    fraction.isEmpty && exponent.isNone)

/-- The value of a numeral.  A whole number within the range of 64-bit words is an integer; any
other number, and minus zero, is read by `machine`. -/
def ofNumeral (machine : Numeral → Option Float) (n : Numeral) (isWhole : Bool) : Json :=
  let magnitude : Int := Numeral.ofDigits n.whole
  let value := if n.negative then -magnitude else magnitude
  if isWhole && !(n.negative && magnitude = 0) &&
      Int64.minValue.toInt ≤ value && value < UInt64.size then .int value
  else match machine n with
    | some x => .float x
    | none => .unusable

/-- The value that a bare word stands for. -/
def ofWord (w : String) : Option Json :=
  if w = "true" then some (.bool true)
  else if w = "false" then some (.bool false)
  else if w = "null" then some .null
  else none

/-- The characters that a list of code units stands for; `none` at half of a surrogate pair. -/
def ofUnits : List Nat → Option (List Char)
  | [] => some []
  | u :: rest =>
    if 0xD800 ≤ u && u < 0xDC00 then
      match rest with
      | v :: rest =>
        if 0xDC00 ≤ v && v < 0xE000 then
          (ofUnits rest).map (Char.ofNat (0x10000 + (u - 0xD800) * 0x400 + (v - 0xDC00)) :: ·)
        else none
      | [] => none
    else if 0xDC00 ≤ u && u < 0xE000 then none
    else (ofUnits rest).map (Char.ofNat u :: ·)

/-- The character that a one-letter escape stands for. -/
def escape? (c : Char) : Option Char :=
  match c with
  | '"' => some '"'
  | '\\' => some '\\'
  | '/' => some '/'
  | 'b' => some '\x08'
  | 'f' => some '\x0c'
  | 'n' => some '\n'
  | 'r' => some '\r'
  | 't' => some '\t'
  | _ => none

/-! ## structure -/

/-- A container that is still open, its content latest first. -/
inductive Frame where
  | array (items : List Json)
  /-- `usable` is false once a name could not be read. -/
  | object (members : List (String × Json)) (name : String) (usable : Bool)

/-- What may come next. -/
inductive Expect where
  | value | valueOrEnd | name | nameOrEnd | colon | commaOrEnd | nothing
  deriving DecidableEq

/-- What has been read so far. -/
structure Build where
  stack : List Frame := []
  expect : Expect := .value
  done : Option Json := none

/-- Takes a complete value. -/
def Build.give (b : Build) (v : Json) : Option Build :=
  match b.expect, b.stack with
  | .value, [] => some { b with expect := .nothing, done := some v }
  | .value, .array items :: st | .valueOrEnd, .array items :: st =>
    some { b with stack := .array (v :: items) :: st, expect := .commaOrEnd }
  | .value, .object members name usable :: st =>
    some { b with stack := .object ((name, v) :: members) name usable :: st, expect := .commaOrEnd }
  | _, _ => none

/-- Takes a text, which is a name or a value; `none` stands for one that cannot be used. -/
def Build.giveText (b : Build) (s : Option String) : Option Build :=
  match b.expect, b.stack with
  | .name, .object members _ usable :: st | .nameOrEnd, .object members _ usable :: st =>
    some
      { b with stack := .object members (s.getD "") (usable && s.isSome) :: st, expect := .colon }
  | _, _ => b.give (s.elim .unusable .string)

/-- Closes the innermost container and gives it to the one around it. -/
def Build.close (b : Build) (v : Json) (rest : List Frame) : Option Build :=
  Build.give { b with stack := rest, expect := .value } v

/-- Takes a bracket, comma or colon. -/
def Build.mark (b : Build) (c : Char) : Option Build :=
  match c, b.expect, b.stack with
  | '[', .value, st | '[', .valueOrEnd, st =>
    some { b with stack := .array [] :: st, expect := .valueOrEnd }
  | '\x7b', .value, st | '\x7b', .valueOrEnd, st =>
    some { b with stack := .object [] "" true :: st, expect := .nameOrEnd }
  | ']', .valueOrEnd, .array items :: st | ']', .commaOrEnd, .array items :: st =>
    b.close (.array items.reverse) st
  | '\x7d', .nameOrEnd, .object members _ usable :: st
  | '\x7d', .commaOrEnd, .object members _ usable :: st =>
    b.close (if usable then .object members.reverse else .unusable) st
  | ',', .commaOrEnd, .array _ :: _ => some { b with expect := .value }
  | ',', .commaOrEnd, .object .. :: _ => some { b with expect := .name }
  | ':', .colon, _ => some { b with expect := .value }
  | _, _, _ => none

/-! ## characters -/

/-- Inside which scalar the reader stands; what has been read of it is kept latest first. -/
inductive Mode where
  | between
  | word (read : List Char)
  | number (read : List Char)
  | text (units : List Nat)
  | escape (units : List Nat)
  | code (units : List Nat) (value : Nat) (left : Nat)

/-- The reader between two characters. -/
structure Reader where
  build : Build := {}
  mode : Mode := .between

/-- Starts on a character outside of any scalar. -/
def begin? (b : Build) (c : Char) : Option Reader :=
  if c = ' ' || c = '\n' || c = '\t' || c = '\r' then some ⟨b, .between⟩
  else if c = '"' then some ⟨b, .text []⟩
  else if c = '-' || c.isDigit then some ⟨b, .number [c]⟩
  else if 'a' ≤ c && c ≤ 'z' then some ⟨b, .word [c]⟩
  else (b.mark c).map (⟨·, .between⟩)

/-- Whether a numeral may go on with a character. -/
def continuesNumber (c : Char) : Bool :=
  c.isDigit || c = '.' || c = 'e' || c = 'E' || c = '+' || c = '-'

/-- Ends a word or a number that has been read in full. -/
def finish (machine : Numeral → Option Float) (r : Reader) : Option Build :=
  match r.mode with
  | .between => some r.build
  | .word read => do r.build.give (← ofWord (String.ofList read.reverse))
  | .number read => do
    let (n, isWhole) ← numeral? read.reverse
    r.build.give (ofNumeral machine n isWhole)
  | _ => none

/-- Takes one character. -/
def step (machine : Numeral → Option Float) (r : Reader) (c : Char) : Option Reader :=
  match r.mode with
  | .between => begin? r.build c
  | .word read =>
    if 'a' ≤ c && c ≤ 'z' then some { r with mode := .word (c :: read) }
    else do begin? (← finish machine r) c
  | .number read =>
    if continuesNumber c then some { r with mode := .number (c :: read) }
    else do begin? (← finish machine r) c
  | .text units =>
    if c = '"' then
      (r.build.giveText ((ofUnits units.reverse).map String.ofList)).map (⟨·, .between⟩)
    else if c = '\\' then some { r with mode := .escape units }
    else if c.toNat < 32 then none
    else some { r with mode := .text (c.toNat :: units) }
  | .escape units =>
    if c = 'u' then some { r with mode := .code units 0 4 }
    else (escape? c).map fun e => { r with mode := .text (e.toNat :: units) }
  | .code units value left => do
    let value := 16 * value + (← Text.hexDigit? c)
    return { r with
      mode := if left ≤ 1 then .text (value :: units) else .code units value (left - 1) }

/-- Reads a text that holds one value.  Numbers that are not integers are read by `machine`. -/
def read (machine : Numeral → Option Float) (s : String) : Option Json := do
  let r ← s.toList.foldlM (step machine) {}
  (← finish machine r).done

/-- Reads a text that holds one value, with the quick reading of numbers. -/
def ofString? (s : String) : Option Json := read Numeral.scaled s

end PlanningAgents.Json
