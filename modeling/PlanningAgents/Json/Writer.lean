import PlanningAgents.Json.Value
import PlanningAgents.Decimal.Style

/-!
# PlanningAgents.Json.Writer

JSON values as compact text, without any space between their parts.
-/

namespace PlanningAgents.Json

/-- The hexadecimal digit of a number below sixteen. -/
def hexDigit (n : Nat) : Char := Nat.digitChar n

/-- How one character is written in a text: the quote, the backslash and the control characters
are escaped. -/
def escapeChar (c : Char) : List Char :=
  if c = '"' || c = '\\' then ['\\', c]
  else if c = '\n' then ['\\', 'n']
  else if c = '\r' then ['\\', 'r']
  else if c = '\t' then ['\\', 't']
  else if c = '\x08' then ['\\', 'b']
  else if c = '\x0c' then ['\\', 'f']
  else if c.toNat < 32 then ['\\', 'u', '0', '0', hexDigit (c.toNat / 16), hexDigit (c.toNat % 16)]
  else [c]

/-- A text between quotes. -/
def writeString (s : String) : String :=
  String.ofList ('"' :: s.toList.flatMap escapeChar ++ ['"'])

mutual

/-- Writes a value. -/
def write : Json → String
  | .null => "null"
  | .bool b => if b then "true" else "false"
  | .int n => toString n
  | .float x => Decimal.Style.data.write (Decimal.ofFloat x)
  | .string s => writeString s
  | .array items => "[" ++ ",".intercalate (writeItems items) ++ "]"
  | .object members => "\x7b" ++ ",".intercalate (writeMembers members) ++ "\x7d"
  | .unusable => "null"

/-- Writes the items of an array. -/
def writeItems : List Json → List String
  | [] => []
  | v :: rest => write v :: writeItems rest

/-- Writes the members of an object. -/
def writeMembers : List (String × Json) → List String
  | [] => []
  | (k, v) :: rest => (writeString k ++ ":" ++ write v) :: writeMembers rest

end

mutual

/-- Puts the members of every object into the order of their names. -/
def sortMembers : Json → Json
  | .array items => .array (sortItems items)
  | .object members =>
    .object ((sortMemberList members).mergeSort fun a b => decide (a.1 ≤ b.1))
  | v => v

/-- Sorts inside the items of an array. -/
def sortItems : List Json → List Json
  | [] => []
  | v :: rest => sortMembers v :: sortItems rest

/-- Sorts inside the members of an object. -/
def sortMemberList : List (String × Json) → List (String × Json)
  | [] => []
  | (k, v) :: rest => (k, sortMembers v) :: sortMemberList rest

end

end PlanningAgents.Json
