import PlanningAgents.Text.Hex
import PlanningAgents.Text.Unprintable

/-!
# PlanningAgents.Text.Quoted

Texts in double quotes, for people to read: what would end the quotation or leave no mark is
written as an escape.
-/

namespace PlanningAgents.Text

/-- How one character is written between quotes. -/
def quoteChar (c : Char) : List Char :=
  if c = '\x00' then ['\\', '0']
  else if c = '\t' then ['\\', 't']
  else if c = '\r' then ['\\', 'r']
  else if c = '\n' then ['\\', 'n']
  else if c = '"' || c = '\\' then ['\\', c]
  else if extendsGrapheme c || !isPrintable c then
    ['\\', 'u', '\x7b'] ++ hexDigits c.toNat ++ ['\x7d']
  else [c]

/-- The text in double quotes. -/
def quote (s : String) : String :=
  String.ofList ('"' :: s.toList.flatMap quoteChar ++ ['"'])

end PlanningAgents.Text
