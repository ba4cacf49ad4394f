/-!
# PlanningAgents.Yaml.Token

The parts that a YAML text is made of.  Indentation has become explicit: a block begins with a
token of its kind and ends with `blockEnd`.  Tags are kept as octets, since they may be written as
such and need not be a text.
-/

namespace PlanningAgents.Yaml

/-- How a text is written. -/
inductive TextStyle where
  | plain | quoted | literal | folded
  deriving DecidableEq, Repr, Inhabited

/-- A part of a YAML text. -/
inductive Token where
  | streamEnd
  /-- A line that tells the version of the format. -/
  | version (major minor : Nat)
  /-- A line that tells what a handle of tags stands for. -/
  | handle (name : String) (expansion : List UInt8)
  | documentStart
  | documentEnd
  | blockListStart
  | blockRecordStart
  | blockEnd
  | flowListStart
  | flowListEnd
  | flowRecordStart
  | flowRecordEnd
  /-- The dash before an item of a block. -/
  | blockEntry
  /-- The comma between brackets. -/
  | flowEntry
  | key
  | value
  | anchor (name : String)
  /-- Stands for what the anchor of that name is attached to. -/
  | reference (name : String)
  | tag (handle : String) (suffix : List UInt8)
  | text (style : TextStyle) (s : String)
  deriving DecidableEq, Repr, Inhabited

end PlanningAgents.Yaml
