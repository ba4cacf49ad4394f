import PlanningAgents.SortedMap
import PlanningAgents.Decimal.Fixed
import PlanningAgents.Text.Field

/-!
# PlanningAgents.Trace.Event

Records of single decisions, written during a simulation and rendered afterwards.

Main statements:

* `TraceEvent.size_extra_withExtra` — adding details never makes an event hold more than
  `maxExtraEntries` of them.
-/

namespace PlanningAgents

/-- What kind of decision an event records. -/
inductive TraceKind where
  | goalSelected | planFound | planFailed | actionStart | actionResult | replan
  | worldStateChange | interrupt
  deriving DecidableEq, Repr, Inhabited

namespace TraceKind

/-- The name of a kind. -/
def name : TraceKind → String
  | .goalSelected => "GoalSelected"
  | .planFound => "PlanFound"
  | .planFailed => "PlanFailed"
  | .actionStart => "ActionStart"
  | .actionResult => "ActionResult"
  | .replan => "Replan"
  | .worldStateChange => "WorldStateChange"
  | .interrupt => "Interrupt"

/-- Every kind. -/
def all : List TraceKind :=
  [.goalSelected, .planFound, .planFailed, .actionStart, .actionResult, .replan,
    .worldStateChange, .interrupt]

/-- The kind with a name. -/
def ofName? (s : String) : Option TraceKind := all.find? (·.name = s)

theorem ofName?_name (k : TraceKind) : ofName? k.name = some k := by cases k <;> decide

end TraceKind

/-- How many details an event keeps. -/
def maxExtraEntries : Nat := 8

/-- How many characters of a detail an event keeps. -/
def maxExtraChars : Nat := 96

/-- One recorded decision. -/
structure TraceEvent where
  kind : TraceKind
  /-- Simulated seconds. -/
  timestamp : Float := 0
  tick : UInt64 := 0
  /-- The stable number of the entity that decided. -/
  entity : UInt64
  message : String
  extra : SortedMap String String := .empty
  deriving Inhabited

namespace TraceEvent

/-- Dates an event. -/
def dated (e : TraceEvent) (tick : UInt64) (timestamp : Float) : TraceEvent :=
  { e with tick, timestamp }

/-- Adds a detail, cut to `maxExtraChars` characters.  Once an event is full, only the details that
it holds already can be written. -/
def withExtra (e : TraceEvent) (key value : String) : TraceEvent :=
  if maxExtraEntries ≤ e.extra.size && !e.extra.contains key then e
  else { e with extra := e.extra.insert key (String.ofList (value.toList.take maxExtraChars)) }

/-- An event that holds no more details than events may hold stays so. -/
theorem size_extra_withExtra (e : TraceEvent) (key value : String)
    (h : e.extra.size ≤ maxExtraEntries) :
    (e.withExtra key value).extra.size ≤ maxExtraEntries := by
  unfold withExtra
  split
  · exact h
  · rename_i hfull
    rw [SortedMap.size_insert]
    split
    · exact h
    · rename_i hnew
      have hlt : ¬ maxExtraEntries ≤ e.extra.size := fun hle => hfull (by simp [hle, hnew])
      omega

/-- The event in one line. -/
def render (e : TraceEvent) : String :=
  "[" ++ Text.padLeft 8 (Decimal.fixed 2 (Decimal.ofFloat e.timestamp)) ++ "s] #" ++
    toString e.entity.toNat ++ " " ++ Text.padRight 16 e.kind.name ++ " " ++ e.message ++
    String.join (e.extra.toList.map fun d => " " ++ d.1 ++ "=" ++ d.2)

end TraceEvent

end PlanningAgents
