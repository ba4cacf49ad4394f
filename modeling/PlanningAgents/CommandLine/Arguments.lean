import PlanningAgents.Text.Blank

/-!
# PlanningAgents.CommandLine.Arguments

The arguments of the command line, and what they ask for.

Options stand before or behind the name of the command.  The value of an option is attached to it or
is the next argument; it is taken up when the next option is met, so that of two faults the one that
is met first is reported.  An argument that begins with a dash is never a value, except a lone dash.

Main statements:

* `parseGoal_ok_iff` — a goal is read exactly when what follows its first equals sign is a truth
  value.
-/

namespace PlanningAgents.CommandLine

/-! ## errors -/

/-- Arguments that cannot be used. -/
inductive UsageError where
  | malformed
  /-- The value of a goal, with what is wrong about it. -/
  | badGoal (value reason : String)
  deriving DecidableEq, Repr

/-- What the error says, as far as it has words of its own. -/
def UsageError.lines : UsageError → List String
  | .malformed => []
  | .badGoal value reason =>
    ["error: invalid value '" ++ value ++ "' for '--goal <GOAL>': " ++ reason]

/-! ## values -/

/-- The truth values that a goal may ask for. -/
def goalValue? (s : String) : Option Bool :=
  if s = "true" || s = "1" then some true
  else if s = "false" || s = "0" then some false
  else none

/-- Reads an atom with its wanted value. -/
def parseGoal (raw : String) : Except String (String × Bool) :=
  let cs := raw.toList
  if '=' ∈ cs then
    let atom := Text.trim (String.ofList (cs.takeWhile (· ≠ '=')))
    let value := Text.trim (String.ofList ((cs.dropWhile (· ≠ '=')).drop 1))
    match goalValue? value with
    | some b => .ok (atom, b)
    | none => .error ("'" ++ value ++ "' is not a boolean")
  else .error ("expected atom=bool, got '" ++ raw ++ "'")

/-- A goal is read exactly when what follows its first equals sign is a truth value. -/
theorem parseGoal_ok_iff (raw atom : String) (b : Bool) :
    parseGoal raw = .ok (atom, b) ↔
      '=' ∈ raw.toList ∧
        atom = Text.trim (String.ofList (raw.toList.takeWhile (· ≠ '='))) ∧
        goalValue? (Text.trim (String.ofList ((raw.toList.dropWhile (· ≠ '=')).drop 1))) =
          some b := by
  unfold parseGoal
  by_cases h : '=' ∈ raw.toList
  · simp only [h, if_true, true_and]
    generalize Text.trim (String.ofList (raw.toList.takeWhile (· ≠ '='))) = name
    generalize Text.trim (String.ofList ((raw.toList.dropWhile (· ≠ '=')).drop 1)) = value
    cases goalValue? value <;> simp [eq_comm]
  · simp [h]

/-- The number that digits spell. -/
def digits? (cs : List Char) : Option Nat :=
  if !cs.isEmpty && cs.all Char.isDigit then
    some (cs.foldl (fun n c => 10 * n + (c.toNat - '0'.toNat)) 0)
  else none

/-- Reads a number below `bound`.  A zero may have a minus sign where `signed` says so. -/
def parseCount (bound : Nat) (signed : Bool) (s : String) : Option Nat := do
  let n ← match s.toList with
    | '+' :: cs => digits? cs
    | '-' :: cs => if signed then (digits? cs).filter (· = 0) else none
    | cs => digits? cs
  if n < bound then some n else none

/-! ## options -/

/-- The options of all commands. -/
inductive Opt where
  | config | verbose | logJson | defs | type | goal | ticks | actionTicks | count | json
  deriving DecidableEq, Repr

namespace Opt

/-- The name of an option, without its dashes. -/
def name : Opt → String
  | .config => "config"
  | .verbose => "verbose"
  | .logJson => "log-json"
  | .defs => "defs"
  | .type => "type"
  | .goal => "goal"
  | .ticks => "ticks"
  | .actionTicks => "action-ticks"
  | .count => "count"
  | .json => "json"

/-- The letter that stands for an option. -/
def letter : Opt → Option Char
  | .config => some 'c'
  | .verbose => some 'v'
  | _ => none

/-- Whether an option has a value. -/
def takesValue : Opt → Bool
  | .verbose | .logJson | .json => false
  | _ => true

/-- What is wrong about a value, if anything is. -/
def check (o : Opt) (value : String) : Except UsageError Unit :=
  let accept (ok : Bool) : Except UsageError Unit := if ok then .ok () else .error .malformed
  match o with
  | .config | .defs => accept (value ≠ "")
  | .goal => match parseGoal value with
    | .ok _ => .ok ()
    | .error reason => .error (.badGoal value reason)
  | .ticks | .actionTicks => accept (parseCount UInt32.size true value).isSome
  | .count => accept (parseCount UInt64.size false value).isSome
  | _ => .ok ()

/-- The options that every command has. -/
def shared : List Opt := [.config, .verbose, .logJson]

end Opt

/-- The commands by their names, with the options of their own. -/
def commandOptions : List (String × List Opt) :=
  [("describe", [.defs]), ("plan", [.defs, .type, .goal]),
    ("simulate", [.defs, .type, .ticks, .actionTicks, .count, .json])]

/-! ## reading -/

/-- The options read so far on one side of the command's name. -/
structure Found where
  /-- In the order in which they were taken up; an option without a value has an empty one. -/
  values : List (Opt × String) := []
  /-- The option whose value may still come, with the value once it has come. -/
  pending : Option (Opt × Option String) := none

namespace Found

/-- The value of an option. -/
def value? (f : Found) (o : Opt) : Option String := f.values.lookup o

/-- Takes up an option.  Only goals may be given more than once. -/
def take (f : Found) (o : Opt) (value : String) : Except UsageError Found := do
  if o ≠ .goal && (f.value? o).isSome then throw .malformed
  o.check value
  return { f with values := f.values ++ [(o, value)] }

/-- Takes up the option whose value was awaited. -/
def settle (f : Found) : Except UsageError Found :=
  match f.pending with
  | none => .ok f
  | some (_, none) => .error .malformed
  | some (o, some value) => Found.take { f with pending := none } o value

/-- Meets an option, with the value that is attached to it. -/
def meet (f : Found) (o : Opt) (attached : Option String) : Except UsageError Found := do
  if !o.takesValue && attached.isSome then throw .malformed
  let f ← f.settle
  match o.takesValue, attached with
  | true, none => return { f with pending := some (o, none) }
  | _, value => f.take o (value.getD "")

/-- Meets options that are given by their letters behind one dash. -/
def meetLetters (known : List Opt) (f : Found) : List Char → Except UsageError Found
  | [] => .ok f
  | c :: rest =>
    match known.find? (·.letter = some c) with
    | none => .error .malformed
    | some o =>
      if o.takesValue then
        f.meet o (match rest with
          | [] => none
          | '=' :: value => some (String.ofList value)
          | value => some (String.ofList value))
      else do (← f.meet o none).meetLetters known rest

end Found

/-- What an argument looks like. -/
inductive Shape where
  | word
  /-- Two dashes, behind which no option stands. -/
  | separator
  | long (name : String) (attached : Option String)
  | letters (cs : List Char)

/-- The shape of an argument. -/
def Shape.ofArgument (a : String) : Shape :=
  match a.toList with
  | ['-', '-'] => .separator
  | '-' :: '-' :: cs =>
    .long (String.ofList (cs.takeWhile (· ≠ '=')))
      (match cs.dropWhile (· ≠ '=') with
        | [] => none
        | _ :: value => some (String.ofList value))
  | '-' :: c :: cs => .letters (c :: cs)
  | _ => .word

/-- Reads options up to the first argument that is neither one nor the value of one; gives that
argument and those behind it.  Behind a separator there can only be such arguments. -/
def readOptions (known : List Opt) (f : Found) :
    List String → Except UsageError (Found × Option (String × Bool × List String))
  | [] => .ok (f, none)
  | a :: rest =>
    match Shape.ofArgument a with
    | .separator =>
      match rest with
      | [] => .ok (f, none)
      | b :: rest => .ok (f, some (b, true, rest))
    | .long name attached =>
      match known.find? (·.name = name) with
      | none => .error .malformed
      | some o => do readOptions known (← f.meet o attached) rest
    | .letters cs => do readOptions known (← f.meetLetters known cs) rest
    | .word =>
      match f.pending with
      | some (o, none) => readOptions known { f with pending := some (o, some a) } rest
      | _ => .ok (f, some (a, false, rest))

/-! ## what is asked for -/

/-- A command with its options. -/
inductive Command where
  | describe (defs : String)
  | plan (defs entityType : String) (goal : List (String × Bool))
  | simulate (defs entityType : String) (ticks actionTicks count : Nat) (json : Bool)
  deriving DecidableEq, Repr

/-- What a command line asks for. -/
structure Invocation where
  config : Option String
  command : Command
  deriving DecidableEq, Repr

/-- The value of an option that has to be given. -/
def Found.require (f : Found) (o : Opt) : Except UsageError String :=
  (f.value? o).elim (.error .malformed) .ok

/-- The number that an option gives. -/
def Found.count (f : Found) (o : Opt) (default : Nat) : Nat :=
  ((f.value? o).bind (parseCount UInt64.size true)).getD default

/-- The goals that are asked for, in their order. -/
def Found.goals (f : Found) : List (String × Bool) :=
  f.values.filterMap fun v => if v.1 = .goal then (parseGoal v.2).toOption else none

/-- The command of a name with its options. -/
def Found.toCommand (f : Found) (name : String) : Except UsageError Command := do
  let defs ← f.require .defs
  if name = "describe" then return .describe defs
  let entityType ← f.require .type
  if name = "plan" then return .plan defs entityType f.goals
  return .simulate defs entityType (f.count .ticks 20) (f.count .actionTicks 1) (f.count .count 1)
    (f.value? .json).isSome

/-- Reads a command line.  Of a shared option that is given on both sides of the command's name, the
one behind it counts. -/
def parse (arguments : List String) : Except UsageError Invocation := do
  let (before, found) ← readOptions Opt.shared {} arguments
  match found with
  | some (name, false, rest) =>
    match commandOptions.lookup name with
    | none => throw .malformed
    | some own =>
      let (behind, extra) ← readOptions (own ++ Opt.shared) {} rest
      if extra.isSome then throw .malformed
      let behind ← behind.settle
      let command ← behind.toCommand name
      let before ← before.settle
      return { config := (behind.value? .config).or (before.value? .config), command }
  | _ => throw .malformed

end PlanningAgents.CommandLine
