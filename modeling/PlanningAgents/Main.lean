import PlanningAgents.CommandLine.Commands

/-!
# PlanningAgents.Main

The program: reads the files that its arguments name, and prints what the command gives.
-/

namespace PlanningAgents

/-- Whether something stands at a path. -/
def isPresent (path : String) : IO Bool := do
  try
    discard (IO.FS.realPath path)
    return true
  catch _ =>
    return false

/-- What stands at a path. -/
def readEntry (path : String) : IO FileEntry := do
  try
    return .text (← IO.FS.readFile path)
  catch _ =>
    return if ← isPresent path then .unreadable else .missing

/-- The files that a command line asks for. -/
def readFiles (arguments : List String) : IO Files := do
  let paths := match CommandLine.parse arguments with
    | .ok i => i.paths
    | .error _ => []
  let entries ← paths.mapM fun path => do return (path, ← readEntry path)
  return { entry := fun path => (entries.lookup path).getD .missing }

end PlanningAgents

open PlanningAgents in
/-- Runs the program on the arguments of its command line. -/
def main (arguments : List String) : IO UInt32 := do
  let result := CommandLine.run arguments (← readFiles arguments)
  IO.print result.output
  result.errors.forM fun e => IO.eprintln e
  return result.exitCode.toUInt32
