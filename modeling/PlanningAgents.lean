import PlanningAgents.Agent.Basic
import PlanningAgents.Agent.Behavior
import PlanningAgents.Agent.Codec
import PlanningAgents.Agent.Commands
import PlanningAgents.Agent.Handler
import PlanningAgents.Agent.Turn
import PlanningAgents.Atoms.State
import PlanningAgents.Atoms.Table
import PlanningAgents.Blackboard.Basic
import PlanningAgents.Blackboard.Value
import PlanningAgents.CommandLine.Arguments
import PlanningAgents.CommandLine.Commands
import PlanningAgents.Config
import PlanningAgents.Config.Codec
import PlanningAgents.Decimal.Binary
import PlanningAgents.Decimal.Fixed
import PlanningAgents.Decimal.Numeral
import PlanningAgents.Decimal.Shortest
import PlanningAgents.Decimal.Style
import PlanningAgents.Definition.Codec
import PlanningAgents.Definition.Spec
import PlanningAgents.Error
import PlanningAgents.Files
import PlanningAgents.Files.Directory
import PlanningAgents.Json.Reader
import PlanningAgents.Json.Value
import PlanningAgents.Json.Writer
import PlanningAgents.Main
import PlanningAgents.Node.Basic
import PlanningAgents.Node.Decode
import PlanningAgents.Node.Json
import PlanningAgents.Planner.Basic
import PlanningAgents.Planner.Frontier
import PlanningAgents.Planner.Plan
import PlanningAgents.Planner.Search
import PlanningAgents.Proofs.Atoms.Distance
import PlanningAgents.Proofs.Attempt
import PlanningAgents.Proofs.Planner.Frontier
import PlanningAgents.Sense
import PlanningAgents.Simulation.Basic
import PlanningAgents.Simulation.Scheduler
import PlanningAgents.SortedMap
import PlanningAgents.Text.Blank
import PlanningAgents.Text.Case
import PlanningAgents.Text.CaseTable
import PlanningAgents.Text.CharRange
import PlanningAgents.Text.Field
import PlanningAgents.Text.Hex
import PlanningAgents.Text.Quoted
import PlanningAgents.Text.Unprintable
import PlanningAgents.Tick
import PlanningAgents.Trace.Buffer
import PlanningAgents.Trace.Codec
import PlanningAgents.Trace.Event
import PlanningAgents.Vec2
import PlanningAgents.World
import PlanningAgents.Yaml.Cursor
import PlanningAgents.Yaml.Lexer
import PlanningAgents.Yaml.Reader
import PlanningAgents.Yaml.Scalar
import PlanningAgents.Yaml.Text
import PlanningAgents.Yaml.Token
import PlanningAgents.Proofs.Planner.Execution
import PlanningAgents.Proofs.Planner.Node
import PlanningAgents.Proofs.Planner.Search
import PlanningAgents.Proofs.Planner.Exploration
import PlanningAgents.Proofs.Planner.Soundness
import PlanningAgents.Proofs.Planner.Optimality
import PlanningAgents.Proofs.Planner.Completeness
import PlanningAgents.Proofs.Agent.Parts
import PlanningAgents.Proofs.Agent.Reachable
import PlanningAgents.Proofs.Agent.Course
import PlanningAgents.Proofs.Agent.Coherence
import PlanningAgents.Proofs.Atoms.Registration
import PlanningAgents.Proofs.Agent.Steady
import PlanningAgents.Proofs.Planner.Loading
import PlanningAgents.Proofs.Agent.Journal
import PlanningAgents.Proofs.Agent.Loading
import PlanningAgents.Proofs.Agent.History
import PlanningAgents.Proofs.Agent.Lifecycle
import PlanningAgents.Proofs.Agent.Reaction
import PlanningAgents.Proofs.Agent.Refinement
import PlanningAgents.Proofs.Agent.Moves
import PlanningAgents.Proofs.Agent.Retries
import PlanningAgents.Proofs.Atoms.Covering
import PlanningAgents.Proofs.Planner.Merging
import PlanningAgents.Proofs.Agent.Order
import PlanningAgents.Proofs.Agent.Watching
import PlanningAgents.Proofs.Simulation.Run
import PlanningAgents.Proofs.Simulation.States
import PlanningAgents.Proofs.Agent.Translation
import PlanningAgents.Proofs.Agent.Requests
import PlanningAgents.Proofs.Simulation.History
import PlanningAgents.Proofs.Simulation.Docket
import PlanningAgents.Proofs.Simulation.Interrupts
import PlanningAgents.Proofs.Simulation.Delays
import PlanningAgents.Proofs.Simulation.Tables
import PlanningAgents.Proofs.Simulation.Updates
import PlanningAgents.Proofs.Simulation.Resets
import PlanningAgents.Proofs.Simulation.Validity
import PlanningAgents.Proofs.Planner.Estimate
import PlanningAgents.Proofs.Agent.Seclusion
import PlanningAgents.Proofs.Simulation.Isolation
import PlanningAgents.Proofs.Agent.Timing
import PlanningAgents.Proofs.Simulation.Starts
import PlanningAgents.Proofs.CommandLine.Agreement
import PlanningAgents.Proofs.Planner.Budget
import PlanningAgents.Proofs.Planner.Termination
import PlanningAgents.Proofs.Atoms.Renumbering
import PlanningAgents.Proofs.Planner.Renumbering
import PlanningAgents.Proofs.Planner.Encoding
import PlanningAgents.Proofs.Agent.Reloading
import PlanningAgents.Proofs.Atoms.Filling
import PlanningAgents.Proofs.Atoms.RoundTrip
import PlanningAgents.Proofs.Atoms.Remapping
import PlanningAgents.Proofs.Atoms.Sessions
import PlanningAgents.Proofs.Simulation.Refusals
import PlanningAgents.Proofs.Agent.Seeding
import PlanningAgents.Proofs.Trace.Window
import PlanningAgents.Proofs.Trace.Details
import PlanningAgents.Proofs.Sense.Order
import PlanningAgents.Proofs.Sense.Range
import PlanningAgents.Proofs.Sense.Nearest
import PlanningAgents.Proofs.Blackboard.Reading
import PlanningAgents.Proofs.Json.Reading
import PlanningAgents.Proofs.Trace.RoundTrip
import PlanningAgents.Proofs.Atoms.PartialMaps
import PlanningAgents.Proofs.Node.Decoding
import PlanningAgents.Proofs.Node.Shape
import PlanningAgents.Proofs.Definition.RoundTrip
import PlanningAgents.Proofs.Agent.Attempts
import PlanningAgents.Proofs.Agent.Trials
