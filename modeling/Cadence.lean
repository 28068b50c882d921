import Cadence.Json.Reader
import Cadence.Flow.Playback
import Cadence.Main
import Cadence.Proofs.Flow.Stack
import Cadence.Proofs.Heap
import Cadence.Proofs.FlowTable.Lookup
import Cadence.Proofs.FlowTable.Search
import Cadence.Proofs.FlowTable.Resolution
import Cadence.Proofs.FlowTable.Teardown
import Cadence.Proofs.FlowTable.Forest
import Cadence.Proofs.FlowTable.Pruning
import Cadence.Proofs.Engine
import Cadence.Proofs.Simulation.Contract
import Cadence.Proofs.Simulation.Stage
import Cadence.Proofs.Simulation.Lineage
import Cadence.Proofs.Simulation.Process
import Cadence.Proofs.Simulation.Tick
import Cadence.Proofs.Simulation.Session
import Cadence.Proofs.Scenario.Scope
import Cadence.Proofs.Scenario.Reference
import Cadence.Proofs.Scenario.Invocation
import Cadence.Proofs.Scenario.Contract
import Cadence.Proofs.Scenario.Install
import Cadence.Proofs.FlowTable.History
import Cadence.Proofs.Task
import Cadence.Proofs.Coupling
import Cadence.Proofs.Effect
import Cadence.Proofs.Replay
import Cadence.Proofs.Flow.Response
import Cadence.Proofs.FlowTable.Boundary
import Cadence.Proofs.FlowTable.Prompt
import Cadence.Proofs.Simulation.Turn
import Cadence.Proofs.Simulation.Rounds
import Cadence.Proofs.Simulation.Transparency
import Cadence.Proofs.Simulation.Independence
import Cadence.Proofs.Scenario.Config
import Cadence.Proofs.Scenario.Account
import Cadence.Proofs.Scenario.Run
import Cadence.Proofs.Scenario.Meaning
import Cadence.Proofs.Scenario.Duration
import Cadence.Proofs.Scenario.Timing
import Cadence.Proofs.Flow.Bracket
import Cadence.Proofs.Flow.Exchange
import Cadence.Proofs.FlowTable.Cancellation
import Cadence.Proofs.Simulation.Failure
import Cadence.Proofs.Simulation.Probe
import Cadence.Proofs.Simulation.Reporting
import Cadence.Proofs.Simulation.Log
import Cadence.Proofs.Simulation.Evidence
import Cadence.Proofs.Simulation.Discipline
import Cadence.Proofs.FlowTable.Lifecycle
import Cadence.Proofs.FlowSets.Lifecycle
import Cadence.Proofs.Simulation.FixedPoint
import Cadence.Proofs.Simulation.Rerun
import Cadence.Proofs.Flow.Edge
import Cadence.Proofs.FlowTable.Ending
import Cadence.Proofs.Simulation.Drawing
import Cadence.Proofs.Simulation.Edges
import Cadence.Proofs.Simulation.Telling
import Cadence.Proofs.Simulation.Answers
import Cadence.Proofs.Scenario.Edges
import Cadence.Proofs.FlowTable.Losers
import Cadence.Proofs.Simulation.Budget
import Cadence.Proofs.Simulation.Passage
import Cadence.Proofs.Simulation.Diary
import Cadence.Proofs.Simulation.Idle
import Cadence.Proofs.Scenario.Sleep
import Cadence.Proofs.Scenario.Halts
import Cadence.Proofs.FlowTable.Breakdown
import Cadence.Proofs.FlowTable.Backfire
import Cadence.Proofs.FlowTable.Cascade
import Cadence.Proofs.Simulation.Descent
import Cadence.Proofs.Scenario.WellFormed
import Cadence.Proofs.Simulation.Buffering
import Cadence.Proofs.Simulation.OnSchedule
import Cadence.Proofs.Heap.Numbering
import Cadence.Proofs.Heap.Allocation
import Cadence.Proofs.Heap.Translation
import Cadence.Proofs.Simulation.Objects
import Cadence.Proofs.Scenario.Placement
import Cadence.Proofs.Scenario.Launching
import Cadence.Proofs.Scenario.Installation
import Cadence.Proofs.Scenario.NodeId
import Cadence.Proofs.Flow.Refusal
import Cadence.Proofs.Fields
import Cadence.Proofs.Decimal
import Cadence.Proofs.Json.Nested
import Cadence.Proofs.Json.Text
import Cadence.Proofs.Json.Canonical
import Cadence.Proofs.Json.Nesting
import Cadence.Proofs.Heap.Content
import Cadence.Proofs.Scenario.Substitution
import Cadence.Proofs.Scenario.Shape
import Cadence.Proofs.Scenario.Grammar
import Cadence.Proofs.Simulation.Dates
import Cadence.Proofs.Timeline.Lifetimes
import Cadence.Proofs.Timeline.Snapshot
import Cadence.Proofs.Timeline.Chart
import Cadence.Proofs.Simulation.Film
import Cadence.Proofs.Scenario.Mirror
