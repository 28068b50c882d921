import Cadence.Simulation.Entities
/-!
The timeline of flows: when each was spawned and when it ended, drawn as a chart with one row per
flow and fifty columns for the whole span.
-/

namespace Cadence

inductive EventKind where
  | spawned
  | completed
  | cancelled
  deriving DecidableEq

structure Event where
  flow : FlowId
  name : String
  kind : EventKind
  tick : Tick

structure Lifetime where
  name : String
  start : Tick
  ending : Option (Tick × EventKind) := none

structure Timeline where
  events : List Event := []
  span : Tick := 0

namespace Timeline

def add (timeline : Timeline) (event : Event) : Timeline :=
  { events := timeline.events ++ [event], span := max timeline.span event.tick }

def ofEvents (span : Tick) (events : List Event) : Timeline :=
  { events, span := events.foldl (fun last event => max last event.tick) span }

def summaryEvents (flow : FlowSummary) : List Event :=
  [⟨flow.id, flow.name, .spawned, flow.spawnedAt⟩]

def completionEvents (flow : Completion) : List Event :=
  [⟨flow.id, flow.name, .spawned, flow.spawnedAt⟩,
   ⟨flow.id, flow.name, .completed, flow.completedAt⟩]

def cancellationEvents (flow : Cancellation) : List Event :=
  [⟨flow.id, flow.name, .spawned, flow.spawnedAt⟩,
   ⟨flow.id, flow.name, .cancelled, flow.cancelledAt⟩]

def ofEntities (entities : Entities) : Timeline :=
  ofEvents entities.tick
    (entities.active.flatMap summaryEvents
      ++ entities.suspended.flatMap (fun flow => summaryEvents flow.1)
      ++ entities.completed.flatMap completionEvents
      ++ entities.cancelled.flatMap cancellationEvents)

def extend (known : Option Lifetime) (event : Event) : Lifetime :=
  let lifetime := known.getD { name := event.name, start := event.tick }
  match event.kind with
  | .spawned => { lifetime with start := event.tick }
  | kind => { lifetime with ending := some (event.tick, kind) }

def enter (event : Event) : List (FlowId × Lifetime) → List (FlowId × Lifetime)
  | [] => [(event.flow, extend none event)]
  | (id, lifetime) :: rest =>
    if event.flow = id then (id, extend (some lifetime) event) :: rest
    else if event.flow < id then (event.flow, extend none event) :: (id, lifetime) :: rest
    else (id, lifetime) :: enter event rest

def lifetimes (timeline : Timeline) : List (FlowId × Lifetime) :=
  timeline.events.foldl (fun known event => enter event known) []

def durations (timeline : Timeline) : List (FlowId × Nat) :=
  timeline.lifetimes.filterMap fun (id, lifetime) =>
    lifetime.ending.map fun (tick, _) => (id, tick - lifetime.start)

def width : Nat := 50

def labelWidth : Nat := 16

/-- The column of a tick; ticks after the end fall on the last column. -/
def column (timeline : Timeline) (tick : Tick) : Nat :=
  let total := max timeline.span 1
  min tick total * width / total

def padRight (n : Nat) (text : List Char) : List Char :=
  text ++ List.replicate (n - text.length) ' '

/-- A text of exactly `labelWidth` characters; one that is too long ends in dots. -/
def fitLabel (text : List Char) : List Char :=
  if text.length ≤ labelWidth then padRight labelWidth text
  else text.take (labelWidth - 3) ++ ['.', '.', '.']

def tail (timeline : Timeline) (lifetime : Lifetime) : Tick × Char × String :=
  match lifetime.ending with
  | some (tick, .cancelled) => (tick, 'x', s!"cancelled after {tick - lifetime.start} ticks")
  | some (tick, _) => (tick, '#', s!"{tick - lifetime.start} ticks")
  | none => (timeline.span, '~', "running")

def bar (timeline : Timeline) (lifetime : Lifetime) : List Char :=
  let (finish, fill, _) := timeline.tail lifetime
  let start := min (timeline.column lifetime.start) (width - 1)
  let length := max (timeline.column finish - start) 1
  List.replicate start ' ' ++ List.replicate length fill

def label (id : FlowId) (lifetime : Lifetime) : List Char :=
  fitLabel s!"#{id} {lifetime.name}".toList

def row (timeline : Timeline) (entry : FlowId × Lifetime) : List Char :=
  let (_, _, note) := timeline.tail entry.2
  label entry.1 entry.2 ++ ' ' :: '|' :: padRight width (timeline.bar entry.2)
    ++ '|' :: ' ' :: '(' :: note.toList ++ [')', '\n']

def insertByStart (entry : FlowId × Lifetime) :
    List (FlowId × Lifetime) → List (FlowId × Lifetime)
  | [] => [entry]
  | other :: rest =>
    if entry.2.start < other.2.start
        ∨ (entry.2.start = other.2.start ∧ entry.1 ≤ other.1) then entry :: other :: rest
    else other :: insertByStart entry rest

def rows (timeline : Timeline) : List (FlowId × Lifetime) :=
  timeline.lifetimes.foldr insertByStart []

def chart (timeline : Timeline) : String :=
  let heading := "\nExecution Timeline:\n\n"
  if timeline.rows.isEmpty then heading
  else
    heading ++ String.ofList (timeline.rows.flatMap timeline.row)
      ++ s!"\nTotal: {timeline.span} ticks\n"

end Timeline

end Cadence
