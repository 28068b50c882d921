import Cadence.Flow.Playback
import Cadence.Proofs.Flow.Step
import Cadence.Proofs.FlowTable.Resolution
/-!
The traffic of a flow is well bracketed, whatever its coroutine does. Each unload leaves the method
that was loaded last among those still open, an edge of a call stands right in front of the load
that it leads to, and the edge back right behind the unload. What is open by the traffic is what
lies on the stack.
-/

namespace Cadence

/-! ## Traces -/

/-- A method that was loaded and not unloaded yet, with the frame that consumes its value. -/
structure OpenCall where
  address : Address
  consumer : Option Address

/-- The calls that a trace leaves open, the innermost first, and the edge of a call at its end. -/
structure Nesting where
  calls : List OpenCall := []
  edge : Option (Address × Address) := none

def Nesting.next (nesting : Nesting) : Traffic → Nesting
  | .load address _ =>
    -- The value is consumed if the edge of a dependency has just led here.
    let consumer := nesting.edge.bind fun (source, target) =>
      if target = address then some source else none
    { calls := ⟨address, consumer⟩ :: nesting.calls }
  | .unload _ _ => { calls := nesting.calls.tail }
  | .callDependency source target _ => { calls := nesting.calls, edge := some (source, target) }
  | .sendData _ _ _ | .resolveDependency _ _ _ | .log _ _ | .halt _ _ _ =>
    { calls := nesting.calls }

def Nesting.of (trace : List Traffic) : Nesting :=
  trace.foldl next {}

def openCalls (trace : List Traffic) : List OpenCall :=
  (Nesting.of trace).calls

def innermost? (trace : List Traffic) : Option Address :=
  (openCalls trace).head?.map OpenCall.address

def Traffic.InPlace (past rest : List Traffic) : Traffic → Prop
  | .load _ _ => True
  | .log address _ | .halt address _ _ => innermost? past = some address
  | .callDependency source target params | .sendData source target params =>
    innermost? past = some source ∧ rest.head? = some (.load target params)
  | .unload address value =>
    ∃ consumer, (openCalls past).head? = some ⟨address, consumer⟩ ∧ ∀ target,
      rest.head? = some (.resolveDependency address target value) ↔ consumer = some target
  | .resolveDependency source target value =>
    ∃ earlier, past = earlier ++ [.unload source value] ∧
      (openCalls earlier).head? = some ⟨source, some target⟩

def WellBracketed (trace : List Traffic) : Prop :=
  ∀ past event rest, trace = past ++ event :: rest → event.InPlace past rest

section Traces

variable {trace block : List Traffic} {event : Traffic}

theorem Nesting.of_append (trace block : List Traffic) :
    Nesting.of (trace ++ block) = block.foldl next (of trace) :=
  List.foldl_append

theorem Traffic.InPlace.append {past rest : List Traffic} (placed : event.InPlace past rest)
    (onward : ∀ source target value, block.head? ≠ some (.resolveDependency source target value)) :
    event.InPlace past (rest ++ block) := by
  have longer {next : Traffic} (known : rest.head? = some next) :
      (rest ++ block).head? = some next := by
    cases rest with
    | nil => simp at known
    | cons first rest => exact known
  cases event with
  | load => trivial
  | log => exact placed
  | halt => exact placed
  | resolveDependency => exact placed
  | callDependency => exact placed.imp_right longer
  | sendData => exact placed.imp_right longer
  | unload address value =>
      obtain ⟨consumer, innermost, resolved⟩ := placed
      -- Only an edge back could change the place of an unload that was the last event.
      refine ⟨consumer, innermost, fun target => ?_⟩
      rw [← resolved target]
      cases rest with
      | nil => simpa using onward address target value
      | cons first rest => rfl

def Placed (past : List Traffic) : List Traffic → Prop
  | [] => True
  | event :: rest => event.InPlace past rest ∧ Placed (past ++ [event]) rest

theorem Placed.inPlace {past rest : List Traffic} (placed : Placed trace block)
    (split : block = past ++ event :: rest) : event.InPlace (trace ++ past) rest := by
  induction past generalizing trace block with
  | nil =>
      subst split
      simpa using placed.1
  | cons first past ih =>
      subst split
      simpa using ih placed.2 rfl

theorem WellBracketed.append (well : WellBracketed trace) (placed : Placed trace block)
    (onward : ∀ source target value, block.head? ≠ some (.resolveDependency source target value)) :
    WellBracketed (trace ++ block) := by
  intro past event rest split
  rcases List.append_eq_append_iff.1 split with ⟨more, rfl, within⟩ | ⟨more, rfl, within⟩
  · exact placed.inPlace within
  · cases more with
    | nil =>
        have first : block = [] ++ event :: rest := within.symm
        simpa using placed.inPlace first
    | cons first more =>
        obtain ⟨rfl, rfl⟩ := List.cons.inj within
        exact (well past event more rfl).append onward

end Traces

/-! ## Stacks -/

def Record.leave (record : Record) (value : Json) : Record :=
  { record with returnValue := some value }.push .provideReturnAndPop

namespace Stack

def calls : List Record → List OpenCall
  | [] => []
  | record :: below =>
    match record.frame? with
    | none => calls below
    | some address =>
      let consumer := if record.isDependency then below.head?.bind Record.frame? else none
      ⟨address, consumer⟩ :: calls below

def isLeaving (record : Record) : Bool :=
  record.operations.any fun operation =>
    match operation with
    | .provideReturnAndPop => true
    | _ => false

def standing : List Record → List Record
  | [] => []
  | top :: below => if isLeaving top then below else top :: below

def openMethods (stack : Stack) : List Address :=
  if stack.records.head?.any isLeaving then stack.openFrames.dropLast else stack.openFrames

variable {records below : List Record} {top : Record}

theorem addresses_calls (records : List Record) :
    (calls records).map OpenCall.address = records.filterMap Record.frame? := by
  induction records with
  | nil => rfl
  | cons record below ih =>
      unfold calls
      cases framed : record.frame? with
      | none => simp [framed, ih]
      | some address => simp [framed, ih]

theorem calls_of_entry (place : top.frame? = none) : calls (top :: below) = calls below := by
  simp [calls, place]

theorem calls_of_frame {address : Address} (framed : top.frame? = some address) :
    calls (top :: below) = ⟨address, if top.isDependency then below.head?.bind Record.frame?
      else none⟩ :: calls below := by
  simp [calls, framed]

theorem calls_frame (address : Address) (params : List Json) (isDependency : Bool)
    (below : List Record) : calls (Record.frame address params isDependency :: below) =
      ⟨address, if isDependency then below.head?.bind Record.frame? else none⟩ :: calls below := rfl

theorem calls_push (top : Record) (operation : Operation) (below : List Record) :
    calls (top.push operation :: below) = calls (top :: below) := by
  simp only [calls, Record.frame?_push]
  rfl

theorem not_isLeaving (idle : top.operations = []) : isLeaving top = false := by
  simp [isLeaving, idle]

theorem Idle.standing (idle : Idle records) : standing records = records := by
  cases records with
  | nil => rfl
  | cons top below =>
      simp [Stack.standing, not_isLeaving (idle.idle top (List.mem_cons_self ..))]

theorem Shape.addresses_standing {stack : Stack} (shape : Shape stack.records) :
    ((calls (Stack.standing stack.records)).map OpenCall.address).reverse = stack.openMethods := by
  rw [addresses_calls, openMethods, openFrames, List.filterMap_reverse]
  generalize stack.records = records at shape
  cases shape with
  | @entry top place pending =>
      rcases pending with nothing | params <;>
        simp [Stack.standing, isLeaving, *]
  | @frame top below place pending idle shape =>
      obtain ⟨address, framed⟩ := Option.isSome_iff_exists.1 place
      by_cases leaving : isLeaving top = true
      · simp [Stack.standing, leaving, framed]
      · simp [Stack.standing, leaving]

end Stack

namespace Flow

open Stack (Shape Idle Parked calls standing isLeaving)

variable {σ : Type} {flow taken after : Flow σ} {heap : Heap} {tick : Tick} {outcome : Outcome σ}
  {records : List Record} {trace block : List Traffic}

/-! ## Steps -/

/-- What a step may emit with these records on the stack, and the records that it leaves. -/
inductive Emits : List Record → List Traffic → List Record → Prop
  | silent (records : List Record) : Emits records [] records
  | enter {top : Record} {below : List Record} (place : top.frame? = none) (address : Address)
      (params : List Json) : Emits (top :: below) [.load address params]
        (Record.frame address params top.isDependency :: top :: below)
  | call {top : Record} {below : List Record} {source : Address} (framed : top.frame? = some source)
      (address : Address) (params : List Json) (isDependency : Bool) :
      Emits (top :: below) [.call source address params isDependency, .load address params]
        (Record.frame address params isDependency :: top :: below)
  | log {top : Record} {below : List Record} {address : Address}
      (framed : top.frame? = some address) (entries : List Json) :
      Emits (top :: below) [.log address entries] (top :: below)
  | halt {top : Record} {below : List Record} {address : Address}
      (framed : top.frame? = some address) (covered total : Nat) :
      Emits (top :: below) [.halt address covered total] (top :: below)
  | leave {top caller : Record} {below : List Record} {address : Address}
      (framed : top.frame? = some address)
      (unused : top.isDependency = false ∨ caller.frame? = none) (value : Json) :
      Emits (top :: caller :: below) [.unload address value]
        (top.leave value :: caller :: below)
  | resolve {top caller : Record} {below : List Record} {address target : Address}
      (framed : top.frame? = some address) (used : top.isDependency = true)
      (framed' : caller.frame? = some target) (value : Json) :
      Emits (top :: caller :: below)
        [.unload address value, .resolveDependency address target value]
        (top.leave value :: caller :: below)

def Emitted (records : List Record) (after : Flow σ) : Except EngineError (Outcome σ) → Prop
  | .error _ => after.stack.records = records
  | .ok outcome =>
    Emits records (outcome.responses.map Response.traffic) after.stack.records ∧
      match outcome.boundary with
      | none | some .halt => True
      | some (.await _ _) => Parked after.stack.records
      | some (.complete _ _) => outcome.responses = [] ∧ calls records = []

theorem calls_takeInput {input : Input} {popped : Option Address} (shape : Shape flow.stack.records)
    (took : flow.takeInput = .ok (input, popped, taken)) :
    calls taken.stack.records = calls (standing flow.stack.records) := by
  unfold takeInput at took
  generalize stacked : flow.stack.records = records at shape took
  cases shape with
  | @entry top place pending =>
      rcases pending with nothing | params
      · simp only [nothing] at took
        obtain ⟨-, -, rfl⟩ := by simpa using Except.ok.inj took
        simp [stacked, standing, Stack.not_isLeaving nothing]
      · simp only [params] at took
        obtain ⟨-, -, rfl⟩ := by simpa using Except.ok.inj took
        simp [standing, isLeaving, params, calls, Record.frame?]
  | @frame top below place pending idle shape =>
      rcases pending with nothing | ⟨value, given⟩ | returned
      · simp only [nothing] at took
        obtain ⟨-, -, rfl⟩ := by simpa using Except.ok.inj took
        simp [stacked, standing, Stack.not_isLeaving nothing]
      · simp only [given] at took
        obtain ⟨-, -, rfl⟩ := by simpa using Except.ok.inj took
        simp [standing, isLeaving, given, calls, Record.frame?]
      · simp only [returned] at took
        obtain ⟨-, -, rfl⟩ := by simpa using Except.ok.inj took
        simp [standing, isLeaving, returned]

theorem emitted_framed {top : Record} {below : List Record}
    (stacked : flow.stack.records = top :: below) (address : Address) (command : String)
    {answer : Except EngineError (Outcome σ)}
    (emitted : top.frame? = some address → flow.Emitted flow.stack.records answer) :
    flow.Emitted flow.stack.records (do flow.expectFrame address command; answer) := by
  cases accepted : flow.expectFrame address command with
  | error e => rfl
  | ok => exact emitted (expectFrame_ok stacked accepted)

theorem emitted_load {top : Record} {below : List Record}
    (stacked : flow.stack.records = top :: below) (heap : Heap) (address : Address)
    (params : List Json) (isDependency : Bool) (tick : Tick) :
    match flow.load heap address params isDependency tick with
    | .ok (outcome, after, _) => after.Emitted flow.stack.records (.ok outcome)
    | .error _ => True := by
  rw [load_eq stacked, stacked]
  by_cases missing : (heap.get? address.object).isNone = true
  · rw [if_pos missing]
    trivial
  · rw [if_neg missing]
    cases framed : top.frame? with
    | none => exact ⟨.enter framed address params, trivial⟩
    | some source => exact ⟨.call framed address params isDependency, trivial⟩

theorem emitted_unload (idle : Idle flow.stack.records) (address : Address) (value : Json)
    (tick : Tick) :
    (flow.unload address value tick).2.Emitted flow.stack.records
      (flow.unload address value tick).1 := by
  obtain ⟨e, -, refused⟩ | ⟨top, caller, below, stacked, framed, shape⟩ :=
    unload_cases idle address value tick
  · rw [refused]
    rfl
  · rw [unload_eq stacked framed, stacked]
    refine ⟨?_, trivial⟩
    by_cases used : top.isDependency = true
    · rw [if_pos used]
      cases framed' : caller.frame? with
      | none => exact .leave framed (.inr framed') value
      | some target => exact .resolve framed used framed' value
    · rw [if_neg used]
      exact .leave framed (.inl (by simpa using used)) value

theorem emitted_perform (flow : Flow σ) (idle : Idle flow.stack.records) (heap : Heap)
    (command : Command σ) (tick : Tick) :
    (flow.perform heap command tick).2.1.Emitted flow.stack.records
      (flow.perform heap command tick).1 := by
  obtain ⟨top, below, stacked⟩ := idle.shape.exists_cons
  unfold perform
  cases kind : command.action with
  | load params isDependency =>
      have loaded := emitted_load stacked heap command.address params isDependency tick
      simp only
      split
      next same => rwa [same] at loaded
      next => rfl
  | log entries =>
      refine emitted_framed stacked command.address "LOG" fun framed => ⟨?_, trivial⟩
      rw [stacked]
      exact .log framed entries
  | halt covered total =>
      refine emitted_framed stacked command.address "HALT" fun framed => ?_
      split
      · rfl
      · refine ⟨?_, trivial⟩
        rw [stacked]
        exact .halt framed covered total
  | await request =>
      refine emitted_framed stacked command.address "AWAIT_FLOW" fun framed => ⟨.silent _, ?_⟩
      exact ⟨idle, top, below, stacked, by simp [framed]⟩
  | unload value => exact emitted_unload idle command.address value tick

theorem emitted_finish (flow : Flow σ) (idle : Idle flow.stack.records) (value : Json)
    (popped : Option Address) :
    flow.Emitted flow.stack.records (flow.finish value popped) := by
  unfold finish
  cases popped with
  | none => rfl
  | some last =>
      simp only
      split
      · rfl
      next closed =>
        refine ⟨.silent _, rfl, ?_⟩
        -- A frame never lies at the bottom, so that a single record is the one of the spawner.
        have shape := idle.shape
        unfold Stack.size at closed
        generalize flow.stack.records = records at shape closed
        cases shape with
        | entry place => exact Stack.calls_of_entry place
        | frame place pending idle shape =>
            obtain ⟨caller, callers, rfl⟩ := shape.exists_cons
            simp at closed

theorem step_emitted [Coroutine σ] (shape : Shape flow.stack.records) (heap : Heap) (tick : Tick) :
    ∃ records, Idle records ∧ calls records = calls (standing flow.stack.records) ∧
      (flow.step heap tick).flow.Emitted records (flow.step heap tick).result := by
  obtain ⟨input, popped, records, taken, idle, -⟩ := takeInput_spec shape
  refine ⟨records, idle, calls_takeInput shape taken, ?_⟩
  unfold step
  rw [taken]
  simp only
  split
  · rfl
  next value done =>
    exact emitted_finish (flow.stepped records (Coroutine.resume flow.coroutine input).2) idle value
      popped
  next command issued =>
    exact emitted_perform (flow.stepped records (Coroutine.resume flow.coroutine input).2) idle heap
      command tick

/-! ## Brackets -/

theorem Emits.shape {later : List Record} (emits : Emits records block later)
    (idle : Idle records) : Shape later := by
  have left {top caller : Record} {below : List Record} {address : Address}
      (idle : Idle (top :: caller :: below)) (framed : top.frame? = some address) (value : Json) :
      Shape (top.leave value :: caller :: below) := by
    cases idle.shape with
    | frame place pending idleBelow shape =>
        refine .frame place (.inr (.inr ?_)) idleBelow shape
        simp [Record.leave, Record.push, idle.idle top (List.mem_cons_self ..)]
  cases emits with
  | silent => exact idle.shape
  | enter => exact idle.push rfl rfl
  | call => exact idle.push rfl rfl
  | log => exact idle.shape
  | halt => exact idle.shape
  | leave framed unused value => exact left idle framed value
  | resolve framed used framed' value => exact left idle framed value

structure Bracketed (trace : List Traffic) (records : List Record) : Prop where
  well : WellBracketed trace
  nesting : Nesting.of trace = { calls := calls records }

theorem Bracketed.openCalls (bracketed : Bracketed trace records) :
    openCalls trace = calls records := by
  rw [Cadence.openCalls, bracketed.nesting]

theorem Bracketed.head {top : Record} {below : List Record} {address : Address}
    (bracketed : Bracketed trace (top :: below)) (framed : top.frame? = some address) :
    (Cadence.openCalls trace).head? = some ⟨address, if top.isDependency then
      below.head?.bind Record.frame? else none⟩ := by
  rw [bracketed.openCalls, Stack.calls_of_frame framed]
  rfl

theorem Bracketed.innermost {top : Record} {below : List Record} {address : Address}
    (bracketed : Bracketed trace (top :: below)) (framed : top.frame? = some address) :
    innermost? trace = some address := by
  rw [innermost?, bracketed.head framed]
  rfl

theorem standing_frame (address : Address) (params : List Json) (isDependency : Bool)
    (below : List Record) : standing (Record.frame address params isDependency :: below) =
      Record.frame address params isDependency :: below := rfl

theorem standing_leave (top : Record) (value : Json) (below : List Record) :
    standing (top.leave value :: below) = below := by
  simp [standing, isLeaving, Record.leave, Record.push]

theorem Bracketed.emits {later : List Record} (bracketed : Bracketed trace records)
    (idle : Idle records) (emits : Emits records block later) :
    Bracketed (trace ++ block) (standing later) := by
  cases emits with
  | silent =>
      rw [List.append_nil, idle.standing]
      exact bracketed
  | enter place address params =>
      refine ⟨bracketed.well.append ⟨trivial, trivial⟩ (by simp), ?_⟩
      rw [Nesting.of_append, bracketed.nesting, standing_frame, Stack.calls_frame]
      simp [Nesting.next, place]
  | @call top below source framed address params isDependency =>
      have innermost := bracketed.innermost framed
      have placed :
          Placed trace [.call source address params isDependency, .load address params] := by
        cases isDependency <;> exact ⟨⟨innermost, rfl⟩, trivial, trivial⟩
      refine ⟨bracketed.well.append placed (by cases isDependency <;> simp [Traffic.call]), ?_⟩
      rw [Nesting.of_append, bracketed.nesting, standing_frame, Stack.calls_frame]
      cases isDependency <;> simp [Nesting.next, Traffic.call, framed]
  | log framed entries =>
      refine ⟨bracketed.well.append ⟨bracketed.innermost framed, trivial⟩ (by simp), ?_⟩
      rw [Nesting.of_append, bracketed.nesting, idle.standing]
      rfl
  | halt framed covered total =>
      refine ⟨bracketed.well.append ⟨bracketed.innermost framed, trivial⟩ (by simp), ?_⟩
      rw [Nesting.of_append, bracketed.nesting, idle.standing]
      rfl
  | @leave top caller below address framed unused value =>
      -- Nobody consumes the value, and indeed no edge back follows.
      have head := bracketed.head framed
      have nobody : (if top.isDependency = true then (caller :: below).head?.bind Record.frame?
          else none) = none := by
        rcases unused with unused | unused <;> simp [unused]
      rw [nobody] at head
      have placed : Placed trace [.unload address value] := ⟨⟨none, head, by simp⟩, trivial⟩
      refine ⟨bracketed.well.append placed (by simp), ?_⟩
      rw [Nesting.of_append, bracketed.nesting, standing_leave, Stack.calls_of_frame framed]
      rfl
  | @resolve top caller below address target framed used framed' value =>
      have head := bracketed.head framed
      have consumer : (if top.isDependency = true then (caller :: below).head?.bind Record.frame?
          else none) = some target := by
        simp [used, framed']
      rw [consumer] at head
      have placed : Placed trace [.unload address value, .resolveDependency address target value] :=
        ⟨⟨some target, head, fun other => by simp⟩, ⟨trace, rfl, head⟩, trivial⟩
      refine ⟨bracketed.well.append placed (by simp), ?_⟩
      rw [Nesting.of_append, bracketed.nesting, standing_leave, Stack.calls_of_frame framed]
      rfl

/-! ## Courses -/

def waits (outcome : Outcome σ) : Bool :=
  match outcome.boundary with
  | some (.await _ _) => true
  | _ => false

variable [Coroutine σ]

/--
Any steps of a flow, on any heaps, with the traffic of those that succeeded. While the flow waits it
is not stepped, until a value is given to it.
-/
inductive Course : Flow σ → List Traffic → Bool → Prop
  | created {table : FlowTable σ} {recipe : Recipe σ} {caller : Option Address}
      {isDependency : Bool} {tick : Tick} {flow : Flow σ}
      (made : (table.create recipe caller isDependency tick).2.active?
        (table.create recipe caller isDependency tick).1 = some flow) : Course flow [] false
  | stepped {flow : Flow σ} {trace : List Traffic} {outcome : Outcome σ}
      (course : Course flow trace false) (heap : Heap) (tick : Tick)
      (done : (flow.step heap tick).result = .ok outcome) :
      Course (flow.step heap tick).flow (trace ++ outcome.responses.map Response.traffic)
        (waits outcome)
  | failed {flow : Flow σ} {trace : List Traffic} {e : EngineError}
      (course : Course flow trace false) (heap : Heap) (tick : Tick)
      (broken : (flow.step heap tick).result = .error e) :
      Course (flow.step heap tick).flow trace false
  | resumed {flow after : Flow σ} {trace : List Traffic} {table later : FlowTable σ} {id : FlowId}
      {wait : Wait} {value : Json} {released : List Released} {tick : Tick}
      (course : Course flow trace true) (suspended : table.suspended? id = some (flow, wait))
      (done : FlowTable.resume id wait value released tick table = .ok () later)
      (active : later.active? id = some after) : Course after trace false

structure InCourse (flow : Flow σ) (trace : List Traffic) (waiting : Bool) : Prop where
  shape : Shape flow.stack.records
  bracketed : Bracketed trace (standing flow.stack.records)
  parked : waiting = true → Parked flow.stack.records

omit [Coroutine σ] in
theorem inCourse_ofRecipe (id : FlowId) (recipe : Recipe σ) (caller : Option Address)
    (isDependency : Bool) (tick : Tick) :
    InCourse (ofRecipe id recipe caller isDependency tick) [] false where
  shape := .entry rfl (.inr rfl)
  bracketed := ⟨fun past event rest split => by simp at split, rfl⟩
  parked waiting := by cases waiting

theorem InCourse.step (known : InCourse flow trace false) (heap : Heap) (tick : Tick) :
    match (flow.step heap tick).result with
    | .ok outcome => InCourse (flow.step heap tick).flow
        (trace ++ outcome.responses.map Response.traffic) (waits outcome)
    | .error _ => InCourse (flow.step heap tick).flow trace false := by
  obtain ⟨records, idle, same, emitted⟩ := step_emitted known.shape heap tick
  have before : Bracketed trace records :=
    ⟨known.bracketed.well, by rw [same]; exact known.bracketed.nesting⟩
  cases result : (flow.step heap tick).result with
  | error e =>
      rw [result] at emitted
      have emitted : (flow.step heap tick).flow.stack.records = records := emitted
      refine ⟨emitted ▸ idle.shape, ?_, by simp⟩
      rw [emitted, idle.standing]
      exact before
  | ok outcome =>
      rw [result] at emitted
      obtain ⟨emits, reached⟩ := emitted
      refine ⟨emits.shape idle, before.emits idle emits, fun waiting => ?_⟩
      unfold waits at waiting
      split at waiting
      next request caller boundary => simpa only [boundary] using reached
      next => cases waiting

omit [Coroutine σ] in
theorem InCourse.resume {table later : FlowTable σ} {id : FlowId} {wait wait' : Wait} {value : Json}
    {released : List Released} (known : InCourse flow trace true)
    (suspended : table.suspended? id = some (flow, wait'))
    (done : FlowTable.resume id wait value released tick table = .ok () later)
    (active : later.active? id = some after) : InCourse after trace false := by
  obtain ⟨flow', wait'', stack, found, pushed, rfl⟩ := FlowTable.resume_ok done
  rw [FlowTable.suspended?_eq_some] at suspended
  obtain ⟨rfl, rfl⟩ := Phase.suspended.inj (Option.some.inj (suspended.symm.trans found))
  rw [FlowTable.active?_eq_some, FlowTable.find?_put_self found] at active
  obtain rfl := Phase.active.inj (Option.some.inj active)
  obtain ⟨top, below, stacked, rfl⟩ := Stack.modify_top_ok pushed
  have parked := known.parked rfl
  have bracketed := known.bracketed
  rw [parked.toIdle.standing, stacked] at bracketed
  rw [stacked] at parked
  refine ⟨parked.resume value, ?_, by simp⟩
  -- The frame on top stays open, since what is pushed onto it does not pop it.
  have still : standing (top.push (.provideGiven value) :: below) =
      top.push (.provideGiven value) :: below := by
    simp [standing, isLeaving, Record.push, parked.idle top (List.mem_cons_self ..)]
  simp only [resumed, still]
  exact ⟨bracketed.well, bracketed.nesting.trans (by rw [Stack.calls_push])⟩

theorem Course.inCourse {waiting : Bool} (course : Course flow trace waiting) :
    InCourse flow trace waiting := by
  induction course with
  | @created table recipe caller isDependency tick flow made =>
      have last : (table.create recipe caller isDependency tick).1 = table.phases.size + 1 := rfl
      rw [FlowTable.active?_eq_some, FlowTable.find?_create, if_pos last] at made
      obtain rfl := Phase.active.inj (Option.some.inj made)
      exact inCourse_ofRecipe ..
  | stepped course heap tick done ih =>
      have later := ih.step heap tick
      rwa [done] at later
  | failed course heap tick broken ih =>
      have later := ih.step heap tick
      rwa [broken] at later
  | resumed course suspended done active ih => exact ih.resume suspended done active

/--
The traffic of a flow is well bracketed, its open calls are the methods that are open on the stack,
and a coroutine that completes leaves none of them open.
-/
theorem traffic_is_well_bracketed {waiting : Bool} (course : Course flow trace waiting) :
    WellBracketed trace ∧
      ((openCalls trace).map OpenCall.address).reverse = flow.stack.openMethods ∧
      ∀ heap tick outcome value last, waiting = false →
        (flow.step heap tick).result = .ok outcome →
        outcome.boundary = some (.complete value last) →
          openCalls (trace ++ outcome.responses.map Response.traffic) = [] := by
  have known := course.inCourse
  refine ⟨known.bracketed.well, ?_, fun heap tick outcome value last idle done reached => ?_⟩
  · rw [known.bracketed.openCalls]
    exact known.shape.addresses_standing
  · subst idle
    obtain ⟨records, idle, same, emitted⟩ := step_emitted known.shape heap tick
    rw [done] at emitted
    obtain ⟨-, closed⟩ := emitted
    rw [reached] at closed
    obtain ⟨nothing, closed⟩ := closed
    rw [nothing, List.map_nil, List.append_nil, known.bracketed.openCalls, ← same, closed]

def lending : Recipe Playback :=
  let shop : Address := ⟨"shop", 0⟩
  let stock : Address := ⟨"stock", 1⟩
  Playback.recipe "lending" [] [.load shop [] false, .load stock [.int 2] true,
    .unload stock (.int 7), .await shop .all true [], .unload shop .null]

theorem nested_call_is_well_bracketed : ∃ (flow : Flow Playback) (trace : List Traffic),
    Course flow trace false ∧ WellBracketed trace ∧ flow.stack.openMethods = [] ∧
      trace.map Traffic.label =
        ["LOAD", "CALL_DEPENDENCY", "LOAD", "UNLOAD", "RESOLVE_DEPENDENCY", "UNLOAD"] ∧
      ∃ outcome value last, (flow.step {} 1).result = .ok outcome ∧
        outcome.boundary = some (.complete value last) ∧
        openCalls (trace ++ outcome.responses.map Response.traffic) = [] := by
  let heap : Heap := { objects := [("shop", ⟨"Shop", []⟩), ("stock", ⟨"Stock", []⟩)] }
  let start := (FlowTable.empty (σ := Playback)).create lending none false 0
  have made : Course _ [] false := .created (show start.2.active? start.1 = some _ from rfl)
  have called := ((made.stepped heap 0 rfl).stepped heap 0 rfl).stepped heap 0 rfl
  have waiting := called.stepped heap 0 rfl
  let wait : Wait := ⟨.all, ⟨"shop", 0⟩, true, [], 0⟩
  have resumed := waiting.resumed
    (show FlowTable.suspended? ⟨#[some (.suspended _ wait)], 0⟩ 1 = some (_, wait) from rfl)
    (show FlowTable.resume 1 wait (.arr []) [] 0 _ = .ok () _ from rfl) rfl
  have left := resumed.stepped heap 1 rfl
  obtain ⟨well, methods, balanced⟩ := traffic_is_well_bracketed left
  exact ⟨_, _, left, well, methods.symm.trans rfl, rfl, _, _, _, rfl, rfl,
    balanced {} 1 _ _ _ rfl rfl rfl⟩

end Flow

end Cadence
