import Cadence.Flow.Step
import Cadence.Proofs.Flow.Stack
import Cadence.Proofs.Heap
/-!
What a step does to the call stack, whatever the coroutine answers. The record of the spawner stays
at the bottom, frames lie on top of it, and only the top record has an operation pending. A step
can fail only through a fault of its coroutine.
-/

namespace Cadence

/-- The errors that a coroutine is to blame for, or an object that was never registered. -/
def EngineError.isFault : EngineError → Bool
  | unregisteredInstance _ _ | missingUnload _ | unbalancedStack _ _ | addressMismatch _ _ _ _
  | noLoadedFrame _ _ | invalidAwait _ _ | invalidHalt _ _ _ | coroutine _ _ => true
  | _ => false

@[simp] theorem Traffic.addresses_call (source target : Address) (params : List Json)
    (isDependency : Bool) :
    (Traffic.call source target params isDependency).addresses = [source, target] := by
  cases isDependency <;> rfl

namespace Stack

/-- The records of a flow between two of its steps. -/
inductive Shape : List Record → Prop
  | entry {record : Record} (place : record.frame? = none)
      (pending : record.operations = [] ∨ record.operations = [.provideParams]) : Shape [record]
  | frame {record : Record} {below : List Record} (place : record.frame?.isSome = true)
      (pending : record.operations = [] ∨ (∃ value, record.operations = [.provideGiven value]) ∨
        record.operations = [.provideReturnAndPop])
      (idle : ∀ other ∈ below, other.operations = []) (shape : Shape below) :
      Shape (record :: below)

structure Idle (records : List Record) : Prop where
  shape : Shape records
  idle : ∀ record ∈ records, record.operations = []

structure Parked (records : List Record) : Prop extends Idle records where
  running : ∃ top below, records = top :: below ∧ top.frame?.isSome = true

variable {records below : List Record} {record top : Record}

theorem Shape.exists_cons (shape : Shape records) : ∃ top below, records = top :: below := by
  cases shape <;> exact ⟨_, _, rfl⟩

theorem Shape.ne_nil (shape : Shape records) : records ≠ [] := by
  cases shape <;> simp

theorem Idle.push (idle : Idle records) (place : record.frame?.isSome = true)
    (pending : record.operations = []) : Shape (record :: records) :=
  .frame place (.inl pending) idle.idle idle.shape

theorem Parked.resume (parked : Parked (top :: below)) (value : Json) :
    Shape (top.push (.provideGiven value) :: below) := by
  obtain ⟨⟨shape, idle⟩, top', below', same, framed⟩ := parked
  injection same with sameTop sameBelow
  subst sameTop sameBelow
  cases shape with
  | entry place => simp [place] at framed
  | frame place pending idle' shape =>
      refine .frame place (.inr (.inl ⟨value, ?_⟩)) idle' shape
      simp [Record.push, idle top (List.mem_cons_self ..)]

end Stack

namespace Heap

def Maps (heap : Heap) (records : List Record) : Prop :=
  ∀ record ∈ records, ∀ address, record.address? = some address → heap.hasNode address = true

def Covers (heap : Heap) (responses : List Response) : Prop :=
  ∀ response ∈ responses, ∀ address ∈ response.traffic.addresses, heap.hasNode address = true

variable {heap after : Heap} {records : List Record} {responses : List Response}

theorem Maps.grows (maps : heap.Maps records) (grows : heap.Grows after) : after.Maps records :=
  fun record member address place => grows.nodes address (maps record member address place)

theorem Covers.grows (covers : heap.Covers responses) (grows : heap.Grows after) :
    after.Covers responses :=
  fun response member address touched =>
    grows.nodes address (covers response member address touched)

theorem Covers.append {more : List Response} (covers : heap.Covers responses)
    (covers' : heap.Covers more) : heap.Covers (responses ++ more) := by
  intro response member
  rcases List.mem_append.1 member with member | member
  · exact covers response member
  · exact covers' response member

end Heap

namespace Flow

open Stack (Shape Idle Parked)

variable {σ : Type} {flow : Flow σ} {heap : Heap} {top : Record} {below : List Record}

structure Sound (heap : Heap) (flow : Flow σ) : Prop where
  shape : Shape flow.stack.records
  maps : heap.Maps flow.stack.records

theorem Sound.unresumed (sound : flow.Sound heap) :
    Sound heap { flow with resumption := none } :=
  ⟨sound.shape, sound.maps⟩

def withRecords (flow : Flow σ) (records : List Record) : Flow σ :=
  { flow with stack := { flow.stack with records } }

theorem takeInput_spec (shape : Shape flow.stack.records) :
    ∃ input popped records, flow.takeInput = .ok (input, popped, flow.withRecords records) ∧
      Idle records ∧
      (∀ record ∈ records, ∃ old ∈ flow.stack.records, record.address? = old.address?) ∧
      ∀ address, popped = some address →
        ∃ old ∈ flow.stack.records, old.address? = some address := by
  unfold takeInput
  generalize stacked : flow.stack.records = records at shape
  have same : flow.withRecords records = flow := by rw [← stacked]; rfl
  cases shape with
  | @entry top place pending =>
      rcases pending with nothing | params
      · refine ⟨.proceed, none, [top], by simp only [nothing, same],
          ⟨.entry place (.inl nothing), ?_⟩,
          fun record member => ⟨record, member, rfl⟩, by simp⟩
        simp [nothing]
      · refine ⟨_, none, [{ top with operations := [] }], by simp only [params]; rfl,
          ⟨.entry place (.inl rfl), by simp⟩, ?_, by simp⟩
        simp [Record.address?]
  | @frame top below place pending idle shape =>
      rcases pending with nothing | ⟨value, given⟩ | returned
      · refine ⟨.proceed, none, top :: below, by simp only [nothing, same],
          ⟨.frame place (.inl nothing) idle shape, ?_⟩,
          fun record member => ⟨record, member, rfl⟩, by simp⟩
        simpa [nothing] using idle
      · refine ⟨_, none, { top with operations := [] } :: below, by simp only [given]; rfl,
          ⟨.frame place (.inl rfl) idle shape, by simpa using idle⟩, ?_, by simp⟩
        intro record member
        rcases List.mem_cons.1 member with rfl | member
        · exact ⟨top, by simp, rfl⟩
        · exact ⟨record, List.mem_cons_of_mem _ member, rfl⟩
      · refine ⟨_, top.address?, below, by simp only [returned]; rfl, ⟨shape, idle⟩,
          fun record member => ⟨record, List.mem_cons_of_mem _ member, rfl⟩,
          fun address place => ⟨top, by simp, place⟩⟩

theorem expectFrame_eq (records : flow.stack.records = top :: below) (address : Address)
    (command : String) :
    flow.expectFrame address command =
      match top.frame? with
      | none => .error (.noLoadedFrame flow.id command)
      | some current =>
        if current = address then .ok ()
        else .error (.addressMismatch flow.id command current.location address.location) := by
  unfold expectFrame Stack.peek
  rw [records]
  rfl

theorem expectFrame_of_frame? (records : flow.stack.records = top :: below) {address : Address}
    (framed : top.frame? = some address) (command : String) :
    flow.expectFrame address command = .ok () := by
  simp [expectFrame_eq records, framed]

theorem expectFrame_error (records : flow.stack.records = top :: below) {address : Address}
    {command : String} {e : EngineError} (refused : flow.expectFrame address command = .error e) :
    e.isFault = true := by
  rw [expectFrame_eq records] at refused
  split at refused
  · cases refused; rfl
  · split at refused
    · cases refused
    · cases refused; rfl

theorem expectFrame_ok (records : flow.stack.records = top :: below) {address : Address}
    {command : String} (accepted : flow.expectFrame address command = .ok ()) :
    top.frame? = some address := by
  rw [expectFrame_eq records] at accepted
  split at accepted
  next => cases accepted
  next current framed =>
    split at accepted
    next same => rw [framed, same]
    next => cases accepted

theorem framed_ok {address : Address} {name : String} {answer : Except EngineError (Outcome σ)}
    {outcome : Outcome σ} (done : (do flow.expectFrame address name; answer) = .ok outcome) :
    flow.expectFrame address name = .ok () ∧ answer = .ok outcome := by
  cases accepted : flow.expectFrame address name with
  | error e =>
      rw [accepted] at done
      cases done
  | ok =>
      rw [accepted] at done
      exact ⟨rfl, done⟩

theorem load_eq (records : flow.stack.records = top :: below) (heap : Heap) (address : Address)
    (params : List Json) (isDependency : Bool) (tick : Tick) :
    flow.load heap address params isDependency tick =
      if (heap.get? address.object).isNone then
        .error (.unregisteredInstance flow.id address.object)
      else
        let isDependency := if top.frame?.isSome then isDependency else top.isDependency
        let edge := top.frame?.toList.map fun source =>
          Traffic.call source address params isDependency
        let traffic := edge ++ [Traffic.load address params]
        .ok ({ responses := traffic.map fun traffic => { traffic, tick } },
          flow.withRecords (Record.frame address params isDependency :: top :: below),
          heap.ensureNode address) := by
  simp only [load, Stack.peek, records, List.getElem?_cons_zero, bind, Except.bind]
  cases place : top.place with
  | entry caller =>
      simp only [Record.frame?, place]
      split <;> simp [Stack.push, records, withRecords, Heap.ensureNode, pure, Except.pure]
  | frame source =>
      simp only [Record.frame?, place]
      split <;> simp [Stack.push, records, withRecords, Heap.ensureNode, pure, Except.pure]

theorem unload_eq {caller : Record} {address : Address}
    (records : flow.stack.records = top :: caller :: below) (framed : top.frame? = some address)
    (value : Json) (tick : Tick) :
    flow.unload address value tick =
      (.ok { responses := { traffic := .unload address value, tick } ::
          if top.isDependency then caller.frame?.toList.map fun target =>
            { traffic := .resolveDependency address target value, tick }
          else [] },
        flow.withRecords
          ({ top with returnValue := some value }.push .provideReturnAndPop :: caller :: below)) := by
  simp only [unload, expectFrame_of_frame? records framed, records, withRecords]
  cases top.isDependency <;> rfl

/-- An `unload` is refused, or the top record is a frame with the caller's record below it. -/
theorem unload_cases (idle : Idle flow.stack.records) (address : Address) (value : Json)
    (tick : Tick) :
    (∃ e, flow.expectFrame address "UNLOAD" = .error e ∧
        flow.unload address value tick = (.error e, flow)) ∨
      ∃ top caller below, flow.stack.records = top :: caller :: below ∧
        top.frame? = some address ∧ Shape (caller :: below) := by
  cases accepted : flow.expectFrame address "UNLOAD" with
  | error e => exact .inl ⟨e, rfl, by simp [unload, accepted]⟩
  | ok =>
      have shape := idle.shape
      cases records : flow.stack.records with
      | nil => exact absurd records shape.ne_nil
      | cons top below =>
          have framed := expectFrame_ok records accepted
          rw [records] at shape
          cases shape with
          | entry place => simp [place] at framed
          | frame place pending idle shape =>
              obtain ⟨caller, callers, rfl⟩ := shape.exists_cons
              exact .inr ⟨top, caller, callers, rfl, framed, shape⟩

def Accepts (flow : Flow σ) (heap : Heap) : Except EngineError (Outcome σ) → Prop
  | .error e => e.isFault = true
  | .ok outcome => heap.Covers outcome.responses ∧
    match outcome.boundary with
    | none | some .halt => True
    | some (.await _ caller) => Parked flow.stack.records ∧ heap.hasNode caller = true
    | some (.complete _ last) => ∀ address, last = some address → heap.hasNode address = true

structure Advances (flow : Flow σ) (heap : Heap) (flow' : Flow σ) (heap' : Heap)
    (result : Except EngineError (Outcome σ)) : Prop where
  kept : ∃ records, flow' = flow.withRecords records
  sound : flow'.Sound heap'
  grows : heap.Grows heap'
  accepts : flow'.Accepts heap' result

theorem advances_same (idle : Idle flow.stack.records) (maps : heap.Maps flow.stack.records)
    {result : Except EngineError (Outcome σ)} (accepts : flow.Accepts heap result) :
    flow.Advances heap flow heap result :=
  ⟨⟨_, rfl⟩, ⟨idle.shape, maps⟩, .refl heap, accepts⟩

theorem advances_framed (idle : Idle flow.stack.records) (maps : heap.Maps flow.stack.records)
    (address : Address) (command : String) {answer : Except EngineError (Outcome σ)}
    (accepts : Parked flow.stack.records → heap.hasNode address = true →
      flow.Accepts heap answer) :
    flow.Advances heap flow heap (do flow.expectFrame address command; answer) := by
  obtain ⟨top, below, records⟩ := idle.shape.exists_cons
  refine advances_same idle maps ?_
  cases accepted : flow.expectFrame address command with
  | error e => exact expectFrame_error records accepted
  | ok =>
      have framed := expectFrame_ok records accepted
      refine accepts ⟨idle, top, below, records, by simp [framed]⟩ ?_
      exact maps top (by simp [records]) address (Record.address?_of_frame? framed)

theorem covers_here {address : Address} {traffic : Traffic} (only : traffic.addresses = [address])
    (here : heap.hasNode address = true) (tick : Tick) : heap.Covers [{ traffic, tick }] := by
  intro response member touched place
  obtain rfl : response = { traffic, tick } := by simpa using member
  obtain rfl : touched = address := by simpa [only] using place
  exact here

theorem load_advances (idle : Idle flow.stack.records) (maps : heap.Maps flow.stack.records)
    (address : Address) (params : List Json) (isDependency : Bool) (tick : Tick) :
    match flow.load heap address params isDependency tick with
    | .ok (outcome, flow', heap') => flow.Advances heap flow' heap' (.ok outcome)
    | .error e => e.isFault = true := by
  obtain ⟨top, below, records⟩ := idle.shape.exists_cons
  rw [load_eq records]
  by_cases missing : (heap.get? address.object).isNone = true
  · rw [if_pos missing]
    rfl
  · rw [if_neg missing]
    have grows := heap.grows_ensureNode address
    have here := heap.hasNode_ensureNode address
    refine ⟨⟨_, rfl⟩, ⟨?_, ?_⟩, grows, ⟨?_, trivial⟩⟩
    · rw [records] at idle
      exact idle.push rfl rfl
    · intro record member place same
      rcases List.mem_cons.1 member with rfl | member
      · obtain rfl : address = place := by simpa [Record.frame, Record.address?] using same
        exact here
      · exact grows.nodes place (maps record (records ▸ member) place same)
    · intro response member touched place
      simp only [List.map_append, List.map_map, List.mem_append, List.mem_map,
        Option.mem_toList] at member
      rcases member with ⟨source, framed, rfl⟩ | ⟨traffic, only, rfl⟩
      · have sourceMapped : heap.hasNode source = true :=
          maps top (by simp [records]) source (Record.address?_of_frame? framed)
        have ends : touched = source ∨ touched = address := by
          simpa using place
        rcases ends with rfl | rfl
        · exact grows.nodes _ sourceMapped
        · exact here
      · obtain rfl : traffic = .load address params := by simpa using only
        obtain rfl : touched = address := by simpa [Traffic.addresses] using place
        exact here

theorem unload_advances (idle : Idle flow.stack.records) (maps : heap.Maps flow.stack.records)
    (address : Address) (value : Json) (tick : Tick) :
    flow.Advances heap (flow.unload address value tick).2 heap
      (flow.unload address value tick).1 := by
  obtain ⟨e, refusal, refused⟩ | ⟨top, caller, below, records, framed, shape⟩ :=
    unload_cases idle address value tick
  · obtain ⟨top, below, records⟩ := idle.shape.exists_cons
    rw [refused]
    exact advances_same idle maps (expectFrame_error records refusal)
  · have nothing := idle.idle
    rw [records] at nothing maps
    have here : heap.hasNode address = true :=
      maps top (List.mem_cons_self ..) address (Record.address?_of_frame? framed)
    have place : top.frame?.isSome = true := by simp [framed]
    rw [unload_eq records framed]
    refine ⟨⟨_, rfl⟩, ⟨?_, ?_⟩, .refl heap, ⟨?_, trivial⟩⟩
    · refine .frame place (.inr (.inr ?_)) (List.forall_mem_cons.1 nothing).2 shape
      simp [Record.push, nothing top (List.mem_cons_self ..)]
    · intro record member other same
      rcases List.mem_cons.1 member with rfl | member
      · exact maps top (List.mem_cons_self ..) other same
      · exact maps record (List.mem_cons_of_mem _ member) other same
    · intro response member touched place
      rcases List.mem_cons.1 member with rfl | member
      · obtain rfl : touched = address := by simpa [Traffic.addresses] using place
        exact here
      · obtain ⟨target, framed', rfl⟩ : ∃ target, caller.frame? = some target ∧
            { traffic := .resolveDependency address target value, tick } = response := by
          split at member
          · simpa using member
          · simp at member
        have ends : touched = address ∨ touched = target := by
          simpa [Traffic.addresses] using place
        rcases ends with rfl | rfl
        · exact here
        · exact maps caller (by simp) touched (Record.address?_of_frame? framed')

theorem perform_advances (flow : Flow σ) (idle : Idle flow.stack.records)
    (maps : heap.Maps flow.stack.records) (command : Command σ) (tick : Tick) :
    flow.Advances heap (flow.perform heap command tick).2.1 (flow.perform heap command tick).2.2
      (flow.perform heap command tick).1 := by
  obtain ⟨top, below, records⟩ := idle.shape.exists_cons
  unfold perform
  cases kind : command.action with
  | load params isDependency =>
      have loaded := load_advances idle maps command.address params isDependency tick
      simp only
      split
      next same => rwa [same] at loaded
      next e same =>
        rw [same] at loaded
        exact advances_same idle maps loaded
  | log entries =>
      refine advances_framed idle maps command.address "LOG" fun _ here => ?_
      exact ⟨covers_here rfl here tick, trivial⟩
  | halt covered total =>
      refine advances_framed idle maps command.address "HALT" fun _ here => ?_
      split
      · rfl
      · exact ⟨covers_here rfl here tick, trivial⟩
  | await request =>
      refine advances_framed idle maps command.address "AWAIT_FLOW" fun parked here => ?_
      exact ⟨by simp [Heap.Covers], parked, here⟩
  | unload value => exact unload_advances idle maps command.address value tick

theorem finish_accepts (flow : Flow σ) (value : Json) {popped : Option Address}
    (mapped : ∀ address, popped = some address → heap.hasNode address = true) :
    flow.Accepts heap (flow.finish value popped) := by
  unfold finish
  split
  next => rfl
  next last =>
    simp only
    split
    · rfl
    · exact ⟨by simp [Heap.Covers], mapped⟩

def stepped (flow : Flow σ) (records : List Record) (coroutine : σ) : Flow σ :=
  { flow.withRecords records with coroutine, stepsTaken := flow.stepsTaken + 1 }

structure Asks [Coroutine σ] (flow : Flow σ) (stepped : Stepped σ) (input : Input) : Prop where
  taken : ∃ popped taken, flow.takeInput = .ok (input, popped, taken)
  kept : ∃ records, stepped.flow = flow.stepped records (Coroutine.resume flow.coroutine input).2
  exchange : stepped.exchange = some
    ⟨flow.id, flow.coroutine, input, (Coroutine.resume flow.coroutine input).1⟩

theorem step_advances [Coroutine σ] (sound : flow.Sound heap) (tick : Tick) :
    (∃ input, flow.Asks (flow.step heap tick) input) ∧
      (flow.step heap tick).flow.Sound (flow.step heap tick).heap ∧
      heap.Grows (flow.step heap tick).heap ∧
      (flow.step heap tick).flow.Accepts (flow.step heap tick).heap
        (flow.step heap tick).result := by
  obtain ⟨input, popped, records, taken, idle, from_old, popped_old⟩ := takeInput_spec sound.shape
  have maps : heap.Maps records := by
    intro record member address place
    obtain ⟨old, known, same⟩ := from_old record member
    exact sound.maps old known address (same ▸ place)
  have mapped : ∀ address, popped = some address → heap.hasNode address = true := by
    intro address place
    obtain ⟨old, known, same⟩ := popped_old address place
    exact sound.maps old known address same
  unfold step
  rw [taken]
  simp only
  split
  next message failed =>
    exact ⟨⟨input, ⟨_, _, taken⟩, ⟨records, rfl⟩, rfl⟩, ⟨idle.shape, maps⟩,
      .refl heap, rfl⟩
  next value done =>
    exact ⟨⟨input, ⟨_, _, taken⟩, ⟨records, rfl⟩, rfl⟩, ⟨idle.shape, maps⟩,
      .refl heap, finish_accepts _ value mapped⟩
  next command issued =>
    obtain ⟨⟨records', kept⟩, sound', grows, accepts⟩ :=
      perform_advances (flow.stepped records (Coroutine.resume flow.coroutine input).2) idle maps
        command tick
    exact ⟨⟨input, ⟨_, _, taken⟩, ⟨records', kept⟩, rfl⟩, sound', grows, accepts⟩

end Flow

end Cadence
