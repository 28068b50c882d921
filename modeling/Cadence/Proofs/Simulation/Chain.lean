import Cadence.Proofs.Simulation.Idle
import Cadence.Proofs.Simulation.Reach
/-!
Chains of awaits. Each flow of a chain waits for the next one, down to the last. It takes one round
to go down each level and one to come back up, so that the rounds a chain needs can be counted.
-/

namespace Cadence

open Engine Stage

variable {σ : Type} [Coroutine σ]

def Leaves (address : Address) (state : σ) (input : Input) : Prop :=
  ∃ value left result last,
    Coroutine.resume state input = (.ok (.yielded ⟨address, .unload value⟩), left) ∧
      Coroutine.resume left (.returned value) = (.ok (.complete result), last)

/-- The recipe loads a registered object, waits for the next recipe, if there is one, and leaves. -/
inductive Link (heap : Heap) (recipe : Recipe σ) : Option (Recipe σ) → Prop
  | last {address : Address} {params : List Json} {isDependency : Bool} {entered : σ}
      (registered : (heap.get? address.object).isSome = true)
      (loads : Coroutine.resume recipe.start (.params recipe.args) =
        (.ok (.yielded ⟨address, .load params isDependency⟩), entered))
      (leaves : Leaves address entered .proceed) : Link heap recipe none
  | next {address : Address} {params : List Json} {isDependency consumes : Bool}
      {entered waits : σ} {next : Recipe σ}
      (registered : (heap.get? address.object).isSome = true)
      (loads : Coroutine.resume recipe.start (.params recipe.args) =
        (.ok (.yielded ⟨address, .load params isDependency⟩), entered))
      (awaits : Coroutine.resume entered .proceed =
        (.ok (.yielded ⟨address, .await ⟨.single, consumes, [next]⟩⟩), waits))
      (leaves : ∀ value, Leaves address waits (.given value)) : Link heap recipe (some next)

def Chain (heap : Heap) (levels : Nat → Recipe σ) (last? : Option Nat) : Prop :=
  ∀ n, (∀ last, last? = some last → n ≤ last) →
    Link heap (levels n) (if last? = some n then none else some (levels (n + 1)))

variable {heap memory : Heap} {recipe next : Recipe σ} {next? : Option (Recipe σ)}

theorem Link.grows (link : Link heap recipe next?) (grows : heap.Grows memory) :
    Link memory recipe next? := by
  cases link with
  | last registered loads leaves => exact .last (grows.objects _ registered) loads leaves
  | next registered loads awaits leaves =>
      exact .next (grows.objects _ registered) loads awaits leaves

namespace Flow

variable {flow : Flow σ} {top bottom : Record} {below : List Record} {address : Address}
  {input : Input} {popped : Option Address}

theorem step_yielded (heap : Heap) (tick : Tick) {records : List Record} {command : Command σ}
    {state : σ}
    (taken : flow.takeInput = .ok (input, popped, flow.withRecords records))
    (answer : Coroutine.resume flow.coroutine input = (.ok (.yielded command), state)) :
    ∃ exchange, flow.step heap tick =
      ⟨((flow.stepped records state).perform heap command tick).2.1,
        ((flow.stepped records state).perform heap command tick).2.2, exchange,
        ((flow.stepped records state).perform heap command tick).1⟩ := by
  refine ⟨some ⟨flow.id, flow.coroutine, input, .ok (.yielded command)⟩, ?_⟩
  unfold step
  rw [taken]
  simp only [withRecords, answer]
  rfl

theorem step_load (flow : Flow σ) (tick : Tick) {params : List Json} {isDependency : Bool}
    {state : σ}
    (records : flow.stack.records = [top]) (entry : top.frame? = none)
    (due : top.operations = [.provideParams])
    (registered : (heap.get? address.object).isSome = true)
    (loads : Coroutine.resume flow.coroutine (.params top.params) =
      (.ok (.yielded ⟨address, .load params isDependency⟩), state)) :
    ∃ exchange outcome, flow.step heap tick =
        ⟨flow.stepped [Record.frame address params top.isDependency, { top with operations := [] }]
          state, heap.ensureNode address, exchange, .ok outcome⟩ ∧
      outcome.boundary = none := by
  have taken : flow.takeInput =
      .ok (.params top.params, none, flow.withRecords [{ top with operations := [] }]) := by
    unfold takeInput
    simp only [records, due, withRecords]
  obtain ⟨exchange, stepped⟩ := step_yielded heap tick taken loads
  have entry' : ({ top with operations := [] } : Record).frame? = none := entry
  have known : (heap.get? address.object).isNone = false := by
    rw [Option.isNone_eq_false_iff, registered]
  have written : (flow.stepped [{ top with operations := [] }] state).stack.records =
      [{ top with operations := [] }] := rfl
  have loaded := load_eq written heap address params isDependency tick
  simp only [known, Bool.false_eq_true, if_false, entry', Option.isSome_none] at loaded
  simp only [perform, loaded] at stepped
  exact ⟨exchange, _, stepped, rfl⟩

theorem step_await (flow : Flow σ) (heap : Heap) (tick : Tick) {request : Request σ} {state : σ}
    (records : flow.stack.records = top :: below)
    (framed : top.frame? = some address) (idle : top.operations = [])
    (awaits : Coroutine.resume flow.coroutine .proceed =
      (.ok (.yielded ⟨address, .await request⟩), state)) :
    ∃ exchange outcome, flow.step heap tick =
        ⟨flow.stepped (top :: below) state, heap, exchange, .ok outcome⟩ ∧
      outcome.boundary = some (.await request address) := by
  have taken : flow.takeInput = .ok (.proceed, none, flow.withRecords (top :: below)) := by
    unfold takeInput
    simp only [records, idle]
    rw [← records]
    rfl
  obtain ⟨exchange, stepped⟩ := step_yielded heap tick taken awaits
  have written : (flow.stepped (top :: below) state).stack.records = top :: below := rfl
  have here := expectFrame_of_frame? written framed "AWAIT_FLOW"
  simp only [perform, await, here] at stepped
  exact ⟨exchange, _, stepped, rfl⟩

theorem step_unload (heap : Heap) (tick : Tick) {value : Json} {state : σ}
    (taken : flow.takeInput = .ok (input, popped, flow.withRecords (top :: bottom :: below)))
    (framed : top.frame? = some address)
    (unloads : Coroutine.resume flow.coroutine input =
      (.ok (.yielded ⟨address, .unload value⟩), state)) :
    ∃ exchange outcome, flow.step heap tick =
        ⟨flow.stepped ({ top with returnValue := some value }.push .provideReturnAndPop ::
          bottom :: below) state, heap, exchange, .ok outcome⟩ ∧
      outcome.boundary = none := by
  obtain ⟨exchange, stepped⟩ := step_yielded heap tick taken unloads
  have written : (flow.stepped (top :: bottom :: below) state).stack.records =
      top :: bottom :: below := rfl
  have unloaded := unload_eq written framed value tick
  simp only [perform, unloaded] at stepped
  exact ⟨exchange, _, stepped, rfl⟩

theorem step_complete (flow : Flow σ) (heap : Heap) (tick : Tick) {value result : Json}
    {state : σ} (records : flow.stack.records = [top, bottom]) (framed : top.frame? = some address)
    (due : top.operations = [.provideReturnAndPop]) (left : top.returnValue = some value)
    (completes : Coroutine.resume flow.coroutine (.returned value) = (.ok (.complete result), state)) :
    ∃ exchange outcome, flow.step heap tick =
        ⟨flow.stepped [bottom] state, heap, exchange, .ok outcome⟩ ∧
      outcome.boundary = some (.complete result (some address)) := by
  have taken : flow.takeInput =
      .ok (.returned value, some address, flow.withRecords [bottom]) := by
    unfold takeInput
    simp only [records, due, left, Option.getD_some, Record.address?_of_frame? framed, withRecords]
  refine ⟨some ⟨flow.id, flow.coroutine, .returned value, .ok (.complete result)⟩,
    ⟨[], some (.complete result (some address))⟩, ?_, rfl⟩
  unfold step
  rw [taken]
  simp only [withRecords, completes, finish, Stack.size, List.length_singleton, Nat.sub_self,
    Nat.lt_irrefl, if_false]
  rfl

end Flow

open Cadence.Flow

variable {flow : Flow σ} {top bottom : Record} {address : Address} {tick : Tick} {id : Nat}

theorem reaches_completion (flow : Flow σ) (heap : Heap) (tick : Tick) {input : Input}
    {popped : Option Address}
    (taken : flow.takeInput = .ok (input, popped, flow.withRecords [top, bottom]))
    (framed : top.frame? = some address) (idle : top.operations = [])
    (leaves : Leaves address flow.coroutine input) :
    ∃ value later, Reaches tick 2 flow heap (.complete value (some address)) later heap ∧
      later.id = flow.id := by
  obtain ⟨value, left, result, last, unloads, completes⟩ := leaves
  obtain ⟨exchange, outcome, stepped, running⟩ :=
    step_unload heap tick taken framed unloads
  let gone : Record := { top with returnValue := some value }.push .provideReturnAndPop
  have due : gone.operations = [.provideReturnAndPop] := by simp [gone, Record.push, idle]
  obtain ⟨exchange', outcome', stepped', reached⟩ :=
    step_complete (flow.stepped [gone, bottom] left) heap tick rfl framed due rfl completes
  refine ⟨result, _, .more stepped running (List.cons_ne_nil _ _)
    (.last stepped' reached (List.cons_ne_nil _ _)), rfl⟩

structure Rests (id : FlowId) (flow : Flow σ) : Prop where
  named : flow.id = id
  activation : flow.activation = 0
  leaves : ∃ top bottom address, flow.stack.records = [top, bottom] ∧ top.frame? = some address ∧
    top.operations = [] ∧ ∀ value, Leaves address flow.coroutine (.given value)

def Recalled (id : FlowId) (flow : Flow σ) : Prop :=
  ∃ old stack value resumption, Rests id old ∧
    old.stack.modify 0 (·.push (.provideGiven value)) = .ok stack ∧ flow = old.resumed stack resumption

def entered (id : FlowId) (recipe : Recipe σ) (caller : Option Address) (isDependency : Bool)
    (born : Tick) (address : Address) (params : List Json) (state : σ) : Flow σ :=
  (ofRecipe id recipe caller isDependency born).stepped [Record.frame address params isDependency,
    { Record.entry caller recipe.args isDependency with operations := [] }] state

theorem reaches_last (id : FlowId) (caller : Option Address) (isDependency : Bool) (born tick : Tick)
    (link : Link heap recipe none) :
    ∃ value address later memory,
      Reaches tick 3 (ofRecipe id recipe caller isDependency born) heap
        (.complete value (some address)) later memory ∧
      later.id = id ∧ heap.Grows memory := by
  cases link with
  | @last address params _ state registered loads leaves =>
      obtain ⟨exchange, outcome, stepped, running⟩ :=
        step_load (ofRecipe id recipe caller isDependency born) tick rfl rfl rfl registered loads
      obtain ⟨value, later, reaches, named⟩ := reaches_completion
        (entered id recipe caller isDependency born address params state) (heap.ensureNode address)
        tick rfl rfl rfl leaves
      exact ⟨value, address, later, _, .more stepped running (List.cons_ne_nil _ _) reaches, named,
        heap.grows_ensureNode address⟩

theorem reaches_next (id : FlowId) (caller : Option Address) (isDependency : Bool) (born tick : Tick)
    (link : Link heap recipe (some next)) :
    ∃ consumes address later memory,
      Reaches tick 2 (ofRecipe id recipe caller isDependency born) heap
        (.await ⟨.single, consumes, [next]⟩ address) later memory ∧
      Rests id later ∧ heap.Grows memory := by
  cases link with
  | @next address params _ consumes state waits next registered loads awaits leaves =>
      obtain ⟨exchange, outcome, stepped, running⟩ :=
        step_load (ofRecipe id recipe caller isDependency born) tick rfl rfl rfl registered loads
      obtain ⟨exchange', outcome', stepped', reached⟩ := step_await
        (entered id recipe caller isDependency born address params state) (heap.ensureNode address)
        tick rfl rfl rfl awaits
      refine ⟨consumes, address, _, _, .more stepped running (List.cons_ne_nil _ _)
        (.last stepped' reached (List.cons_ne_nil _ _)), ?_, heap.grows_ensureNode address⟩
      exact ⟨rfl, rfl, _, _, address, rfl, rfl, rfl, leaves⟩

theorem reaches_recalled (heap : Heap) (tick : Tick) (recalled : Recalled id flow) :
    ∃ value address later, Reaches tick 2 { flow with resumption := none } heap
        (.complete value (some address)) later heap ∧
      later.id = id := by
  obtain ⟨old, stack, value, resumption, rests, pushed, rfl⟩ := recalled
  obtain ⟨top, bottom, address, records, framed, idle, leaves⟩ := rests.leaves
  rw [Stack.modify_top records, Except.ok.injEq] at pushed
  subst pushed
  have taken : Flow.takeInput { old.resumed { old.stack with
        records := [top.push (.provideGiven value), bottom] } resumption with resumption := none } =
      .ok (.given value, none, Flow.withRecords { old.resumed { old.stack with
        records := [top.push (.provideGiven value), bottom] } resumption with resumption := none }
        [{ top with operations := [] }, bottom]) := by
    simp only [takeInput, Record.push, Flow.resumed, idle, List.nil_append, withRecords]
  obtain ⟨result, later, reaches, named⟩ :=
    reaches_completion _ heap tick taken framed rfl (leaves value)
  exact ⟨result, address, later, reaches, named.trans rests.named⟩

theorem takeResumption_recalled (stage : Stage σ) (tick : Tick)
    (recalled : Recalled id stage.flow) : ∃ pending, takeResumption tick stage =
      .ok pending { stage with flow := { stage.flow with resumption := none } } := by
  obtain ⟨old, stack, value, resumption, rests, pushed, resumed⟩ := recalled
  obtain ⟨top, below, -, rfl⟩ := Stack.modify_top_ok pushed
  have primed : isPrimed (top.push (.provideGiven value)) = true := by simp [isPrimed, Record.push]
  unfold takeResumption
  rw [resumed]
  simp only [Flow.resumed, Stack.peek, List.getElem?_cons_zero, primed]
  cases resumption.isDependency with
  | false => exact ⟨[], rfl⟩
  | true => exact ⟨releaseEdges resumption tick, rfl⟩

theorem Recalled.activation (recalled : Recalled id flow) : flow.activation = 1 := by
  obtain ⟨old, stack, value, resumption, rests, -, rfl⟩ := recalled
  exact congrArg (· + 1) rests.activation

namespace Simulation

variable {sim : Simulation σ} {later : Flow σ} {boundary : Boundary σ} {n : Nat}

theorem arrives_of_reaches (effects : sim.effects = {}) (unresumed : flow.resumption = none)
    (reaches : Reaches tick n flow sim.heap boundary later memory) (enough : n ≤ sim.limits.steps) :
    sim.Arrives tick flow boundary later memory := by
  refine ⟨effects, [], flow, n, ?_, reaches, enough⟩
  unfold takeResumption
  rw [unresumed]

theorem arrives_of_recalled (effects : sim.effects = {}) (recalled : Recalled id flow)
    (enough : 2 ≤ sim.limits.steps) : ∃ value address later,
      sim.Arrives tick flow (.complete value (some address)) later sim.heap ∧ later.id = id := by
  obtain ⟨pending, taken⟩ :=
    takeResumption_recalled ⟨flow, sim.heap, sim.replay, sim.journal⟩ tick recalled
  obtain ⟨value, address, later, reaches, named⟩ := reaches_recalled sim.heap tick recalled
  exact ⟨value, address, later, ⟨effects, pending, _, 2, taken, reaches, enough⟩, named⟩

end Simulation

end Cadence
