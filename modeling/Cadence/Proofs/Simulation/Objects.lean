import Cadence.Proofs.Heap.Allocation
import Cadence.Proofs.Simulation.Alongside
/-!
# Objects of a session

All that a tick adds to the heap are nodes. So objects come and go only with the operations that say
so, and the address of an object stays taken until the heap is emptied.
-/

namespace Cadence

open Engine

namespace Heap

variable {heap middle after : Heap}

def Placed (heap : Heap) : Prop :=
  ∀ entry ∈ heap.objects, heap.Taken entry.1

structure Continues (heap after : Heap) : Prop where
  placed : heap.Placed → after.Placed
  taken : ∀ address, heap.Taken address → after.Taken address

theorem Continues.refl (heap : Heap) : heap.Continues heap :=
  ⟨fun placed => placed, fun _ taken => taken⟩

theorem Continues.trans (earlier : heap.Continues middle) (later : middle.Continues after) :
    heap.Continues after :=
  ⟨fun placed => later.placed (earlier.placed placed),
    fun address taken => later.taken address (earlier.taken address taken)⟩

theorem continues_of_same (objects : after.objects = heap.objects)
    (salts : after.salts = heap.salts) : heap.Continues after := by
  have same (address : String) : after.Taken address ↔ heap.Taken address := by
    simp only [Taken, count, salts]
  refine ⟨fun placed entry member => ?_, fun address => (same address).2⟩
  exact (same entry.1).2 (placed entry (objects ▸ member))

theorem taken_register {address : String} {object : Object} :
    (heap.register object).2.Taken address ↔
      heap.Taken address ∨ address = (heap.register object).1 :=
  taken_allocateHash

theorem continues_register (heap : Heap) (object : Object) :
    heap.Continues (heap.register object).2 where
  placed placed entry member := by
    rcases List.mem_cons.1 member with rfl | member
    · exact taken_register.2 (.inr rfl)
    · exact taken_register.2 (.inl (placed entry member))
  taken _ taken := taken_register.2 (.inl taken)

theorem continues_allocate (heap : Heap) (object : Object) :
    heap.Continues (heap.allocate object).2 where
  placed placed entry member := taken_allocateHash.2 (.inl (placed entry member))
  taken _ taken := taken_allocateHash.2 (.inl taken)

theorem Placed.taken {address : String} {object : Object} (placed : heap.Placed)
    (found : heap.get? address = some object) : heap.Taken address := by
  obtain ⟨before, behind, objects, -⟩ := List.lookup_eq_some_iff.1 found
  exact placed (address, object) (by simp [objects])

end Heap

def Heap.Stays (known : Heap → Prop) : Prop :=
  ∀ heap address, known heap → known (heap.ensureNode address)

def Engine.Sustains {S α : Type} (holds : S → Prop) (operation : Engine S α) : Prop :=
  Triple holds operation (fun _ => holds) fun _ => holds

namespace Engine.Sustains

variable {S α : Type} {holds : S → Prop} {operation : Engine S α} {state : S}

theorem pure {a : α} : Sustains holds (Pure.pure a : Engine S α) :=
  Triple.pure fun _ here => here

theorem throw {e : EngineError} : Sustains holds (MonadExcept.throw e : Engine S α) :=
  Triple.throw fun _ here => here

theorem begun (sustains : Sustains holds operation) (here : holds state) :
    Triple (· = state) operation (fun _ => holds) fun _ => holds :=
  sustains.weaken fun _ same => same ▸ here

theorem after (sustains : Sustains holds operation) (state : S) (here : holds state) :
    holds (operation.after state) := by
  have reached := sustains state here
  unfold Engine.after
  cases done : operation state with
  | ok a after => rwa [done] at reached
  | error e after => rwa [done] at reached

end Engine.Sustains

variable {σ : Type} {known : Heap → Prop} {tick : Tick}

theorem Flow.step_sustains [Coroutine σ] (stays : Heap.Stays known) (flow : Flow σ) {heap : Heap}
    (holds : known heap) : known (flow.step heap tick).heap := by
  -- A step on one heap is a step on two that are the same.
  have lasting : Heap.Lasting fun heap more => heap = more ∧ known heap := by
    refine ⟨fun related => related.1 ▸ .refl _, fun address related => ?_⟩
    exact ⟨related.1 ▸ rfl, stays _ address related.2⟩
  have related := (step_alongside lasting ⟨rfl, holds⟩ flow tick).2.2.2
  exact related.2

namespace Stage

theorem Passive.sustains {α : Type} {operation : Engine (Stage σ) α} (passive : Passive operation) :
    Sustains (fun stage => known stage.heap) operation := by
  intro stage holds
  have same := passive stage
  cases done : operation stage with
  | ok a after =>
      rw [done] at same
      show known after.heap
      rw [same.1]
      exact holds
  | error e after =>
      rw [done] at same
      show known after.heap
      rw [same.1]
      exact holds

theorem takeResumption_sustains :
    Sustains (fun stage : Stage σ => known stage.heap) (takeResumption tick) := by
  intro stage holds
  unfold takeResumption
  cases stage.flow.resumption with
  | none => exact holds
  | some resumption =>
      simp only
      cases stage.flow.stack.peek 0 with
      | error e => exact holds
      | ok top =>
          simp only
          cases isPrimed top with
          | false => exact holds
          | true => cases resumption.isDependency <;> exact holds

variable [Coroutine σ] (stays : Heap.Stays known)

include stays

theorem advance_sustains :
    Sustains (fun stage : Stage σ => known stage.heap) (advance tick) := by
  intro stage holds
  have stepped : known (stage.flow.step stage.heap tick).heap :=
    stage.flow.step_sustains stays holds
  unfold advance
  simp only
  cases (stage.flow.step stage.heap tick).result with
  | ok outcome => exact stepped
  | error e => exact stepped

theorem drive_sustains (effects : EffectTable) (limit steps : Nat) (pending : List Response)
    (surfaced : List Report) :
    Sustains (fun stage : Stage σ => known stage.heap)
      (drive effects tick limit steps pending surfaced) := by
  induction steps generalizing pending surfaced with
  | zero =>
      exact Triple.get fun stage holds => Sustains.throw.begun holds
  | succ steps ih =>
      refine Triple.get fun stage holds => ?_
      refine ((advance_sustains stays).begun holds).bind fun outcome => ?_
      refine Triple.bind_ite _ (passive_spawnEdge outcome _ tick).sustains fun edge => ?_
      refine (passive_route effects tick _).sustains.bind fun result? => ?_
      cases outcome.boundary with
      | none => exact ih [] _
      | some boundary => exact Sustains.pure

theorem run_sustains (effects : EffectTable) (limit : Nat) :
    Sustains (fun stage : Stage σ => known stage.heap) (run effects tick limit) :=
  takeResumption_sustains.bind fun pending => drive_sustains stays effects limit limit pending []

end Stage

namespace Simulation

theorem onFlows_sustains {α : Type} (operation : Engine (FlowTable σ) α) :
    Sustains (fun sim => known sim.heap) (onFlows operation) := by
  intro sim holds
  unfold onFlows
  simp only
  cases operation sim.flows with
  | ok a flows => exact holds
  | error e flows => exact holds

theorem await_sustains (id : FlowId) (request : Request σ) (caller : Address) :
    Sustains (fun sim => known sim.heap) (await id request caller tick) := by
  intro sim holds
  unfold await
  cases request.strategy.check id request.recipes.length with
  | error e => exact holds
  | ok => exact onFlows_sustains _ sim holds

theorem conclude_sustains (id : FlowId) (name : String) (reports : List Report)
    (boundary : Boundary σ) :
    Sustains (fun sim => known sim.heap) (process.conclude id tick name reports boundary) := by
  cases boundary with
  | halt => exact Sustains.pure
  | await request caller =>
      refine Triple.bind ?_ fun _ => Sustains.pure
      exact (await_sustains id request caller).bind fun _ => Sustains.pure
  | complete value lastAddress =>
      exact (onFlows_sustains _).bind fun _ => Sustains.pure

theorem stepTasks_sustains (ids : List TaskId) :
    Sustains (fun sim : Simulation σ => known sim.heap) (stepTasks tick ids) := by
  induction ids with
  | nil => exact Sustains.pure
  | cons id ids ih =>
      have first : Sustains (fun sim : Simulation σ => known sim.heap) (stepTasks.stepTask tick id) := by
        intro sim holds
        unfold stepTasks.stepTask
        cases TaskTable.tick id sim.tasks with
        | error e tasks => exact holds
        | ok recipe? tasks => cases recipe? <;> exact holds
      exact first.bind fun _ => ih

section Ticks

variable [Coroutine σ] (stays : Heap.Stays known)

include stays

theorem process_sustains (id : FlowId) :
    Sustains (fun sim : Simulation σ => known sim.heap) (process id tick) := by
  intro sim holds
  unfold process
  cases sim.flows.active? id with
  | none => exact holds
  | some flow =>
      have runs : Sustains (fun stage : Stage σ => known stage.heap)
          (Stage.run sim.effects tick sim.limits.steps) := Stage.run_sustains stays _ _
      have ran := runs ⟨flow, sim.heap, sim.replay, sim.journal⟩ holds
      simp only
      cases done : Stage.run sim.effects tick sim.limits.steps
          ⟨flow, sim.heap, sim.replay, sim.journal⟩ with
      | error e stage =>
          rw [done] at ran
          exact ran
      | ok result stage =>
          rw [done] at ran
          exact conclude_sustains id flow.name result.1 result.2 (sim.commit stage) ran

theorem stepFlows_sustains (keys : List (FlowId × Nat)) :
    Sustains (fun sim : Simulation σ => known sim.heap) (stepFlows tick keys) := by
  induction keys with
  | nil => exact Sustains.pure
  | cons key rest ih =>
      obtain ⟨id, activation⟩ := key
      refine Triple.get fun sim holds => ?_
      refine Triple.bind_ite (fun _ sim => known sim.heap) ?_ fun fresh =>
        ih.bind fun later => Sustains.pure
      split
      · exact (process_sustains stays id).begun holds
      · exact Sustains.pure.begun holds

theorem runRounds_sustains (limit remaining : Nat) (covered : Coverage) (reports : List Report) :
    Sustains (fun sim : Simulation σ => known sim.heap)
      (runRounds tick limit remaining covered reports) := by
  induction remaining generalizing covered reports with
  | zero =>
      refine Triple.get fun sim holds => Triple.get ?_
      rintro _ rfl
      split
      · exact Sustains.pure.begun holds
      · exact Sustains.throw.begun holds
  | succ remaining ih =>
      refine Triple.get fun sim holds => Triple.get ?_
      rintro _ rfl
      split
      · exact Sustains.pure.begun holds
      · refine ((stepTasks_sustains _).begun holds).bind fun _ => ?_
        refine Triple.get fun stepped holds => ?_
        refine ((stepFlows_sustains stays _).begun holds).bind fun fresh => ?_
        exact ih _ _

theorem tick_sustains : Sustains (fun sim : Simulation σ => known sim.heap) Simulation.tick := by
  refine Triple.modify (fun sim => known sim.heap) (fun _ holds => holds) ?_
  refine Triple.get fun sim holds => ?_
  have rounds : Sustains (fun sim : Simulation σ => known sim.heap)
      (runRounds sim.now sim.limits.rounds sim.limits.rounds {} []) := runRounds_sustains stays _ _ _ _
  refine (rounds.begun holds).bind fun reports => ?_
  exact Triple.modify (fun sim => known sim.heap) (fun _ holds => holds) Sustains.pure

end Ticks

variable [Coroutine σ]

theorem tick_continues (sim : Simulation σ) :
    sim.heap.Continues (Simulation.tick.after sim).heap := by
  have stays : Heap.Stays fun heap =>
      heap.objects = sim.heap.objects ∧ heap.salts = sim.heap.salts := by
    intro heap address same
    unfold Heap.ensureNode
    split
    · exact same
    · exact same
  obtain ⟨objects, salts⟩ := (tick_sustains stays).after sim ⟨rfl, rfl⟩
  exact Heap.continues_of_same objects salts

theorem Operation.continues (operation : Operation σ) (sim : Simulation σ) :
    operation = .reset ∨ sim.heap.Continues (operation.apply sim).heap := by
  cases operation with
  | reset => exact .inl rfl
  | register object => exact .inr (sim.heap.continues_register object)
  | tick => exact .inr (tick_continues sim)
  | _ => exact .inr (Heap.continues_of_same rfl rfl)

end Simulation

end Cadence
