import Cadence.Proofs.Flow.Step
import Cadence.Proofs.FlowTable.History
import Mathlib.Logic.Function.Iterate
/-!
What a coroutine is handed next. Its last command determines it, and it lies ready in one place: the
top record of the call stack, while no other record has anything to provide.
-/

namespace Cadence

variable {σ : Type}

def Action.reply? (finished : List (FlowId × Json)) (wait? : Option Wait) : Action σ → Option Input
  | .load _ _ | .log _ | .halt _ _ => some .proceed
  | .unload value => some (.returned value)
  | .await _ => wait?.bind fun wait => (wait.value? finished).map .given

/-- An input for a coroutine in some state, and the frame that provides it, or else the entry. -/
structure Due (σ : Type) where
  state : σ
  frame? : Option Address
  input : Input

def Record.Offers (record : Record) : Input → Prop
  | .params args => record.operations = [.provideParams] ∧ record.params = args
  | .given value => record.operations = [.provideGiven value]
  | .returned value =>
    record.operations = [.provideReturnAndPop] ∧ record.returnValue = some value
  | .proceed => record.operations = []

/-- The top record is about to hand over what is due, and no other record is pending. -/
structure Flow.Provides (flow : Flow σ) (due : Due σ) : Prop where
  state : flow.coroutine = due.state
  offered : ∃ top below, flow.stack.records = top :: below ∧ top.frame? = due.frame? ∧
    top.Offers due.input ∧ ∀ record ∈ below, record.operations = []

def Flow.RestsAt (flow : Flow σ) (address : Address) : Prop :=
  ∃ top below, flow.stack.records = top :: below ∧ top.frame? = some address ∧
    ∀ record ∈ top :: below, record.operations = []

namespace Flow

open Stack (Idle)

variable {flow : Flow σ} {heap : Heap} {tick : Tick} {due : Due σ}

theorem takeInput_of_provides (provides : flow.Provides due)
    (shape : Stack.Shape flow.stack.records) : ∃ popped records,
      flow.takeInput = .ok (due.input, popped, flow.withRecords records) ∧ Idle records := by
  obtain ⟨input, popped, records, taken, idle, -⟩ := takeInput_spec shape
  obtain ⟨top, below, stacked, -, offers, -⟩ := provides.offered
  suffices same : input = due.input from ⟨popped, records, same ▸ taken, idle⟩
  unfold takeInput at taken
  rw [stacked] at taken
  generalize due.input = wanted at offers ⊢
  cases wanted with
  | params args =>
      simp only [offers.1] at taken
      rw [← offers.2]
      exact (Prod.mk.inj (Except.ok.inj taken)).1.symm
  | given value =>
      simp only [show top.operations = [.provideGiven value] from offers] at taken
      exact (Prod.mk.inj (Except.ok.inj taken)).1.symm
  | returned value =>
      simp only [offers.1, offers.2] at taken
      exact (Prod.mk.inj (Except.ok.inj taken)).1.symm
  | proceed =>
      simp only [show top.operations = [] from offers] at taken
      exact (Prod.mk.inj (Except.ok.inj taken)).1.symm

def Answered (flow : Flow σ) (answer : Except String (Signal σ)) : Option (Boundary σ) → Prop
  | none | some .halt => ∃ command input, answer = .ok (.yielded command) ∧
      command.action.reply? [] none = some input ∧
      flow.Provides ⟨flow.coroutine, some command.address, input⟩
  | some (.await request caller) =>
      answer = .ok (.yielded ⟨caller, .await request⟩) ∧ flow.RestsAt caller
  | some (.complete value _) => answer = .ok (.complete value)

theorem answered_framed (idle : Idle flow.stack.records) {address : Address} {name : String}
    (accepted : flow.expectFrame address name = .ok ()) : flow.RestsAt address := by
  obtain ⟨top, below, stacked⟩ := idle.shape.exists_cons
  exact ⟨top, below, stacked, expectFrame_ok stacked accepted, stacked ▸ idle.idle⟩

theorem answered_load (idle : Idle flow.stack.records) {address : Address} {params : List Json}
    {isDependency : Bool} {outcome : Outcome σ} {after : Flow σ} {heap' : Heap}
    (loaded : flow.load heap address params isDependency tick = .ok (outcome, after, heap')) :
    outcome.boundary = none ∧ after.Provides ⟨after.coroutine, some address, .proceed⟩ := by
  obtain ⟨top, below, stacked⟩ := idle.shape.exists_cons
  rw [load_eq stacked] at loaded
  split at loaded
  next => cases loaded
  next =>
    obtain ⟨rfl, same⟩ := Prod.mk.inj (Except.ok.inj loaded)
    obtain ⟨rfl, -⟩ := Prod.mk.inj same
    exact ⟨rfl, rfl, _, _, rfl, rfl, rfl, stacked ▸ idle.idle⟩

theorem answered_unload (idle : Idle flow.stack.records) {address : Address} {value : Json}
    {outcome : Outcome σ} (left : (flow.unload address value tick).1 = .ok outcome) :
    outcome.boundary = none ∧ (flow.unload address value tick).2.Provides
      ⟨(flow.unload address value tick).2.coroutine, some address, .returned value⟩ := by
  obtain ⟨e, -, refused⟩ | ⟨top, caller, below, stacked, framed, -⟩ :=
    unload_cases idle address value tick
  · simp [refused] at left
  · obtain ⟨here, others⟩ := List.forall_mem_cons.1 (stacked ▸ idle.idle)
    rw [unload_eq stacked framed] at left ⊢
    obtain rfl := Except.ok.inj left
    refine ⟨rfl, rfl, _, _, rfl, framed, ⟨?_, rfl⟩, others⟩
    simp [Record.push, here]

theorem perform_answered (flow : Flow σ) (idle : Idle flow.stack.records) (heap : Heap)
    (command : Command σ) (tick : Tick) {outcome : Outcome σ}
    (done : (flow.perform heap command tick).1 = .ok outcome) :
    (flow.perform heap command tick).2.1.Answered (.ok (.yielded command)) outcome.boundary := by
  obtain ⟨address, action⟩ := command
  unfold perform at done ⊢
  cases action with
  | load params isDependency =>
      simp only at done ⊢
      split at done
      next outcome' after heap' loaded =>
        obtain rfl := Except.ok.inj done
        obtain ⟨boundary, provides⟩ := answered_load idle loaded
        rw [boundary]
        exact ⟨_, _, rfl, rfl, provides⟩
      next => cases done
  | log entries =>
      obtain ⟨accepted, same⟩ := framed_ok done
      obtain rfl := Except.ok.inj same
      obtain ⟨top, below, stacked, framed, nothing⟩ := answered_framed idle accepted
      obtain ⟨here, others⟩ := List.forall_mem_cons.1 nothing
      exact ⟨_, _, rfl, rfl, rfl, top, below, stacked, framed, here, others⟩
  | halt covered total =>
      obtain ⟨accepted, same⟩ := framed_ok done
      obtain ⟨top, below, stacked, framed, nothing⟩ := answered_framed idle accepted
      obtain ⟨here, others⟩ := List.forall_mem_cons.1 nothing
      split at same
      next => cases same
      next =>
        obtain rfl := Except.ok.inj same
        exact ⟨_, _, rfl, rfl, rfl, top, below, stacked, framed, here, others⟩
  | await request =>
      obtain ⟨accepted, same⟩ := framed_ok done
      obtain rfl := Except.ok.inj same
      exact ⟨rfl, answered_framed idle accepted⟩
  | unload value =>
      obtain ⟨boundary, provides⟩ := answered_unload idle done
      rw [boundary]
      exact ⟨_, _, rfl, rfl, provides⟩

theorem finish_ok {value : Json} {popped : Option Address} {outcome : Outcome σ}
    (done : flow.finish value popped = .ok outcome) :
    ∃ last, outcome.boundary = some (.complete value last) := by
  unfold finish at done
  split at done
  next => cases done
  next last =>
    simp only at done
    split at done
    next => cases done
    next =>
      obtain rfl := Except.ok.inj done
      exact ⟨_, rfl⟩

theorem step_answered [Coroutine σ] (provides : flow.Provides due) (sound : flow.Sound heap)
    (tick : Tick) :
    (flow.step heap tick).exchange = some
        ⟨flow.id, due.state, due.input, (Coroutine.resume due.state due.input).1⟩ ∧
      (flow.step heap tick).flow.coroutine = (Coroutine.resume due.state due.input).2 ∧
      ∀ outcome, (flow.step heap tick).result = .ok outcome →
        (flow.step heap tick).flow.Answered (Coroutine.resume due.state due.input).1
          outcome.boundary := by
  obtain ⟨popped, records, taken, idle⟩ := takeInput_of_provides provides sound.shape
  obtain ⟨⟨input, ⟨popped', rest, taken'⟩, ⟨records', kept⟩, exchanged⟩, -⟩ :=
    step_advances sound tick
  obtain ⟨rfl, -⟩ := Prod.mk.inj (Except.ok.inj (taken'.symm.trans taken))
  rw [exchanged, kept, ← provides.state]
  refine ⟨rfl, rfl, fun outcome done => ?_⟩
  rw [← kept]
  unfold step at done ⊢
  rw [taken] at done ⊢
  simp only at done ⊢
  split at done
  next message failed => cases done
  next value complete =>
    obtain ⟨last, boundary⟩ := finish_ok done
    rw [boundary]
    exact complete
  next command issued =>
    have issued : (Coroutine.resume flow.coroutine due.input).1 = .ok (.yielded command) := issued
    rw [issued]
    exact perform_answered (flow.stepped records (Coroutine.resume flow.coroutine due.input).2) idle
      heap command tick done

variable [Coroutine σ]

def next (tick : Tick) (here : Heap × Flow σ) : Heap × Flow σ :=
  ((here.2.step here.1 tick).heap, (here.2.step here.1 tick).flow)

def course (tick : Tick) (start : Heap × Flow σ) (steps : Nat) : List (Flow σ) :=
  (List.range steps).map fun n => ((next tick)^[n] start).2

theorem length_course (tick : Tick) (start : Heap × Flow σ) (steps : Nat) :
    (course tick start steps).length = steps := by
  simp [course]

theorem course_succ (tick : Tick) (start : Heap × Flow σ) (steps : Nat) :
    course tick start (steps + 1) = course tick start steps ++ [((next tick)^[steps] start).2] := by
  rw [course, List.range_succ, List.map_append]
  rfl

end Flow

end Cadence
