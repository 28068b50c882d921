import Cadence.Flow.Table
import Cadence.Proofs.Flow.Response
/-!
Flows under other ids. A flow takes the same steps whatever its id is, also where the heap has been
given more nodes by others.
-/

namespace Cadence

variable {σ : Type} (f : FlowId → FlowId)

def Released.renumber (released : Released) : Released :=
  { released with flow := f released.flow }

def Resumption.renumber (resumption : Resumption) : Resumption :=
  { resumption with released := resumption.released.map (Released.renumber f) }

def Flow.renumber (flow : Flow σ) : Flow σ :=
  { flow with
    id := f flow.id, stack := { flow.stack with flow := f flow.stack.flow },
    resumption := flow.resumption.map (Resumption.renumber f) }

def Wait.renumber (wait : Wait) : Wait :=
  { wait with dependencies := wait.dependencies.map f }

def Completion.renumber (completion : Completion) : Completion :=
  { completion with id := f completion.id }

def Cancellation.renumber (cancellation : Cancellation) : Cancellation :=
  { cancellation with id := f cancellation.id, parent := f cancellation.parent }

def Report.renumber : Report → Report
  | .yielded flow name responses => .yielded (f flow) name responses
  | .constructed flow name value cancelled =>
    .constructed (f flow) name value (cancelled.map (Cancellation.renumber f))

inductive Phase.Like : Phase σ → Phase σ → Prop
  | active (flow : Flow σ) : Like (.active flow) (.active (flow.renumber f))
  | suspended (flow : Flow σ) (wait : Wait) :
      Like (.suspended flow wait) (.suspended (flow.renumber f) (wait.renumber f))
  | completed (completion : Completion) (order : Nat) :
      Like (.completed completion) (.completed { completion.renumber f with order })
  | cancelled (cancellation : Cancellation) :
      Like (.cancelled cancellation) (.cancelled (cancellation.renumber f))

@[simp] theorem Flow.renumber_id (flow : Flow σ) : flow.renumber (fun id => id) = flow := by
  obtain ⟨-, -, -, -, -, -, -, resumption⟩ := flow
  cases resumption with
  | none => rfl
  | some resumption =>
      have same : Released.renumber (fun id => id) = fun released => released := rfl
      simp [renumber, Resumption.renumber, same]

variable {f}

namespace Flow

variable {flow taken after : Flow σ} {heap more heap' : Heap} {outcome : Outcome σ} {tick : Tick}

@[simp] theorem records_renumber (flow : Flow σ) :
    (flow.renumber f).stack.records = flow.stack.records := rfl

theorem renumber_ofRecipe (id : FlowId) (recipe : Recipe σ) (caller : Option Address)
    (isDependency : Bool) (tick : Tick) :
    (ofRecipe id recipe caller isDependency tick).renumber f =
      ofRecipe (f id) recipe caller isDependency tick := rfl

theorem renumber_takeInput {input : Input} {popped : Option Address}
    (took : flow.takeInput = .ok (input, popped, taken)) :
    (flow.renumber f).takeInput = .ok (input, popped, taken.renumber f) := by
  unfold takeInput at took ⊢
  rw [records_renumber]
  cases records : flow.stack.records with
  | nil =>
      simp only [records] at took
      cases took
  | cons top below =>
      simp only [records] at took ⊢
      rcases pending : top.operations with _ | ⟨_ | value | _, rest⟩
      all_goals
        simp only [pending] at took ⊢
        obtain ⟨rfl, rest⟩ := Prod.mk.inj (Except.ok.inj took)
        obtain ⟨rfl, rfl⟩ := Prod.mk.inj rest
        rfl

theorem renumber_expectFrame {address : Address} {command : String}
    (expected : flow.expectFrame address command = .ok ()) :
    (flow.renumber f).expectFrame address command = .ok () := by
  cases records : flow.stack.records with
  | nil => simp [expectFrame, Stack.peek, records, bind, Except.bind] at expected
  | cons top below =>
      have records' : (flow.renumber f).stack.records = top :: below := records
      exact expectFrame_of_frame? records' (expectFrame_ok records expected) command

structure Echoes (f : FlowId → FlowId) (before : Heap) (outcome : Outcome σ) (flow : Flow σ)
    (heap : Heap) (result : Except EngineError (Outcome σ)) (flow' : Flow σ) (heap' : Heap) : Prop where
  result : result = .ok outcome
  flow : flow' = flow.renumber f
  within : heap'.Within heap
  grown : before.Within heap

theorem echoes_framed (within : heap.Within more) {address : Address} {command : String}
    {answer : Except EngineError (Outcome σ)} {answer' : Except EngineError (Outcome σ)}
    (done : (do flow.expectFrame address command; answer) = .ok outcome)
    (same : answer = .ok outcome → answer' = .ok outcome) :
    Echoes f more outcome flow more (do (flow.renumber f).expectFrame address command; answer')
      (flow.renumber f) heap := by
  refine ⟨?_, rfl, within, .refl more⟩
  cases expected : flow.expectFrame address command with
  | error e => simp [expected, bind, Except.bind] at done
  | ok => simpa [renumber_expectFrame expected, bind, Except.bind] using same (framed_ok done).2

theorem echoes_load (within : heap.Within more) {address : Address} {params : List Json}
    {isDependency : Bool} {grown : Heap}
    (done : flow.load more address params isDependency tick = .ok (outcome, after, grown)) :
    (flow.renumber f).load heap address params isDependency tick =
        .ok (outcome, after.renumber f, heap.ensureNode address) ∧
      grown = more.ensureNode address := by
  cases records : flow.stack.records with
  | nil => simp [load, Stack.peek, records, bind, Except.bind] at done
  | cons top below =>
      rw [load_eq records, within.get?] at done
      rw [@load_eq _ (flow.renumber f) _ _ records]
      split at done
      · cases done
      next registered =>
        rw [if_neg registered]
        obtain ⟨rfl, rest⟩ := Prod.mk.inj (Except.ok.inj done)
        obtain ⟨rfl, rfl⟩ := Prod.mk.inj rest
        exact ⟨rfl, rfl⟩

theorem echoes_unload (within : heap.Within more) {address : Address} {value : Json}
    (done : (flow.unload address value tick).1 = .ok outcome) :
    Echoes f more outcome (flow.unload address value tick).2 more
      ((flow.renumber f).unload address value tick).1
      ((flow.renumber f).unload address value tick).2 heap := by
  unfold unload at done ⊢
  cases expected : flow.expectFrame address "UNLOAD" with
  | error e => simp [expected] at done
  | ok =>
      simp only [expected, renumber_expectFrame expected, records_renumber] at done ⊢
      cases records : flow.stack.records with
      | nil => simp [records] at done
      | cons top below =>
          simp only [records] at done ⊢
          split at done
          next consumed =>
            simp only [if_pos consumed]
            cases below with
            | nil => cases done
            | cons caller rest => exact ⟨done, rfl, within, .refl more⟩
          next unconsumed =>
            simp only [if_neg unconsumed]
            exact ⟨done, rfl, within, .refl more⟩

theorem echoes_perform (within : heap.Within more) {command : Command σ}
    (done : (flow.perform more command tick).1 = .ok outcome) :
    Echoes f more outcome (flow.perform more command tick).2.1
      (flow.perform more command tick).2.2 ((flow.renumber f).perform heap command tick).1
      ((flow.renumber f).perform heap command tick).2.1
      ((flow.renumber f).perform heap command tick).2.2 := by
  unfold perform at done ⊢
  cases kind : command.action with
  | load params isDependency =>
      simp only [kind] at done ⊢
      cases loaded : flow.load more command.address params isDependency tick with
      | error e => simp [loaded] at done
      | ok result =>
          obtain ⟨outcome', after, grown⟩ := result
          obtain ⟨again, rfl⟩ := echoes_load (f := f) within loaded
          simp only [loaded, again] at done ⊢
          exact ⟨done, rfl, within.ensureNode _, more.within_ensureNode _⟩
  | log entries =>
      simp only [kind, log] at done ⊢
      exact echoes_framed within done fun answered => answered
  | halt covered total =>
      simp only [kind, halt] at done ⊢
      refine echoes_framed within done fun answered => ?_
      split at answered
      · cases answered
      next fine => exact (if_neg fine).trans answered
  | await request =>
      simp only [kind, await] at done ⊢
      exact echoes_framed within done fun answered => answered
  | unload value =>
      simp only [kind] at done ⊢
      exact echoes_unload within done

theorem renumber_finish {value : Json} {popped : Option Address}
    (done : flow.finish value popped = .ok outcome) :
    (flow.renumber f).finish value popped = .ok outcome := by
  unfold finish at done ⊢
  cases popped with
  | none => cases done
  | some last =>
      simp only at done ⊢
      split at done
      · cases done
      next closed => exact (if_neg closed).trans done

theorem echoes_step [Coroutine σ] (within : heap.Within more)
    (done : (flow.step more tick).result = .ok outcome) :
    Echoes f more outcome (flow.step more tick).flow (flow.step more tick).heap
      ((flow.renumber f).step heap tick).result ((flow.renumber f).step heap tick).flow
      ((flow.renumber f).step heap tick).heap := by
  unfold step at done ⊢
  cases took : flow.takeInput with
  | error e => simp [took] at done
  | ok taken =>
      obtain ⟨input, popped, taken⟩ := taken
      simp only [took, renumber_takeInput took] at done ⊢
      rw [show (taken.renumber f).coroutine = taken.coroutine from rfl]
      rcases resumed : Coroutine.resume taken.coroutine input with ⟨answer, coroutine⟩
      simp only [resumed] at done ⊢
      cases answer with
      | error message => cases done
      | ok signal =>
          cases signal with
          | complete value =>
              have finished := renumber_finish (f := f) done
              exact ⟨finished, rfl, within, .refl more⟩
          | yielded command =>
              have performed := echoes_perform (f := f) within done
              exact performed

end Flow

end Cadence
