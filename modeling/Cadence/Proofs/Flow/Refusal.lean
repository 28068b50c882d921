import Cadence.Flow.Playback
import Cadence.Proofs.Flow.Step
/-!
# Failing steps

A step makes all its checks before it changes anything. So a step that fails leaves the heap as it
was, and on the stack it has only consumed the operation that it began with.
-/

namespace Cadence

namespace Stack

def Layered (records : List Record) : Prop :=
  ∃ frames entry, records = frames ++ [entry] ∧
    (∀ record ∈ frames, record.frame?.isSome = true) ∧ entry.frame? = none

def consumed : List Record → List Record
  | [] => []
  | top :: below =>
    match top.operations with
    | [] => top :: below
    | .provideReturnAndPop :: _ => below
    | _ :: rest => { top with operations := rest } :: below

def Supported (records : List Record) : Prop :=
  ∀ top, records = [top] → top.frame? = none

variable {records : List Record}

theorem Layered.ne_nil (layered : Layered records) : records ≠ [] := by
  obtain ⟨frames, entry, rfl, -⟩ := layered
  simp

theorem Layered.supported_consumed (layered : Layered records) : Supported (consumed records) := by
  obtain ⟨frames, entry, rfl, framed, bottom⟩ := layered
  cases frames with
  | nil =>
      intro top only
      simp only [List.nil_append, consumed] at only
      split at only
      next => rwa [← List.singleton_inj.1 only]
      next => cases only
      next => rw [← List.singleton_inj.1 only]; exact bottom
  | cons frame frames =>
      -- What lies below the frame still ends in the entry record.
      intro top only
      simp only [List.cons_append, consumed] at only
      split at only
      next => simp at only
      next =>
        cases frames with
        | nil => rwa [← List.singleton_inj.1 only]
        | cons => simp at only
      next => simp at only

end Stack

namespace Flow

open Stack (Layered Supported consumed)

variable {σ : Type} {flow : Flow σ} {heap : Heap} {tick : Tick} {e : EngineError}

theorem takeInput_eq (nonempty : flow.stack.records ≠ []) : ∃ input popped,
    flow.takeInput = .ok (input, popped, flow.withRecords (consumed flow.stack.records)) := by
  obtain ⟨top, below, records⟩ := List.exists_cons_of_ne_nil nonempty
  have same : flow.withRecords (top :: below) = flow := by rw [← records]; rfl
  unfold takeInput
  rw [records]
  simp only [consumed]
  cases top.operations with
  | nil => exact ⟨_, _, by rw [same]⟩
  | cons operation rest => cases operation <;> exact ⟨_, _, rfl⟩

theorem unload_error (supported : Supported flow.stack.records) {address : Address} {value : Json}
    (failed : (flow.unload address value tick).1 = .error e) :
    (flow.unload address value tick).2 = flow := by
  cases accepted : flow.expectFrame address "UNLOAD" with
  | error refusal => simp [unload, accepted]
  | ok =>
      cases records : flow.stack.records with
      | nil => simp [unload, accepted, records]
      | cons top below =>
          have framed := expectFrame_ok records accepted
          -- The caller is looked up after the frame has changed, but a frame always has one.
          cases below with
          | nil => simp [supported top records] at framed
          | cons caller below =>
              rw [unload_eq records framed] at failed
              cases failed

theorem perform_error (supported : Supported flow.stack.records) {command : Command σ}
    (failed : (flow.perform heap command tick).1 = .error e) :
    (flow.perform heap command tick).2 = (flow, heap) := by
  unfold perform at failed ⊢
  cases kind : command.action with
  | load params isDependency =>
      simp only [kind] at failed ⊢
      split at failed
      next => cases failed
      next => rfl
  | log entries => rfl
  | halt covered total => rfl
  | await request => rfl
  | unload value =>
      simp only [kind] at failed ⊢
      rw [unload_error supported failed]

/-- A failing step leaves the heap alone, and the stack but for the operation that it consumes. -/
theorem failing_steps_only_consume [Coroutine σ] (layered : Layered flow.stack.records)
    (failed : (flow.step heap tick).result = .error e) :
    (flow.step heap tick).heap = heap ∧ ∃ input, (flow.step heap tick).flow =
      flow.stepped (consumed flow.stack.records) (Coroutine.resume flow.coroutine input).2 := by
  obtain ⟨input, popped, taken⟩ := takeInput_eq layered.ne_nil
  unfold step at failed ⊢
  rw [taken] at failed ⊢
  simp only at failed ⊢
  split at failed
  next => exact ⟨rfl, input, rfl⟩
  next => exact ⟨rfl, input, rfl⟩
  next command issued =>
    have same := perform_error layered.supported_consumed failed
    exact ⟨congrArg Prod.snd same, input, congrArg Prod.fst same⟩

def leavingTwice : Flow Playback where
  id := 1
  name := "twice"
  spawnedAt := 0
  stack := {
    flow := 1,
    records := [
      { Record.frame ⟨"clock_1", 0⟩ [] true with
        returnValue := some (.int 7), operations := [.provideReturnAndPop, .provideParams] },
      { Record.entry none [] true with operations := [] }] }
  coroutine := { name := "twice", moves := [.unload ⟨"clock_1", 0⟩ .null] }

theorem second_unload_only_consumes :
    Layered leavingTwice.stack.records ∧
      (leavingTwice.step {} 3).result = .error (.noLoadedFrame 1 "UNLOAD") ∧
      (leavingTwice.step {} 3).heap = {} ∧ ∃ input, (leavingTwice.step {} 3).flow =
        leavingTwice.stepped (consumed leavingTwice.stack.records)
          (Coroutine.resume leavingTwice.coroutine input).2 := by
  have layered : Layered leavingTwice.stack.records :=
    ⟨[leavingTwice.stack.records[0]], leavingTwice.stack.records[1], rfl, by decide, rfl⟩
  have failed : (leavingTwice.step {} 3).result = .error (.noLoadedFrame 1 "UNLOAD") := rfl
  exact ⟨layered, failed, failing_steps_only_consume layered failed⟩

end Flow

end Cadence
