import Cadence.Proofs.Flow.Step
/-!
The responses that steps produce are of the tick in which they are produced, and not marked as held
back.
-/

namespace Cadence

def Issued (tick : Tick) (responses : List Response) : Prop :=
  ∀ response ∈ responses, response.tick = tick ∧ response.isAutoPop = false

variable {tick : Tick} {responses more : List Response}

theorem issued_nil : Issued tick [] := by
  simp [Issued]

theorem Issued.append (issued : Issued tick responses) (issued' : Issued tick more) :
    Issued tick (responses ++ more) := by
  intro response member
  rcases List.mem_append.1 member with member | member
  · exact issued response member
  · exact issued' response member

theorem issued_map {α : Type} (items : List α) (traffic : α → Traffic) :
    Issued tick (items.map fun item => { traffic := traffic item, tick }) := by
  intro response member
  obtain ⟨item, -, rfl⟩ := List.mem_map.1 member
  exact ⟨rfl, rfl⟩

theorem issued_one (traffic : Traffic) : Issued tick [{ traffic, tick }] :=
  issued_map [traffic] id

namespace Flow

variable {σ : Type} {flow after : Flow σ} {heap heap' : Heap} {outcome : Outcome σ}

theorem issued_load {address : Address} {params : List Json} {isDependency : Bool}
    (done : flow.load heap address params isDependency tick = .ok (outcome, after, heap')) :
    Issued tick outcome.responses := by
  cases records : flow.stack.records with
  | nil => simp [load, Stack.peek, records, bind, Except.bind] at done
  | cons top below =>
      rw [load_eq records] at done
      split at done
      · cases done
      · obtain ⟨rfl, -⟩ : { responses := _ } = outcome ∧ _ := by simpa using Except.ok.inj done
        exact (issued_map _ _).append (issued_one _)

theorem issued_unload {address : Address} {value : Json}
    (done : (flow.unload address value tick).1 = .ok outcome) : Issued tick outcome.responses := by
  unfold unload at done
  split at done
  · cases done
  · split at done
    · cases done
    · simp only at done
      split at done
      · split at done
        · cases done
        · obtain rfl := Except.ok.inj done
          exact (issued_one _).append (issued_map _ _)
      · obtain rfl := Except.ok.inj done
        exact issued_one _

theorem issued_perform {command : Command σ}
    (done : (flow.perform heap command tick).1 = .ok outcome) : Issued tick outcome.responses := by
  unfold perform at done
  cases kind : command.action with
  | load params isDependency =>
      simp only [kind] at done
      split at done
      next loaded =>
        obtain rfl := Except.ok.inj done
        exact issued_load loaded
      next => cases done
  | log entries =>
      simp only [kind, log] at done
      obtain rfl := Except.ok.inj (framed_ok done).2
      exact issued_one _
  | halt covered total =>
      simp only [kind, halt] at done
      have answered := (framed_ok done).2
      split at answered
      · cases answered
      · obtain rfl := Except.ok.inj answered
        exact issued_one _
  | await request =>
      simp only [kind, await] at done
      obtain rfl := Except.ok.inj (framed_ok done).2
      exact issued_nil
  | unload value =>
      simp only [kind] at done
      exact issued_unload done

theorem issued_step [Coroutine σ] (done : (flow.step heap tick).result = .ok outcome) :
    Issued tick outcome.responses := by
  unfold step at done
  split at done
  · cases done
  · simp only at done
    split at done
    · cases done
    next value answered =>
      unfold finish at done
      split at done
      · cases done
      · simp only at done
        split at done
        · cases done
        · obtain rfl := Except.ok.inj done
          exact issued_nil
    · exact issued_perform done

end Flow

end Cadence
