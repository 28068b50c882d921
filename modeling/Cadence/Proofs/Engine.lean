import Cadence.Flow.Table
/-!
Reasoning about operations that may fail. What holds of the state is followed through an operation,
whether it succeeds or not.
-/

namespace Cadence.Engine

variable {S α β : Type} {pre : S → Prop} {post : α → S → Prop} {fails : EngineError → S → Prop}

def after {S α : Type} (operation : Engine S α) (state : S) : S :=
  match operation state with
  | .ok _ after | .error _ after => after

/-- Started where `pre` holds, an operation ends in `post`, or with an error in `fails`. -/
def Triple (pre : S → Prop) (operation : Engine S α) (post : α → S → Prop)
    (fails : EngineError → S → Prop) : Prop :=
  ∀ state, pre state →
    match operation state with
    | .ok a after => post a after
    | .error e after => fails e after

theorem Triple.bind {first : Engine S α} {next : α → Engine S β} {post : β → S → Prop}
    {between : α → S → Prop} (head : Triple pre first between fails)
    (tail : ∀ a, Triple (between a) (next a) post fails) :
    Triple pre (first >>= next) post fails := by
  intro state holds
  have reached := head state holds
  show match EStateM.bind first next state with
    | .ok a after => post a after
    | .error e after => fails e after
  unfold EStateM.bind
  cases done : first state with
  | ok a after =>
      rw [done] at reached
      exact tail a after reached
  | error e after =>
      rw [done] at reached
      exact reached

theorem Triple.bind_ite {choice : Prop} [Decidable choice] {first other : Engine S α}
    {next : α → Engine S β} {post : β → S → Prop} (between : α → S → Prop)
    (head : Triple pre (if choice then first else other) between fails)
    (tail : ∀ a, Triple (between a) (next a) post fails) :
    Triple pre (if choice then first >>= next else other >>= next) post fails := by
  by_cases chosen : choice
  · rw [if_pos chosen] at head ⊢
    exact head.bind tail
  · rw [if_neg chosen] at head ⊢
    exact head.bind tail

theorem Triple.pure {a : α} (holds : ∀ state, pre state → post a state) :
    Triple pre (Pure.pure a : Engine S α) post fails :=
  holds

theorem Triple.throw {e : EngineError} (holds : ∀ state, pre state → fails e state) :
    Triple pre (MonadExcept.throw e : Engine S α) post fails :=
  holds

theorem Triple.modify {change : S → S} {next : Engine S β} {post : β → S → Prop}
    (between : S → Prop) (holds : ∀ state, pre state → between (change state))
    (tail : Triple between next post fails) :
    Triple pre (do modifyThe S change; next) post fails :=
  fun state known => tail (change state) (holds state known)

theorem Triple.get {next : S → Engine S β} {post : β → S → Prop}
    (tail : ∀ state, pre state → Triple (· = state) (next state) post fails) :
    Triple pre (do let state ← MonadState.get; next state) post fails :=
  fun state holds => tail state holds state rfl

theorem Triple.and {operation : Engine S α} {pre' : S → Prop} {post' : α → S → Prop}
    {fails' : EngineError → S → Prop} (triple : Triple pre operation post fails)
    (triple' : Triple pre' operation post' fails') :
    Triple (fun state => pre state ∧ pre' state) operation
      (fun a state => post a state ∧ post' a state)
      (fun e state => fails e state ∧ fails' e state) := by
  rintro state ⟨holds, holds'⟩
  have reached := triple state holds
  have reached' := triple' state holds'
  cases done : operation state with
  | ok a after =>
      rw [done] at reached reached'
      exact ⟨reached, reached'⟩
  | error e after =>
      rw [done] at reached reached'
      exact ⟨reached, reached'⟩

theorem Triple.weaken {operation : Engine S α} {pre' : S → Prop}
    (triple : Triple pre operation post fails) (weaker : ∀ state, pre' state → pre state) :
    Triple pre' operation post fails :=
  fun state holds => triple state (weaker state holds)

def succeeds {S α : Type} (operation : Engine S α) (state : S) : Bool :=
  match operation state with
  | .ok _ _ => true
  | .error _ _ => false

theorem succeeds_iff {operation : Engine S α} {state : S} :
    succeeds operation state = true ↔ ∃ a after, operation state = .ok a after := by
  unfold succeeds
  cases operation state with
  | ok a after => simp
  | error e after => simp

theorem bind_ok {first : Engine S α} {next : α → Engine S β} {state after : S} {b : β} :
    (first >>= next) state = .ok b after ↔
      ∃ a middle, first state = .ok a middle ∧ next a middle = .ok b after := by
  show EStateM.bind first next state = .ok b after ↔ _
  unfold EStateM.bind
  cases done : first state with
  | ok a middle => simp [and_assoc]
  | error e middle => simp

theorem bind_of_ok {first : Engine S α} {state middle : S} {a : α}
    (done : first state = .ok a middle) (next : α → Engine S β) :
    (first >>= next) state = next a middle := by
  show EStateM.bind first next state = _
  rw [EStateM.bind, done]

theorem bind_error {first : Engine S α} {next : α → Engine S β} {state after : S}
    {e : EngineError} :
    (first >>= next) state = .error e after ↔ first state = .error e after ∨
      ∃ a middle, first state = .ok a middle ∧ next a middle = .error e after := by
  show EStateM.bind first next state = .error e after ↔ _
  unfold EStateM.bind
  cases done : first state with
  | ok a middle => simp [and_assoc]
  | error e middle => simp

theorem ite_bind {choice : Prop} [Decidable choice] (first other : Engine S α)
    (next : α → Engine S β) :
    (if choice then first >>= next else other >>= next) =
      (if choice then first else other) >>= next := by
  by_cases chosen : choice
  · rw [if_pos chosen, if_pos chosen]
  · rw [if_neg chosen, if_neg chosen]

theorem pure_ok {state after : S} {a b : α} :
    (Pure.pure a : Engine S α) state = .ok b after ↔ a = b ∧ state = after := by
  show EStateM.Result.ok a state = .ok b after ↔ _
  rw [EStateM.Result.ok.injEq]

theorem get_ok {next : S → Engine S β} {state after : S} {b : β} :
    (do let state ← MonadState.get; next state : Engine S β) state = .ok b after ↔
      next state state = .ok b after :=
  Iff.rfl

end Cadence.Engine
