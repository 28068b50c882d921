import Cadence.Proofs.Engine
/-!
Reasoning about two operations side by side. They are coupled if they succeed and fail together, with
the same error, and what relates their states before relates their states and results after.
-/

namespace Cadence.Engine

variable {S T α β γ δ : Type}

def Agree (post : α → β → S → T → Prop) (fails : S → T → Prop) :
    EStateM.Result EngineError S α → EStateM.Result EngineError T β → Prop
  | .ok a left, .ok b right => post a b left right
  | .error e left, .error e' right => e = e' ∧ fails left right
  | .ok _ _, .error _ _ | .error _ _, .ok _ _ => False

def Coupled (pre : S → T → Prop) (left : Engine S α) (right : Engine T β)
    (post : α → β → S → T → Prop) (fails : S → T → Prop) : Prop :=
  ∀ state state', pre state state' → Agree post fails (left state) (right state')

variable {pre : S → T → Prop} {left : Engine S α} {right : Engine T β}
  {post : α → β → S → T → Prop} {fails : S → T → Prop}

theorem Coupled.bind {next : α → Engine S γ} {next' : β → Engine T δ}
    {last : γ → δ → S → T → Prop} (head : Coupled pre left right post fails)
    (tail : ∀ a b, Coupled (post a b) (next a) (next' b) last fails) :
    Coupled pre (left >>= next) (right >>= next') last fails := by
  intro state state' related
  have reached := head state state' related
  show Agree last fails (EStateM.bind left next state) (EStateM.bind right next' state')
  unfold EStateM.bind
  cases first : left state with
  | ok a after =>
      cases second : right state' with
      | ok b after' =>
          rw [first, second] at reached
          exact tail a b after after' reached
      | error e after' => simp [first, second, Agree] at reached
  | error e after =>
      cases second : right state' with
      | ok b after' => simp [first, second, Agree] at reached
      | error e' after' => rwa [first, second] at reached

theorem Coupled.pure {a : α} {b : β} (related : ∀ state state', pre state state' → post a b state state') :
    Coupled pre (Pure.pure a : Engine S α) (Pure.pure b : Engine T β) post fails :=
  related

theorem Coupled.discard (head : Coupled pre left right post fails) :
    Coupled pre (Functor.discard left) (Functor.discard right)
      (fun _ _ state state' => ∃ a b, post a b state state') fails := by
  have bound {S α : Type} (operation : Engine S α) :
      Functor.discard operation = operation >>= fun _ => Pure.pure PUnit.unit :=
    rfl
  rw [bound, bound]
  exact head.bind fun a b => Coupled.pure fun _ _ related => ⟨a, b, related⟩

theorem Coupled.throw {e : EngineError} (related : ∀ state state', pre state state' → fails state state') :
    Coupled pre (MonadExcept.throw e : Engine S α) (MonadExcept.throw e : Engine T β) post fails :=
  fun state state' known => ⟨rfl, related state state' known⟩

theorem Coupled.get {next : S → Engine S α} {next' : T → Engine T β}
    (tail : ∀ state state', pre state state' →
      Coupled (fun s t => s = state ∧ t = state') (next state) (next' state') post fails) :
    Coupled pre (do let state ← MonadState.get; next state)
      (do let state ← MonadState.get; next' state) post fails :=
  fun state state' related => tail state state' related state state' ⟨rfl, rfl⟩

theorem Coupled.modify {change : S → S} {change' : T → T} {next : Engine S α} {next' : Engine T β}
    (between : S → T → Prop)
    (related : ∀ state state', pre state state' → between (change state) (change' state'))
    (tail : Coupled between next next' post fails) :
    Coupled pre (do modifyThe S change; next) (do modifyThe T change'; next') post fails :=
  fun state state' known => tail _ _ (related state state' known)

theorem Coupled.weaken {pre' : S → T → Prop} (coupled : Coupled pre left right post fails)
    (weaker : ∀ state state', pre' state state' → pre state state') :
    Coupled pre' left right post fails :=
  fun state state' related => coupled state state' (weaker state state' related)

theorem Agree.imp {post' : α → β → S → T → Prop} {fails' : S → T → Prop}
    {result : EStateM.Result EngineError S α} {result' : EStateM.Result EngineError T β}
    (agree : Agree post fails result result')
    (succeeds : ∀ a b state state', post a b state state' → post' a b state state')
    (breaks : ∀ state state', fails state state' → fails' state state') :
    Agree post' fails' result result' := by
  cases result with
  | ok a state =>
      cases result' with
      | ok b state' => exact succeeds a b state state' agree
      | error e state' => exact agree
  | error e state =>
      cases result' with
      | ok b state' => exact agree
      | error e' state' => exact ⟨agree.1, breaks state state' agree.2⟩

theorem Agree.common {U : Type} {post' : γ → β → U → T → Prop} {fails' : U → T → Prop}
    {result : EStateM.Result EngineError S α} {other : EStateM.Result EngineError U γ}
    {common : EStateM.Result EngineError T β} (agree : Agree post fails result common)
    (agree' : Agree post' fails' other common) :
    Agree (fun a c state state' => ∃ b between, post a b state between ∧ post' c b state' between)
      (fun state state' => ∃ between, fails state between ∧ fails' state' between) result other := by
  cases common with
  | ok b between =>
      cases result with
      | ok a state =>
          cases other with
          | ok c state' => exact ⟨b, between, agree, agree'⟩
          | error e state' => exact agree'.elim
      | error e state => exact agree.elim
  | error e between =>
      cases result with
      | ok a state => exact agree.elim
      | error e' state =>
          cases other with
          | ok c state' => exact agree'.elim
          | error e'' state' => exact ⟨agree.1.trans agree'.1.symm, between, agree.2, agree'.2⟩

theorem Coupled.and_triple {holds : T → Prop} {reaches : β → T → Prop} {breaks : EngineError → T → Prop}
    (coupled : Coupled pre left right post fails) (triple : Triple holds right reaches breaks) :
    Coupled (fun state state' => pre state state' ∧ holds state') left right
      (fun a b state state' => post a b state state' ∧ reaches b state') fails := by
  rintro state state' ⟨related, held⟩
  have agree := coupled state state' related
  have reached := triple state' held
  cases first : left state with
  | ok a after =>
      cases second : right state' with
      | ok b after' =>
          rw [first, second] at agree
          rw [second] at reached
          exact ⟨agree, reached⟩
      | error e after' => rwa [first, second] at agree
  | error e after =>
      cases second : right state' with
      | ok b after' => rwa [first, second] at agree
      | error e' after' => rwa [first, second] at agree

theorem Coupled.bind_same {left : Engine S α} {right : Engine T α} {between : S → T → Prop}
    {known : α → Prop} {holds : T → Prop} {reaches : α → T → Prop} {breaks : EngineError → T → Prop}
    {next : α → Engine S γ} {next' : α → Engine T δ} {last : γ → δ → S → T → Prop}
    (head : Coupled pre left right (fun a b state state' => (a = b ∧ known a) ∧ between state state')
      fails)
    (triple : Triple holds right reaches breaks)
    (tail : ∀ a, known a → Coupled (fun state state' => between state state' ∧ reaches a state')
      (next a) (next' a) last fails) :
    Coupled (fun state state' => pre state state' ∧ holds state') (left >>= next) (right >>= next')
      last fails := by
  refine (head.and_triple triple).bind fun a b state state' reached => ?_
  obtain ⟨⟨⟨rfl, fact⟩, related⟩, reached⟩ := reached
  exact tail a fact state state' ⟨related, reached⟩

end Cadence.Engine
