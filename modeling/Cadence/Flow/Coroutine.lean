import Cadence.Heap
/-!
The protocol between the engine and the methods it runs. A method is a coroutine: resumed with an
input it yields a command or completes. Calls that it makes run inside the same coroutine and
announce themselves with their own load and unload.
-/

namespace Cadence

inductive Input where
  | params (args : List Json)
  | given (value : Json)
  | returned (value : Json)
  | proceed

inductive Strategy where
  | single
  | all
  | race
  deriving DecidableEq

def Strategy.label : Strategy → String
  | single => "SINGLE"
  | all => "WAIT_FOR_ALL"
  | race => "RACE"

/--
What starts a flow: a name, arguments, and the coroutine's state before its first step. The state
is part of the recipe, so that all flows of an interval start in one and the same.
-/
structure Recipe (σ : Type) where
  name : String
  args : List Json
  start : σ

structure Request (σ : Type) where
  strategy : Strategy
  isDependency : Bool
  recipes : List (Recipe σ)

inductive Action (σ : Type) where
  | load (params : List Json) (isDependency : Bool)
  | log (entries : List Json)
  | halt (covered total : Nat)
  | await (request : Request σ)
  | unload (value : Json)

def Action.label {σ : Type} : Action σ → String
  | load _ _ => "LOAD"
  | log _ => "LOG"
  | halt _ _ => "HALT"
  | await _ => "AWAIT_FLOW"
  | unload _ => "UNLOAD"

structure Command (σ : Type) where
  address : Address
  action : Action σ

inductive Signal (σ : Type) where
  | yielded (command : Command σ)
  | complete (value : Json)

class Coroutine (σ : Type) where
  /-- The answer to an input, or why there is none, and in either case the state after it. -/
  resume : σ → Input → Except String (Signal σ) × σ

structure Exchange (σ : Type) where
  flow : FlowId
  state : σ
  input : Input
  answer : Except String (Signal σ)

section Map

variable {σ τ : Type} (f : σ → τ)

def Recipe.map (recipe : Recipe σ) : Recipe τ :=
  { recipe with start := f recipe.start }

def Action.map : Action σ → Action τ
  | load params isDependency => load params isDependency
  | log entries => log entries
  | halt covered total => halt covered total
  | await request =>
    await ⟨request.strategy, request.isDependency, request.recipes.map (Recipe.map f)⟩
  | unload value => unload value

def Signal.map : Signal σ → Signal τ
  | yielded command => yielded ⟨command.address, command.action.map f⟩
  | complete value => complete value

end Map

instance {σ τ : Type} [Coroutine σ] [Coroutine τ] : Coroutine (σ ⊕ τ) where
  resume
    | .inl state, input =>
      let (answer, state) := Coroutine.resume state input
      (answer.map (Signal.map .inl), .inl state)
    | .inr state, input =>
      let (answer, state) := Coroutine.resume state input
      (answer.map (Signal.map .inr), .inr state)

end Cadence
