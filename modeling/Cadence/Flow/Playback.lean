import Cadence.Flow.Coroutine
/-!
A coroutine that plays back a fixed list of moves, whatever it is resumed with. It serves where
the behaviour of a flow is given outright instead of being computed by a method.
-/

namespace Cadence

inductive PlaybackMove where
  | load (address : Address) (params : List Json) (isDependency : Bool)
  | log (address : Address) (entries : List Json)
  | halt (address : Address) (covered total : Nat)
  | await (address : Address) (strategy : Strategy) (isDependency : Bool)
      (calls : List (String × List Json × List PlaybackMove))
  | unload (address : Address) (value : Json)
  | complete (value : Json)
  | fail (message : String)
  deriving Inhabited

/-- The moves that are left, and the return value that was handed over last. -/
structure Playback where
  name : String
  moves : List PlaybackMove
  last : Json := .null

namespace Playback

def recipe (name : String) (args : List Json) (moves : List PlaybackMove) : Recipe Playback where
  name := name
  args := args
  start := { name := name, moves := moves }

def answer : PlaybackMove → Except String (Signal Playback)
  | .load address params isDependency => .ok (.yielded ⟨address, .load params isDependency⟩)
  | .log address entries => .ok (.yielded ⟨address, .log entries⟩)
  | .halt address covered total => .ok (.yielded ⟨address, .halt covered total⟩)
  | .await address strategy isDependency calls =>
    let recipes := calls.map fun (name, args, moves) => recipe name args moves
    .ok (.yielded ⟨address, .await ⟨strategy, isDependency, recipes⟩⟩)
  | .unload address value => .ok (.yielded ⟨address, .unload value⟩)
  | .complete value => .ok (.complete value)
  | .fail message => .error message

def resume (playback : Playback) (input : Input) :
    Except String (Signal Playback) × Playback :=
  let last :=
    match input with
    | .returned value => value
    | _ => playback.last
  match playback.moves with
  | [] => (.ok (.complete last), { playback with last })
  | move :: moves => (answer move, { playback with last, moves })

instance : Coroutine Playback where
  resume := resume

end Playback

end Cadence
