import Cadence.Scenario.Invocation
import Cadence.Proofs.Scenario.Substitution
import Cadence.Proofs.Scenario.Scope
import Mathlib.Data.List.Forall2
/-!
Invocations of a program in scope never get stuck: whatever value a frame is handed, it finds its
next instruction, and the values and methods that the instruction names.
-/

namespace Cadence.Scenario

def Program.Reaches (program : Program) (call : Call) : Prop :=
  ∃ target, program.resolve call.service call.method = some target

structure Program.Sound (program : Program) : Prop where
  methods : ∀ image ∈ program, ∀ method ∈ image.methods,
    ScopedBody program.Reaches (image.fields.keys ++ method.params) method.body

structure Target.Within (program : Program) (target : Target) : Prop where
  image : target.image ∈ program
  method : target.method ∈ target.image.methods

variable {program : Program} {target : Target} {call : Call} {locals : Fields Json}
  {frame : Frame}

theorem within_of_resolve {service method : String}
    (resolved : program.resolve service method = some target) : target.Within program := by
  unfold Program.resolve at resolved
  cases inProgram : program.find? (·.name = service) with
  | none => simp [inProgram] at resolved
  | some image =>
      cases place : image.methods.findIdx? (·.name = method) with
      | none => simp [inProgram, place] at resolved
      | some offset =>
          cases declared : image.methods[offset]? with
          | none => simp [inProgram, place, declared] at resolved
          | some found =>
              obtain rfl : (⟨image, offset, found⟩ : Target) = target := by
                simpa [inProgram, place, declared] using resolved
              exact ⟨List.mem_of_find?_eq_some inProgram, List.mem_of_getElem? declared⟩

theorem mem_keys_bindParams {params : List String} {args : List Json} {name : String}
    (bound : name ∈ params ∨ name ∈ locals.keys) :
    name ∈ (Target.bindParams params args locals).keys := by
  induction params generalizing args locals with
  | nil => simpa [Target.bindParams] using bound
  | cons param params ih =>
      refine ih ?_
      rw [Fields.mem_keys_insert]
      rcases bound with bound | bound
      · rcases List.mem_cons.1 bound with rfl | bound
        · exact .inr (.inl rfl)
        · exact .inl bound
      · exact .inr (.inr bound)

theorem Program.Sound.body (sound : program.Sound) (within : target.Within program)
    (args : List Json) :
    ScopedBody program.Reaches (target.locals args).keys target.method.body := by
  refine (sound.methods _ within.image _ within.method).mono (fun _ => id) fun name bound => ?_
  exact mem_keys_bindParams (List.mem_append.1 bound).symm

theorem evaluate_ok (scope : call.Scoped program.Reaches locals.keys) :
    ∃ target args, program.evaluate locals call = .ok (target, args) ∧ target.Within program := by
  obtain ⟨target, resolved⟩ := scope.reached
  obtain ⟨args, done⟩ := Json.exists_substituteItems_eq_ok scope.args
  refine ⟨target, args, ?_, within_of_resolve resolved⟩
  simp only [Program.evaluate, substituteAll, done, resolved]
  rfl

theorem exists_of_forall₂ {α β : Type} {related : α → β → Prop} {items : List α} {others : List β}
    (all : List.Forall₂ related items others) {b : β} (member : b ∈ others) :
    ∃ a ∈ items, related a b := by
  induction all with
  | nil => simp at member
  | cons here rest ih =>
      rcases List.mem_cons.1 member with rfl | member
      · exact ⟨_, List.mem_cons_self .., here⟩
      · obtain ⟨a, known, holds⟩ := ih member
        exact ⟨a, List.mem_cons_of_mem _ known, holds⟩

theorem evaluate_eq_ok {args : List Json} : program.evaluate locals call = .ok (target, args) ↔
    Json.substituteItems locals call.args = .ok args ∧
      program.resolve call.service call.method = some target := by
  unfold Program.evaluate substituteAll
  cases Json.substituteItems locals call.args with
  | error name => simp [Except.mapError, bind, Except.bind]
  | ok values =>
      cases program.resolve call.service call.method with
      | none => simp [Except.mapError, bind, Except.bind, throw, throwThe, MonadExceptOf.throw]
      | some found =>
          simp [Except.mapError, bind, Except.bind, pure, Except.pure, and_comm]

theorem evaluateAll_ok {calls : List Call}
    (scope : ∀ call ∈ calls, call.Scoped program.Reaches locals.keys) :
    ∃ found, calls.mapM (program.evaluate locals) = .ok found ∧
      List.Forall₂ (fun call one => program.evaluate locals call = .ok one) calls found ∧
      ∀ one ∈ found, one.1.Within program := by
  induction calls with
  | nil => exact ⟨[], rfl, .nil, by simp⟩
  | cons call calls ih =>
      obtain ⟨target, args, first, within⟩ := evaluate_ok (scope call (List.mem_cons_self ..))
      obtain ⟨found, rest, each, all⟩ := ih fun other member =>
        scope other (List.mem_cons_of_mem _ member)
      refine ⟨(target, args) :: found, ?_, .cons first each, ?_⟩
      · rw [List.mapM_cons, first, rest]
        rfl
      · intro one member
        rcases List.mem_cons.1 member with rfl | member
        · exact within
        · exact all one member

theorem ScopedBody.dropPauses {reaches : Call → Prop} {bound : List String}
    {body : List Instruction} (scope : ScopedBody reaches bound body) :
    ScopedBody reaches bound (body.dropWhile Instruction.isPause) := by
  induction body with
  | nil => exact scope
  | cons instruction rest ih =>
      rw [List.dropWhile_cons]
      split
      next pause =>
        refine ih ?_
        unfold Instruction.isPause at pause
        split at pause
        · exact scope.2
        · cases pause
      next => exact scope

structure Frame.Waits (program : Program) (frame : Frame) : Prop where
  loaded : frame.unloaded = false
  slept : frame.slept = 0 ∨
    ∃ ticks rest, frame.rest = .sleep ticks :: rest ∧ frame.slept < ticks
  body : ScopedBody program.Reaches (frame.pendingBind.toList ++ frame.locals.keys) frame.rest

structure Frame.Ready (program : Program) (frame : Frame) : Prop extends
    Frame.Waits program frame where
  unbound : frame.pendingBind = none

structure Frame.Left (program : Program) (frame : Frame) : Prop where
  unloaded : frame.unloaded = true
  unbound : frame.pendingBind = none
  body : ScopedBody program.Reaches frame.locals.keys frame.rest

theorem Frame.Ready.goOn (ready : frame.Ready program) {rest : List Instruction} {slept : Nat}
    (begun : slept = 0 ∨ ∃ ticks rest', rest = .sleep ticks :: rest' ∧ slept < ticks)
    (scope : ScopedBody program.Reaches frame.locals.keys rest) :
    ({ frame with rest, slept } : Frame).Ready program :=
  ⟨⟨ready.loaded, begun, by simpa [ready.unbound] using scope⟩, ready.unbound⟩

theorem Frame.Waits.deliver (waits : frame.Waits program) (value : Json) :
    (frame.deliver value).Ready program := by
  unfold Frame.deliver
  cases pending : frame.pendingBind with
  | none => exact ⟨waits, pending⟩
  | some name =>
      refine ⟨⟨waits.loaded, waits.slept, waits.body.mono (fun _ => id) ?_⟩, rfl⟩
      intro other bound
      simpa [pending, Fields.mem_keys_insert] using bound

@[simp] theorem Frame.address_deliver (frame : Frame) (value : Json) :
    (frame.deliver value).address = frame.address := by
  unfold Frame.deliver
  split <;> rfl

def Starts (program : Program) (run : Invocation) : Prop :=
  ∃ target, target.Within program ∧ run = { program, entry := target }

/-- What a frame may do next, and what it leaves behind when it does. -/
def Move.Allowed (program : Program) (after : Frame) : Move → Prop
  | .act (.log _) => after.Ready program
  | .act (.halt covered total) => covered ≠ 0 ∧ covered ≤ total ∧ after.Ready program
  | .act (.await request) => after.Waits program ∧
    (∀ recipe ∈ request.recipes, Starts program recipe.start) ∧
      ∀ flow, request.strategy.check flow request.recipes.length = .ok ()
  | .act (.unload _) => after.Left program
  | .act (.load _ _) => False
  | .enter target _ _ => target.Within program ∧ after.Waits program

theorem check_of_isShapely {await : Await} (shapely : await.isShapely = true) (flow : FlowId) :
    await.strategy.check flow await.calls.length = .ok () := by
  unfold Await.isShapely at shapely
  unfold Strategy.check
  cases kind : await.strategy <;> simp_all

theorem isPause_of_dropWhile {body rest : List Instruction} {instruction : Instruction}
    (left : body.dropWhile Instruction.isPause = instruction :: rest) :
    instruction.isPause = false := by
  simpa [left] using List.head?_dropWhile_not Instruction.isPause body

theorem Frame.Ready.begun (ready : frame.Ready program) {instruction : Instruction}
    {rest : List Instruction}
    (left : frame.rest.dropWhile Instruction.isPause = instruction :: rest) :
    frame.slept = 0 ∨ ∃ ticks, instruction = .sleep ticks ∧ frame.slept < ticks := by
  rcases ready.slept with nothing | ⟨ticks, rest', same, fewer⟩
  · exact .inl nothing
  · have unpaused : Instruction.isPause (.sleep ticks) = false := by
      cases ticks with
      | zero => omega
      | succ n => rfl
    rw [same, List.dropWhile_cons_of_neg (by simp [unpaused])] at left
    injection left with first _
    exact .inr ⟨ticks, first.symm, fewer⟩

theorem Frame.Ready.rested (ready : frame.Ready program) {instruction : Instruction}
    {rest : List Instruction}
    (left : frame.rest.dropWhile Instruction.isPause = instruction :: rest)
    (awake : ∀ ticks, instruction ≠ .sleep ticks) : frame.slept = 0 := by
  rcases ready.begun left with nothing | ⟨ticks, same, -⟩
  · exact nothing
  · exact (awake ticks same).elim

theorem Frame.Ready.slept_lt (ready : frame.Ready program) {ticks : Nat} {rest : List Instruction}
    (left : frame.rest.dropWhile Instruction.isPause = .sleep ticks :: rest) :
    frame.slept < ticks := by
  have busy := isPause_of_dropWhile left
  rcases ready.begun left with nothing | ⟨ticks', same, fewer⟩
  · cases ticks with
    | zero => simp [Instruction.isPause] at busy
    | succ n => omega
  · injection same with same
    omega

inductive Frame.Takes (program : Program) (frame : Frame) : Move → Frame → Prop
  | fall (left : frame.rest.dropWhile Instruction.isPause = []) :
      Takes program frame (.act (.unload .null)) { frame with rest := [], unloaded := true }
  | log {value shown : Json} {entries : List Json} {rest : List Instruction}
      (left : frame.rest.dropWhile Instruction.isPause = .log value :: rest)
      (rested : frame.slept = 0) (evaluated : value.substitute frame.locals = .ok shown) :
      Takes program frame (.act (.log entries)) { frame with rest }
  | wake {rest : List Instruction}
      (left : frame.rest.dropWhile Instruction.isPause = .sleep (frame.slept + 1) :: rest) :
      Takes program frame (.act (.halt (frame.slept + 1) (frame.slept + 1)))
        { frame with slept := 0, rest }
  | sleep {ticks : Nat} {rest : List Instruction}
      (left : frame.rest.dropWhile Instruction.isPause = .sleep ticks :: rest)
      (unfinished : frame.slept + 1 < ticks) :
      Takes program frame (.act (.halt (frame.slept + 1) ticks))
        { frame with slept := frame.slept + 1, rest := .sleep ticks :: rest }
  | call {call : Call} {rest : List Instruction} {target : Target} {args : List Json}
      (left : frame.rest.dropWhile Instruction.isPause = .call call :: rest)
      (rested : frame.slept = 0)
      (evaluated : program.evaluate frame.locals call = .ok (target, args)) :
      Takes program frame (.enter target args call.bind.isSome)
        { frame with rest, pendingBind := call.bind }
  | await {awaited : Await} {rest : List Instruction} {found : List (Target × List Json)}
      (left : frame.rest.dropWhile Instruction.isPause = .await awaited :: rest)
      (rested : frame.slept = 0) (shapely : awaited.isShapely = true)
      (evaluated : List.Forall₂ (fun call one => program.evaluate frame.locals call = .ok one)
        awaited.calls found) :
      Takes program frame (.act (.await ⟨awaited.strategy, awaited.bind.isSome,
        found.map fun (target, args) => program.recipe target args⟩))
        { frame with rest, pendingBind := awaited.bind }
  | ret {value result : Json} {rest : List Instruction}
      (left : frame.rest.dropWhile Instruction.isPause = .ret value :: rest)
      (rested : frame.slept = 0) (evaluated : value.substitute frame.locals = .ok result) :
      Takes program frame (.act (.unload result))
        { frame with rest := .ret value :: rest, unloaded := true }

theorem Frame.next_allowed (ready : frame.Ready program) :
    ∃ move after, frame.next program = (.ok move, after) ∧ after.address = frame.address ∧
      move.Allowed program after ∧ frame.Takes program move after := by
  have scope : ScopedBody program.Reaches frame.locals.keys
      (frame.rest.dropWhile Instruction.isPause) := by
    have scope := ready.body.dropPauses
    rwa [ready.unbound] at scope
  unfold Frame.next
  -- What is in scope is in scope behind the pauses, whichever instruction comes next.
  cases left : frame.rest.dropWhile Instruction.isPause with
  | nil => exact ⟨_, _, rfl, rfl, ⟨rfl, ready.unbound, trivial⟩, .fall left⟩
  | cons instruction rest =>
      rw [left] at scope
      obtain ⟨here, later⟩ := scope
      cases instruction with
      | log value =>
          have rested := ready.rested left (by simp)
          have after := ready.goOn (.inl rested) later
          obtain ⟨result, done⟩ := Json.exists_substitute_eq_ok.2 here
          simp only [done]
          cases result <;> exact ⟨_, _, rfl, rfl, after, .log left rested done⟩
      | sleep ticks =>
          have fewer := ready.slept_lt left
          simp only
          split
          next finished =>
            obtain rfl : ticks = frame.slept + 1 := by omega
            exact ⟨_, _, rfl, rfl, ⟨by simp, fewer, ready.goOn (.inl rfl) later⟩, .wake left⟩
          next unfinished =>
            have begun : frame.slept + 1 < ticks := by omega
            have after := ready.goOn (.inr ⟨ticks, rest, rfl, begun⟩) ⟨here, later⟩
            exact ⟨_, _, rfl, rfl, ⟨by simp, fewer, after⟩, .sleep left begun⟩
      | call made =>
          have rested := ready.rested left (by simp)
          obtain ⟨target, args, done, within⟩ := evaluate_ok here
          simp only [done]
          exact ⟨_, _, rfl, rfl, ⟨within, ready.loaded, .inl rested, later⟩, .call left rested done⟩
      | await awaited =>
          have rested := ready.rested left (by simp)
          obtain ⟨found, done, each, all⟩ := evaluateAll_ok here.2
          simp only [done]
          refine ⟨_, _, rfl, rfl, ⟨⟨ready.loaded, .inl rested, later⟩, fun recipe member => ?_,
            fun flow => ?_⟩, .await left rested here.1 each⟩
          · obtain ⟨⟨target, args⟩, known, rfl⟩ := List.mem_map.1 member
            exact ⟨target, all _ known, rfl⟩
          · rw [List.length_map, ← each.length_eq]
            exact check_of_isShapely here.1 flow
      | ret value =>
          have rested := ready.rested left (by simp)
          obtain ⟨result, done⟩ := Json.exists_substitute_eq_ok.2 here
          simp only [done]
          exact ⟨_, _, rfl, rfl, ⟨rfl, ready.unbound, here, later⟩, .ret left rested done⟩

end Cadence.Scenario
