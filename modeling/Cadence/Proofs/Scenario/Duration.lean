import Cadence.Proofs.Scenario.Config
import Mathlib.Algebra.GroupWithZero.Nat
import Mathlib.Data.Fintype.Card
import Mathlib.Data.Set.Finite.List
import Mathlib.Logic.Relation
/-!
How many ticks a method takes. Where no method leads back to itself, its duration is the sum over
its instructions: a sleep takes its ticks, a call what the method takes that it reaches, and an
await what its strategy makes of the durations of its calls.
-/

namespace Cadence

def Strategy.time (strategy : Strategy) (times : List Nat) : Nat :=
  match strategy with
  | .single => times.head?.getD 0
  | .all => times.max?.getD 0
  | .race => times.min?.getD 0

namespace Scenario

open Relation

def Instruction.isReturn : Instruction → Bool
  | ret _ => true
  | _ => false

def executed (body : List Instruction) : List Instruction :=
  body.takeWhile fun instruction => !instruction.isReturn

def Program.Leads (program : Program) (caller callee : Target) : Prop :=
  ∃ instruction ∈ executed caller.method.body, ∃ call ∈ instruction.calls,
    program.resolve call.service call.method = some callee

/-- Neither the method nor any that it reaches leads back to itself. -/
def Program.Unwinds (program : Program) (target : Target) : Prop :=
  ∀ reached, ReflTransGen program.Leads target reached → ¬ TransGen program.Leads reached reached

section Times

variable (program : Program) (time : Target → Nat)

def callTime (call : Call) : Nat :=
  match program.resolve call.service call.method with
  | some target => time target
  | none => 0

def instructionTime : Instruction → Nat
  | .sleep ticks => ticks
  | .call made => callTime program time made
  | .await awaited => awaited.strategy.time (awaited.calls.map (callTime program time))
  | .log _ | .ret _ => 0

def bodyTime (body : List Instruction) : Nat :=
  ((executed body).map (instructionTime program time)).sum

/-- What the durations of methods that unwind have to be. -/
def Program.Durations : Prop :=
  ∀ target, program.Unwinds target → time target = bodyTime program time target.method.body

end Times

variable {program : Program} {time time' : Target → Nat} {target callee : Target}
  {body rest : List Instruction} {instruction : Instruction}

theorem executed_cons (instruction : Instruction) (rest : List Instruction) :
    executed (instruction :: rest) =
      if instruction.isReturn then [] else instruction :: executed rest := by
  unfold executed
  rw [List.takeWhile_cons]
  cases instruction.isReturn <;> rfl

theorem bodyTime_cons (going : instruction.isReturn = false) :
    bodyTime program time (instruction :: rest) =
      instructionTime program time instruction + bodyTime program time rest := by
  simp [bodyTime, executed_cons, going]

theorem bodyTime_ret (value : Json) : bodyTime program time (.ret value :: rest) = 0 := by
  simp [bodyTime, executed_cons, Instruction.isReturn]

theorem bodyTime_dropWhile (body : List Instruction) :
    bodyTime program time (body.dropWhile Instruction.isPause) = bodyTime program time body := by
  induction body with
  | nil => rfl
  | cons instruction rest ih =>
      rw [List.dropWhile_cons]
      split
      next pause =>
        unfold Instruction.isPause at pause
        split at pause
        · rw [bodyTime_cons rfl, ih]
          simp [instructionTime]
        · cases pause
      next => rfl

theorem bodyTime_congr (same : ∀ instruction ∈ executed body, ∀ call ∈ instruction.calls, ∀ callee,
    program.resolve call.service call.method = some callee → time callee = time' callee) :
    bodyTime program time body = bodyTime program time' body := by
  have each (instruction : Instruction) (member : instruction ∈ executed body) (call : Call)
      (made : call ∈ instruction.calls) :
      callTime program time call = callTime program time' call := by
    unfold callTime
    cases reached : program.resolve call.service call.method with
    | none => rfl
    | some callee => exact same instruction member call made callee reached
  unfold bodyTime
  refine congrArg List.sum (List.map_congr_left fun instruction member => ?_)
  cases instruction with
  | log value => rfl
  | sleep ticks => rfl
  | call made => exact each _ member made (List.mem_singleton_self made)
  | await awaited =>
      exact congrArg awaited.strategy.time (List.map_congr_left fun call made => each _ member call made)
  | ret value => rfl

theorem Program.Unwinds.of_leads (unwinds : program.Unwinds target)
    (leads : program.Leads target callee) : program.Unwinds callee :=
  fun reached path => unwinds reached (.head leads path)

def Program.targets (program : Program) : List Target :=
  program.flatMap fun image => image.methods.zipIdx.map fun (method, offset) => ⟨image, offset, method⟩

theorem mem_targets_of_leads (leads : program.Leads target callee) : callee ∈ program.targets := by
  obtain ⟨-, -, call, -, reached⟩ := leads
  obtain ⟨image, inProgram, reached⟩ := Option.bind_eq_some_iff.1 reached
  obtain ⟨offset, -, reached⟩ := Option.bind_eq_some_iff.1 reached
  obtain ⟨method, declared, same⟩ := Option.bind_eq_some_iff.1 reached
  obtain rfl := Option.some.inj same
  refine List.mem_flatMap.2 ⟨image, List.mem_of_find?_eq_some inProgram, ?_⟩
  exact List.mem_map.2 ⟨(method, offset), List.mem_zipIdx_iff_getElem?.2 declared, rfl⟩

/-- Methods of a program unwind if each one ranks above those that it leads to. -/
theorem Program.Unwinds.of_rank (rank : Target → Nat) (falls : ∀ caller ∈ program.targets, ∀ callee,
    program.Leads caller callee → rank callee < rank caller) (member : target ∈ program.targets) :
    program.Unwinds target := by
  intro reached path cycle
  have inside : reached ∈ program.targets := by
    cases path with
    | refl => exact member
    | tail _ leads => exact mem_targets_of_leads leads
  have below (callee : Target) (path : TransGen program.Leads reached callee) :
      rank callee < rank reached := by
    induction path with
    | single leads => exact falls reached inside _ leads
    | @tail caller callee path leads ih =>
        obtain ⟨_, _, last⟩ := (TransGen.tail'_iff).1 path
        exact Nat.lt_trans (falls caller (mem_targets_of_leads last) callee leads) ih
  exact Nat.lt_irrefl _ (below reached cycle)

def Program.Below (program : Program) (callee caller : Target) : Prop :=
  program.Unwinds caller ∧ program.Leads caller callee

theorem leads_of_below (path : TransGen program.Below callee target) :
    program.Unwinds target ∧ TransGen program.Leads target callee := by
  induction path with
  | single below => exact ⟨below.1, .single below.2⟩
  | tail _ below ih => exact ⟨below.1, .head below.2 ih.2⟩

theorem wellFounded_below (program : Program) : WellFounded program.Below := by
  let among : Set Target := { target | target ∈ program.targets }
  have finite : Finite among := List.finite_toSet program.targets
  let r (callee caller : among) : Prop := TransGen program.Below callee.1 caller.1
  have transitive : IsTrans among r := ⟨fun _ _ _ => TransGen.trans⟩
  have irreflexive : Std.Irrefl r := by
    refine ⟨fun target cycle => ?_⟩
    obtain ⟨unwinds, cycle⟩ := leads_of_below cycle
    exact unwinds target.1 .refl cycle
  have wellFounded : WellFounded r := Finite.wellFounded_of_trans_of_irrefl r
  have inside (target : among) : Acc program.Below target.1 := by
    induction target using wellFounded.induction with
    | h target ih =>
        refine Acc.intro _ fun callee below => ?_
        exact ih ⟨callee, mem_targets_of_leads below.2⟩ (.single below)
  exact ⟨fun target => Acc.intro _ fun callee below => inside ⟨callee, mem_targets_of_leads below.2⟩⟩

theorem exists_durations (program : Program) : ∃ time, program.Durations time := by
  classical
  let within (target : Target) (time : (callee : Target) → program.Below callee target → Nat) : Nat :=
    bodyTime program (fun callee => if below : program.Below callee target then time callee below else 0)
      target.method.body
  refine ⟨(wellFounded_below program).fix within, fun target unwinds => ?_⟩
  rw [WellFounded.fix_eq]
  refine bodyTime_congr fun instruction member call made callee reached => ?_
  exact dif_pos ⟨unwinds, instruction, member, call, made, reached⟩

end Scenario

end Cadence
