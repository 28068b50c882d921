import Cadence.Proofs.Task
/-!
When tasks fire. What has become of a task depends on how often it was stepped: how many flows it
has started by then, under which names, and in which ticks these were due.
-/

namespace Cadence

/-- What a task is for: to start one flow after a while, or one flow after another. -/
inductive Plan where
  | timer (after : Nat)
  | interval (every : Nat)

namespace Plan

def gap : Plan → Nat
  | timer after => max after 1
  | interval every => max every 1

def count (plan : Plan) (elapsed : Nat) : Nat :=
  match plan with
  | timer _ => min 1 (elapsed / plan.gap)
  | interval _ => elapsed / plan.gap

/-- The tick in which a task that was registered in tick `start` starts its `k`-th flow. -/
def due (plan : Plan) (start k : Nat) : Nat :=
  start + k * plan.gap - 1

def flowName (plan : Plan) (name : String) (k : Nat) : String :=
  match plan with
  | timer _ => name
  | interval _ => s!"{name}#{k}"

def Allows : Plan → Nat → Prop
  | timer _, k => k = 1
  | interval _, k => 0 < k

def Expired : Plan → Nat → Prop
  | timer _, fired => 0 < fired
  | interval _, _ => False

def opening : Plan → Schedule
  | timer after => .ofTimer after
  | interval every => .ofInterval every

def schedule (plan : Plan) (elapsed : Nat) : Schedule :=
  match plan with
  | timer after => .timer after (min elapsed plan.gap) (decide (plan.gap ≤ elapsed))
  | interval every => .interval every elapsed (plan.count elapsed)

variable {plan : Plan} {elapsed start k : Nat} {name : String}

theorem gap_pos (plan : Plan) : 0 < plan.gap := by
  cases plan with
  | timer after => exact Nat.lt_of_lt_of_le Nat.zero_lt_one (Nat.le_max_right after 1)
  | interval every => exact Nat.lt_of_lt_of_le Nat.zero_lt_one (Nat.le_max_right every 1)

@[simp] theorem count_zero (plan : Plan) : plan.count 0 = 0 := by
  cases plan <;> simp [count]

theorem schedule_zero (plan : Plan) : plan.schedule 0 = plan.opening := by
  have positive := plan.gap_pos
  cases plan with
  | timer after => simp [schedule, opening, Schedule.ofTimer, Nat.not_le.2 positive]
  | interval every => simp [schedule, opening, Schedule.ofInterval]

theorem isFinished_schedule (plan : Plan) (elapsed : Nat) :
    (plan.schedule elapsed).isFinished = true ↔ plan.Expired (plan.count elapsed) := by
  cases plan with
  | timer after =>
      simp only [schedule, Schedule.isFinished, Expired, count, decide_eq_true_eq]
      rw [Nat.lt_min, Nat.div_pos_iff]
      exact ⟨fun reached => ⟨Nat.zero_lt_one, (timer after).gap_pos, reached⟩, fun once => once.2.2⟩
  | interval every => simp [schedule, Schedule.isFinished, Expired]

theorem le_count_iff (plan : Plan) (start elapsed : Nat) (positive : 0 < k) :
    k ≤ plan.count elapsed ↔ plan.Allows k ∧ plan.due start k < start + elapsed := by
  have gap := plan.gap_pos
  have reached : k ≤ elapsed / plan.gap ↔ plan.due start k < start + elapsed := by
    have some : 0 < k * plan.gap := Nat.mul_pos positive gap
    rw [Nat.le_div_iff_mul_le gap, due]
    omega
  cases plan with
  | timer after =>
      rw [← reached]
      simp only [count, Allows]
      constructor
      · intro less
        omega
      · rintro ⟨rfl, less⟩
        omega
  | interval every =>
      rw [← reached]
      exact ⟨fun less => ⟨positive, less⟩, And.right⟩

theorem next_schedule (unfinished : (plan.schedule elapsed).isFinished = false) (name : String)
    (start : Nat) :
    (plan.count (elapsed + 1) = plan.count elapsed ∧
      (plan.schedule elapsed).next name = (some .idle, plan.schedule (elapsed + 1))) ∨
    (plan.count (elapsed + 1) = plan.count elapsed + 1 ∧
      plan.due start (plan.count elapsed + 1) = start + elapsed ∧
      (plan.schedule elapsed).next name =
        (some (.spawn (plan.flowName name (plan.count elapsed + 1))), plan.schedule (elapsed + 1))) := by
  have gap := plan.gap_pos
  cases plan with
  | timer after =>
      have waits : elapsed < (timer after).gap := by
        simpa [schedule, Schedule.isFinished] using unfinished
      have before : (timer after).count elapsed = 0 := by simp [count, Nat.div_eq_of_lt waits]
      have asleep : (timer after).schedule elapsed = .timer after elapsed false := by
        simp [schedule, Nat.min_eq_left (Nat.le_of_lt waits), Nat.not_le.2 waits]
      rw [asleep, before]
      by_cases early : elapsed + 1 < max after 1
      · left
        have early' : elapsed + 1 < (timer after).gap := early
        refine ⟨by simp [count, Nat.div_eq_of_lt early'], ?_⟩
        rw [Schedule.next, if_pos early]
        simp [schedule, Nat.min_eq_left (Nat.le_of_lt early'), Nat.not_le.2 early']
      · right
        have last : (timer after).gap = elapsed + 1 := Nat.le_antisymm (Nat.not_lt.1 early) waits
        refine ⟨by simp [count, last], by rw [due, last]; omega, ?_⟩
        rw [Schedule.next, if_neg early]
        simp [schedule, last, flowName]
  | interval every =>
      -- The count goes up exactly where the interval divides the ticks that have passed.
      have more := Nat.succ_div (a := elapsed) (b := (interval every).gap)
      simp only [schedule, Schedule.next]
      by_cases fires : (elapsed + 1) % max every 1 = 0
      · right
        have divides : (interval every).gap ∣ elapsed + 1 := Nat.dvd_of_mod_eq_zero fires
        rw [if_pos divides] at more
        refine ⟨more, ?_, ?_⟩
        · rw [due, count, ← more, Nat.div_mul_cancel divides]
          omega
        · rw [if_pos fires]
          simp only [count, more, flowName]
      · left
        have apart : ¬ (interval every).gap ∣ elapsed + 1 := fun divides =>
          fires (Nat.mod_eq_zero_of_dvd divides)
        simp only [if_neg apart, Nat.add_zero] at more
        refine ⟨more, ?_⟩
        rw [if_neg fires]
        simp only [count, more]

theorem schedule_of_isFinished (finished : (plan.schedule elapsed).isFinished = true) :
    plan.count (elapsed + 1) = plan.count elapsed ∧
      plan.schedule (elapsed + 1) = plan.schedule elapsed := by
  cases plan with
  | timer after =>
      have past : (timer after).gap ≤ elapsed := by
        simpa [schedule, Schedule.isFinished] using finished
      have once : 1 ≤ elapsed / (timer after).gap := Nat.div_pos past (timer after).gap_pos
      have once' : 1 ≤ (elapsed + 1) / (timer after).gap :=
        Nat.div_pos (Nat.le_succ_of_le past) (timer after).gap_pos
      constructor
      · rw [count, count, Nat.min_eq_left once, Nat.min_eq_left once']
      · simp [schedule, past, Nat.le_succ_of_le past]
  | interval every => simp [schedule, Schedule.isFinished] at finished

end Plan

structure Booking (σ : Type) where
  id : TaskId
  name : String
  plan : Plan
  recipe : Recipe σ
  registeredAt : Tick

namespace Booking

variable {σ : Type} {booking : Booking σ} {elapsed : Nat} {table after : TaskTable σ}

def due (booking : Booking σ) (k : Nat) : Tick :=
  booking.plan.due booking.registeredAt k

def recipeOf (booking : Booking σ) (k : Nat) : Recipe σ :=
  { booking.recipe with name := booking.plan.flowName booking.name k }

def task (booking : Booking σ) (elapsed : Nat) : Task σ where
  id := booking.id
  name := booking.name
  schedule := booking.plan.schedule elapsed
  registeredAt := booking.registeredAt
  spawned := (List.range' 1 (booking.plan.count elapsed)).map (booking.plan.flowName booking.name)
  recipe := booking.recipe

theorem tick_ok (found : table.find? booking.id = some (booking.task elapsed))
    {recipe? : Option (Recipe σ)} (done : TaskTable.tick booking.id table = .ok recipe? after) :
    after.find? booking.id = some (booking.task (elapsed + 1)) ∧
      ((recipe? = none ∧ booking.plan.count (elapsed + 1) = booking.plan.count elapsed) ∨
        (recipe? = some (booking.recipeOf (booking.plan.count elapsed + 1)) ∧
          booking.plan.count (elapsed + 1) = booking.plan.count elapsed + 1 ∧
          booking.due (booking.plan.count elapsed + 1) = booking.registeredAt + elapsed)) := by
  simp only [TaskTable.tick, found] at done
  split at done
  next finished => cases done
  next unfinished =>
    have next := booking.plan.next_schedule (Bool.eq_false_iff.2 unfinished) booking.name
      booking.registeredAt
    injection done with result tasks
    subst tasks result
    rw [TaskTable.find?_set found, if_pos rfl]
    rcases next with ⟨still, next⟩ | ⟨more, due, next⟩
    · refine ⟨congrArg some ?_, .inl ⟨?_, still⟩⟩
      · simp [task, next, still]
      · simp [task, next]
    · refine ⟨congrArg some ?_, .inr ⟨?_, more, due⟩⟩
      · simp [task, next, more, List.range'_1_concat, Nat.add_comm 1]
      · simp [task, next, recipeOf]

theorem task_of_isFinished (finished : (booking.task elapsed).schedule.isFinished = true) :
    booking.task (elapsed + 1) = booking.task elapsed := by
  obtain ⟨count, schedule⟩ := Plan.schedule_of_isFinished finished
  rw [task, task, count, schedule]

end Booking

end Cadence
