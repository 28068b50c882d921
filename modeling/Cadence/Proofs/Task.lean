import Cadence.Proofs.Engine
import Cadence.Task
import Mathlib.Data.List.Nodup
/-!
Stepping scheduled tasks: a task that is scheduled can be stepped, and no other task notices.
-/

namespace Cadence.TaskTable

variable {σ : Type} {starts : σ → Prop} {table : TaskTable σ} {id : Nat}

structure Sound (starts : σ → Prop) (table : TaskTable σ) : Prop where
  numbered : ∀ n task, table.tasks[n]? = some task → task.id = n + 1
  starts : ∀ task ∈ table.tasks, starts task.recipe.start

def Scheduled (table : TaskTable σ) (id : TaskId) : Prop :=
  ∃ task, table.find? id = some task ∧ task.schedule.isFinished = false

theorem sound_empty (starts : σ → Prop) : Sound starts (empty : TaskTable σ) where
  numbered n task found := by simp [empty] at found
  starts task member := by simp [empty] at member

theorem Sound.add (sound : table.Sound starts) (name : String) (schedule : Schedule)
    {recipe : Recipe σ} (start : starts recipe.start) (now : Tick) :
    (table.add name schedule recipe now).2.Sound starts where
  numbered n task found := by
    simp only [TaskTable.add, List.getElem?_append] at found
    split at found
    next => exact sound.numbered n task found
    next outside =>
      have last : n = table.tasks.length := by
        have := (List.getElem?_eq_some_iff.1 found).1
        simp at this
        omega
      subst last
      obtain rfl := Option.some.inj (by simpa using found)
      rfl
  starts task member := by
    simp only [TaskTable.add, List.mem_append, List.mem_singleton] at member
    rcases member with member | rfl
    · exact sound.starts task member
    · exact start

theorem Sound.ids_eq (sound : table.Sound starts) :
    table.tasks.map Task.id = List.range' 1 table.tasks.length := by
  refine List.ext_getElem (by simp) fun n inside _ => ?_
  have found := List.getElem?_eq_getElem (l := table.tasks) (by simpa using inside)
  simp [sound.numbered n _ found, Nat.add_comm]

theorem Sound.nodup_ids (sound : table.Sound starts) : table.ids.Nodup := by
  have all : (table.tasks.map Task.id).Nodup := sound.ids_eq ▸ List.nodup_range'
  exact all.sublist (List.filter_sublist.map Task.id)

theorem Sound.find?_of_mem (sound : table.Sound starts) {task : Task σ} (member : task ∈ table.tasks) :
    table.find? task.id = some task := by
  obtain ⟨n, place⟩ := List.mem_iff_getElem?.1 member
  rw [sound.numbered n task place]
  exact place

theorem Sound.scheduled (sound : table.Sound starts) (member : id ∈ table.ids) :
    table.Scheduled id := by
  obtain ⟨task, left, rfl⟩ := List.mem_map.1 member
  obtain ⟨known, unfinished⟩ := List.mem_filter.1 left
  exact ⟨task, sound.find?_of_mem known, by simpa using unfinished⟩

theorem find?_add {task : Task σ} (found : table.find? id = some task) (name : String)
    (schedule : Schedule) (recipe : Recipe σ) (now : Tick) :
    (table.add name schedule recipe now).2.find? id = some task := by
  cases id with
  | zero => cases found
  | succ n =>
      have inside : n < table.tasks.length := (List.getElem?_eq_some_iff.1 found).1
      exact (List.getElem?_append_left inside).trans found

theorem Sound.mem_map_filter (sound : table.Sound starts) {task : Task σ}
    (found : table.find? id = some task) (kind : Task σ → Bool) :
    id ∈ (table.tasks.filter kind).map Task.id ↔ kind task = true := by
  constructor
  · intro member
    obtain ⟨other, left, rfl⟩ := List.mem_map.1 member
    obtain ⟨known, holds⟩ := List.mem_filter.1 left
    obtain rfl := Option.some.inj ((sound.find?_of_mem known).symm.trans found)
    exact holds
  · intro holds
    cases id with
    | zero => cases found
    | succ n =>
        have member := List.mem_of_getElem? found
        exact List.mem_map.2 ⟨task, List.mem_filter.2 ⟨member, holds⟩, sound.numbered n task found⟩

theorem find?_set {old : Task σ} (found : table.find? id = some old) (task : Task σ) (other : Nat) :
    find? { tasks := table.tasks.set (id - 1) task } other =
      if other = id then some task else table.find? other := by
  cases id with
  | zero => cases found
  | succ n =>
      have inside : n < table.tasks.length := (List.getElem?_eq_some_iff.1 found).1
      cases other with
      | zero => rfl
      | succ m =>
          simp only [find?, Nat.add_sub_cancel, Nat.add_right_cancel_iff]
          by_cases same : m = n
          · rw [if_pos same, same, List.getElem?_set_self inside]
          · rw [if_neg same, List.getElem?_set_ne (Ne.symm same)]

theorem Sound.tick (sound : table.Sound starts) (scheduled : table.Scheduled id) :
    ∃ recipe? after, TaskTable.tick id table = .ok recipe? after ∧ after.Sound starts ∧
      (∀ recipe, recipe? = some recipe → starts recipe.start) ∧
      ∀ other, other ≠ id → table.Scheduled other → after.Scheduled other := by
  obtain ⟨task, found, unfinished⟩ := scheduled
  cases id with
  | zero => cases found
  | succ n =>
      have place : table.tasks[n]? = some task := found
      have member := List.mem_of_getElem? place
      simp only [TaskTable.tick, found, unfinished]
      refine ⟨_, _, rfl, ⟨fun m changed at_m => ?_, fun changed member' => ?_⟩,
        fun recipe fired => ?_, fun other distinct scheduled => ?_⟩
      · rw [List.getElem?_set] at at_m
        split at at_m
        next same =>
          split at at_m
          next inside =>
            obtain rfl := Option.some.inj at_m
            have number := sound.numbered n task place
            simp only [Nat.add_sub_cancel] at same
            rw [← same]
            exact number
          next => cases at_m
        next => exact sound.numbered m changed at_m
      · rcases List.mem_or_eq_of_mem_set member' with old | rfl
        · exact sound.starts changed old
        · exact sound.starts task member
      · obtain ⟨name, -, rfl⟩ := Option.map_eq_some_iff.1 fired
        exact sound.starts task member
      · obtain ⟨task', found', unfinished'⟩ := scheduled
        exact ⟨task', ((find?_set found _ other).trans (if_neg distinct)).trans found', unfinished'⟩

theorem find?_tick_of_ne {recipe? : Option (Recipe σ)} {after : TaskTable σ} {other : Nat}
    (done : tick id table = .ok recipe? after) (apart : other ≠ id) :
    after.find? other = table.find? other := by
  unfold tick at done
  cases found : table.find? id with
  | none =>
      simp only [found] at done
      cases done
  | some task =>
      simp only [found] at done
      split at done
      · cases done
      · injection done with _ same
        rw [← same, find?_set found, if_neg apart]

theorem mem_ids_of_tick {other : TaskId} (member : other ∈ ((tick id).after table).ids) :
    other ∈ table.ids := by
  unfold Engine.after at member
  cases found : table.find? id with
  | none => simpa only [tick, found] using member
  | some task =>
      by_cases finished : task.schedule.isFinished = true
      · simpa only [tick, found, finished, if_true] using member
      · simp only [tick, found, if_neg finished] at member
        obtain ⟨changed, left, rfl⟩ := List.mem_map.1 member
        obtain ⟨known, unfinished⟩ := List.mem_filter.1 left
        cases id with
        | zero => cases found
        | succ n =>
            rcases List.mem_or_eq_of_mem_set known with old | rfl
            · exact List.mem_map_of_mem (List.mem_filter.2 ⟨old, unfinished⟩)
            · refine List.mem_map.2 ⟨task, List.mem_filter.2 ⟨?_, by simpa using finished⟩, rfl⟩
              exact List.mem_of_getElem? found

theorem mem_ids_of_ticks {other : TaskId} {ids : List TaskId}
    (member : other ∈ (ids.foldl (fun table id => (tick id).after table) table).ids) :
    other ∈ table.ids := by
  induction ids generalizing table with
  | nil => exact member
  | cons id ids ih => exact mem_ids_of_tick (ih member)

end Cadence.TaskTable
