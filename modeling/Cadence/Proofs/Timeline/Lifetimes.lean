import Cadence.Timeline
import Mathlib.Data.List.Sort
/-!
The lifetimes that a timeline gives to flows. They are in the order of the flows' ids, and that of
a flow comes from the events of this flow alone, in the order they were told.
-/

namespace Cadence.Timeline

variable {timeline : Timeline} {known : List (FlowId × Lifetime)} {id : FlowId}
  {lifetime : Lifetime}

def Sorted (known : List (FlowId × Lifetime)) : Prop :=
  (known.map Prod.fst).Pairwise (· < ·)

theorem sorted_nil : Sorted [] := .nil

theorem sorted_cons {entry : FlowId × Lifetime} :
    Sorted (entry :: known) ↔ (∀ id ∈ known.map Prod.fst, entry.1 < id) ∧ Sorted known :=
  List.pairwise_cons

theorem mem_keys_enter (event : Event) :
    id ∈ (enter event known).map Prod.fst ↔ id = event.flow ∨ id ∈ known.map Prod.fst := by
  induction known with
  | nil => simp [enter]
  | cons entry rest ih =>
      unfold enter
      split
      next same => simp [same]
      next =>
        split
        · simp
        · rw [List.map_cons, List.mem_cons, ih, List.map_cons, List.mem_cons]
          exact or_left_comm

theorem sorted_enter (sorted : Sorted known) (event : Event) : Sorted (enter event known) := by
  induction known with
  | nil => simp [Sorted, enter]
  | cons entry rest ih =>
      obtain ⟨ahead, sorted'⟩ := sorted_cons.1 sorted
      unfold enter
      split
      · exact sorted
      next apart =>
        split
        next earlier =>
          refine sorted_cons.2 ⟨fun id member => ?_, sorted⟩
          rcases List.mem_cons.1 member with rfl | member
          · exact earlier
          · exact Nat.lt_trans earlier (ahead id member)
        next notEarlier =>
          refine sorted_cons.2 ⟨fun id member => ?_, ih sorted'⟩
          rcases (mem_keys_enter event).1 member with rfl | member
          · exact Nat.lt_of_le_of_ne (Nat.le_of_not_lt notEarlier) (Ne.symm apart)
          · exact ahead id member

theorem lookup_eq_none (missing : id ∉ known.map Prod.fst) : known.lookup id = none := by
  rw [List.lookup_eq_none_iff]
  intro entry member
  have apart : id ≠ entry.1 := fun same => missing (same ▸ List.mem_map_of_mem member)
  simpa using apart

theorem mem_iff_lookup (sorted : Sorted known) :
    (id, lifetime) ∈ known ↔ known.lookup id = some lifetime := by
  induction known with
  | nil => simp
  | cons entry rest ih =>
      obtain ⟨first, lifetime'⟩ := entry
      obtain ⟨ahead, sorted⟩ := sorted_cons.1 sorted
      by_cases same : id = first
      · subst same
        have later : (id, lifetime) ∉ rest := fun member =>
          Nat.lt_irrefl id (ahead id (List.mem_map_of_mem member))
        simp [later, eq_comm]
      · have apart : (id == first) = false := by simpa using same
        rw [List.lookup_cons, apart, ← ih sorted]
        simp [same]

theorem lookup_enter (sorted : Sorted known) (event : Event) (id : FlowId) :
    (enter event known).lookup id =
      if event.flow = id then some (extend (known.lookup id) event) else known.lookup id := by
  induction known with
  | nil =>
      by_cases own : event.flow = id
      · simp [enter, own]
      · have apart : (id == event.flow) = false := by simpa using Ne.symm own
        simp [enter, List.lookup_cons, apart, own]
  | cons entry rest ih =>
      obtain ⟨first, lifetime⟩ := entry
      obtain ⟨ahead, sorted⟩ := sorted_cons.1 sorted
      by_cases own : event.flow = id
      · subst own
        rw [if_pos rfl]
        unfold enter
        split
        next same => simp [same]
        next apart =>
          have differs : (event.flow == first) = false := by simpa using apart
          split
          -- The entries are sorted, so that the flow has none behind this one either.
          next earlier =>
            have missing : event.flow ∉ rest.map Prod.fst := fun member =>
              Nat.lt_asymm earlier (ahead _ member)
            rw [List.lookup_cons_self, List.lookup_cons, differs]
            simp [lookup_eq_none missing]
          next => simpa only [List.lookup_cons, differs, if_pos] using ih sorted
      · rw [if_neg own]
        have differs : (id == event.flow) = false := by simpa using Ne.symm own
        unfold enter
        split
        next same => simp only [List.lookup_cons, ← same, differs]
        next =>
          split
          next => rw [List.lookup_cons, differs]
          next =>
            have rest := ih sorted
            rw [if_neg own] at rest
            simp only [List.lookup_cons, rest]

def lifetime? (events : List Event) : Option Lifetime :=
  events.foldl (fun known event => some (extend known event)) none

theorem foldl_enter (events : List Event) (sorted : Sorted known) (id : FlowId) :
    Sorted (events.foldl (fun known event => enter event known) known) ∧
      (events.foldl (fun known event => enter event known) known).lookup id =
        (events.filter (·.flow = id)).foldl (fun known event => some (extend known event))
          (known.lookup id) := by
  induction events generalizing known with
  | nil => exact ⟨sorted, rfl⟩
  | cons event events ih =>
      obtain ⟨sorted', found⟩ := ih (sorted_enter sorted event)
      refine ⟨sorted', ?_⟩
      rw [List.foldl_cons, found, lookup_enter sorted]
      by_cases own : event.flow = id
      · simp [own]
      · simp [own]

theorem sorted_lifetimes (timeline : Timeline) : Sorted timeline.lifetimes :=
  (foldl_enter timeline.events sorted_nil 0).1

theorem lookup_lifetimes (timeline : Timeline) (id : FlowId) :
    timeline.lifetimes.lookup id = lifetime? (timeline.events.filter (·.flow = id)) :=
  (foldl_enter timeline.events sorted_nil id).2

theorem mem_lifetimes : (id, lifetime) ∈ timeline.lifetimes ↔
    lifetime? (timeline.events.filter (·.flow = id)) = some lifetime := by
  rw [mem_iff_lookup timeline.sorted_lifetimes, lookup_lifetimes]

theorem mem_durations {n : Nat} : (id, n) ∈ timeline.durations ↔
    ∃ lifetime tick kind, (id, lifetime) ∈ timeline.lifetimes ∧
      lifetime.ending = some (tick, kind) ∧ tick - lifetime.start = n := by
  unfold durations
  rw [List.mem_filterMap]
  constructor
  · rintro ⟨⟨id', lifetime⟩, member, seen⟩
    obtain ⟨⟨tick, kind⟩, ended, same⟩ := Option.map_eq_some_iff.1 seen
    obtain ⟨rfl, rfl⟩ := Prod.mk.inj same
    exact ⟨lifetime, tick, kind, member, ended, rfl⟩
  · rintro ⟨lifetime, tick, kind, member, ended, rfl⟩
    exact ⟨(id, lifetime), member, by simp [ended]⟩

theorem insertByStart_perm (entry : FlowId × Lifetime) (entries : List (FlowId × Lifetime)) :
    (insertByStart entry entries).Perm (entry :: entries) := by
  induction entries with
  | nil => exact .refl _
  | cons other rest ih =>
      unfold insertByStart
      split
      · exact .refl _
      · exact (ih.cons other).trans (.swap entry other rest)

theorem foldr_insertByStart_perm (entries : List (FlowId × Lifetime)) :
    (entries.foldr insertByStart []).Perm entries := by
  induction entries with
  | nil => exact .refl _
  | cons entry rest ih => exact (insertByStart_perm entry _).trans (ih.cons entry)

theorem rows_perm (timeline : Timeline) : timeline.rows.Perm timeline.lifetimes :=
  foldr_insertByStart_perm timeline.lifetimes

theorem span_ofEvents {events : List Event} {span : Tick}
    (within : ∀ event ∈ events, event.tick ≤ span) : (ofEvents span events).span = span := by
  unfold ofEvents
  simp only
  induction events with
  | nil => rfl
  | cons event events ih =>
      rw [List.foldl_cons, Nat.max_eq_left (within event (List.mem_cons_self ..))]
      exact ih fun other member => within other (List.mem_cons_of_mem _ member)

end Cadence.Timeline
