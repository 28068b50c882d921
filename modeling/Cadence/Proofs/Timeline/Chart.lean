import Cadence.Proofs.Timeline.Lifetimes
import Mathlib.Data.List.Induction
import Mathlib.Data.Prod.Lex
import Mathlib.Order.MinMax
/-!
# The chart of flows

Each flow has one row, and the rows are in the order in which the flows began. The scale is an
integer division and is cut off on both sides, so that every bar is between one and fifty characters
long and lies within the fifty columns.
-/

namespace Cadence.Timeline

variable {timeline : Timeline} {lifetime other : Lifetime}

/-! ## The order of the rows -/

def rank (entry : FlowId × Lifetime) : Tick ×ₗ FlowId :=
  toLex (entry.2.start, entry.1)

theorem rank_le {entry other : FlowId × Lifetime} : rank entry ≤ rank other ↔
    entry.2.start < other.2.start ∨ (entry.2.start = other.2.start ∧ entry.1 ≤ other.1) :=
  Prod.Lex.toLex_le_toLex

theorem rank_ne {entry other : FlowId × Lifetime} (apart : entry.1 ≠ other.1) :
    rank entry ≠ rank other := by
  intro same
  exact apart (congrArg (fun place => (ofLex place).2) same)

theorem increasing_insertByStart {entry : FlowId × Lifetime} {entries : List (FlowId × Lifetime)}
    (fresh : entry.1 ∉ entries.map Prod.fst) (increasing : entries.Pairwise (rank · < rank ·)) :
    (insertByStart entry entries).Pairwise (rank · < rank ·) := by
  induction entries with
  | nil => exact List.pairwise_singleton ..
  | cons first rest ih =>
      rw [List.map_cons, List.mem_cons, not_or] at fresh
      obtain ⟨apart, fresh⟩ := fresh
      obtain ⟨ahead, increasing'⟩ := List.pairwise_cons.1 increasing
      unfold insertByStart
      by_cases earlier : rank entry ≤ rank first
      · rw [if_pos (rank_le.1 earlier)]
        apply List.pairwise_cons.2 ⟨_, increasing⟩
        intro later member
        cases List.mem_cons.1 member with
        | inl here => exact here ▸ lt_of_le_of_ne earlier (rank_ne apart)
        | inr behind => exact lt_of_le_of_lt earlier (ahead later behind)
      · rw [if_neg fun ahead => earlier (rank_le.2 ahead)]
        apply List.pairwise_cons.2 ⟨_, ih fresh increasing'⟩
        intro later member
        cases List.mem_cons.1 ((insertByStart_perm entry rest).mem_iff.1 member) with
        | inl here => exact here ▸ lt_of_not_ge earlier
        | inr behind => exact ahead later behind

theorem nodup_lifetimes (timeline : Timeline) : (timeline.lifetimes.map Prod.fst).Nodup := by
  apply timeline.sorted_lifetimes.imp
  intro id later ahead same
  exact Nat.lt_irrefl later (same ▸ ahead)

theorem increasing_rows (timeline : Timeline) : timeline.rows.Pairwise (rank · < rank ·) := by
  have once := timeline.nodup_lifetimes
  unfold rows
  generalize timeline.lifetimes = entries at once
  induction entries with
  | nil => exact .nil
  | cons entry rest ih =>
      obtain ⟨fresh, once⟩ := List.nodup_cons.1 once
      apply increasing_insertByStart _ (ih once)
      exact fun member => fresh (((foldr_insertByStart_perm rest).map Prod.fst).mem_iff.1 member)

theorem mem_keys_lifetimes {id : FlowId} :
    id ∈ timeline.lifetimes.map Prod.fst ↔ id ∈ timeline.events.map Event.flow := by
  unfold lifetimes
  induction timeline.events using List.reverseRec with
  | nil => rfl
  | append_singleton events event ih =>
      rw [List.foldl_concat, mem_keys_enter, ih, List.map_append, List.mem_append, List.map_singleton,
        List.mem_singleton, or_comm]

/-! ## Columns -/

theorem column_le (timeline : Timeline) (tick : Tick) : timeline.column tick ≤ width := by
  apply Nat.div_le_of_le_mul
  exact Nat.mul_le_mul_right width (Nat.min_le_right ..)

theorem column_mono (timeline : Timeline) : Monotone timeline.column := by
  intro tick later ahead
  apply Nat.div_le_div_right
  exact Nat.mul_le_mul_right width (min_le_min_right _ ahead)

def first (timeline : Timeline) (start : Tick) : Nat :=
  min (timeline.column start) (width - 1)

def last (timeline : Timeline) (start finish : Tick) : Nat :=
  max (timeline.column finish) (timeline.first start + 1)

theorem first_lt_last (timeline : Timeline) (start finish : Tick) :
    timeline.first start < timeline.last start finish :=
  Nat.le_max_right ..

theorem last_le (timeline : Timeline) (start finish : Tick) :
    timeline.last start finish ≤ width := by
  apply Nat.max_le.2 ⟨timeline.column_le finish, _⟩
  have within : timeline.first start ≤ width - 1 := Nat.min_le_right ..
  exact Nat.succ_le_of_lt (Nat.lt_of_le_of_lt within (by decide))

theorem first_mono (timeline : Timeline) : Monotone timeline.first :=
  fun _ _ later => min_le_min_right _ (timeline.column_mono later)

theorem last_mono {start start' finish finish' : Tick} (later : start ≤ start')
    (later' : finish ≤ finish') : timeline.last start finish ≤ timeline.last start' finish' :=
  max_le_max (timeline.column_mono later') (Nat.succ_le_succ (timeline.first_mono later))

theorem column_machine (small : timeline.span * width < UInt64.size) (tick : UInt64) :
    (min tick (.ofNat (max timeline.span 1)) * .ofNat width /
      .ofNat (max timeline.span 1)).toNat = timeline.column tick.toNat := by
  have total : max timeline.span 1 * width < UInt64.size := by
    rw [← Nat.mul_max_mul_right]
    exact Nat.max_lt.2 ⟨small, by decide⟩
  have total' : max timeline.span 1 < UInt64.size :=
    Nat.lt_of_le_of_lt (Nat.le_mul_of_pos_right _ (by decide)) total
  have product : min tick.toNat (max timeline.span 1) * width < UInt64.size :=
    Nat.lt_of_le_of_lt (Nat.mul_le_mul_right width (Nat.min_le_right ..)) total
  rw [UInt64.toNat_div, UInt64.toNat_mul, UInt64.toNat_min, UInt64.toNat_ofNat_of_lt' total',
    UInt64.toNat_ofNat_of_lt' (by decide), Nat.mod_eq_of_lt product]
  rfl

/-! ## Rows -/

structure Row where
  label : List Char
  first : Nat
  last : Nat
  fill : Char
  note : String
  labelled : label.length = labelWidth
  nonempty : first < last
  within : last ≤ width

namespace Row

def area (row : Row) : List Char :=
  List.replicate row.first ' ' ++ List.replicate (row.last - row.first) row.fill ++
    List.replicate (width - row.last) ' '

def text (row : Row) : List Char :=
  row.label ++ ' ' :: '|' :: row.area ++ '|' :: ' ' :: '(' :: row.note.toList ++ [')', '\n']

theorem length_area (row : Row) : row.area.length = width := by
  have nonempty := row.nonempty
  have within := row.within
  simp only [area, List.length_append, List.length_replicate]
  omega

end Row

/-- How the bar of a flow that began at a tick is drawn: up to where, with what, and the remark
behind it. -/
inductive Drawn (span start : Tick) : Option (Tick × EventKind) → Tick → Char → String → Prop
  | completed (n : Nat) :
      Drawn span start (some (start + n, .completed)) (start + n) '#' s!"{n} ticks"
  | cancelled (n : Nat) :
      Drawn span start (some (start + n, .cancelled)) (start + n) 'x' s!"cancelled after {n} ticks"
  | alive : Drawn span start none span '~' "running"

theorem length_fitLabel (text : List Char) : (fitLabel text).length = labelWidth := by
  unfold fitLabel
  split
  next short =>
    rw [padRight, List.length_append, List.length_replicate]
    omega
  next long =>
    have whole : labelWidth - 3 ≤ text.length := by omega
    rw [List.length_append, List.length_take, Nat.min_eq_left whole]
    rfl

theorem prefix_fitLabel (text : List Char) : text.take (labelWidth - 3) <+: fitLabel text := by
  unfold fitLabel
  split
  next => exact (List.take_prefix _ text).trans (List.prefix_append ..)
  next => exact List.prefix_append ..

theorem bar_eq (timeline : Timeline) (lifetime : Lifetime) :
    timeline.bar lifetime = List.replicate (timeline.first lifetime.start) ' ' ++
      List.replicate (timeline.last lifetime.start (timeline.tail lifetime).1 -
        timeline.first lifetime.start) (timeline.tail lifetime).2.1 := by
  have length : max (timeline.column (timeline.tail lifetime).1 - timeline.first lifetime.start) 1 =
      timeline.last lifetime.start (timeline.tail lifetime).1 - timeline.first lifetime.start := by
    unfold last
    omega
  rw [← length]
  rfl

def laidOut (timeline : Timeline) (entry : FlowId × Lifetime) : Row where
  label := label entry.1 entry.2
  first := timeline.first entry.2.start
  last := timeline.last entry.2.start (timeline.tail entry.2).1
  fill := (timeline.tail entry.2).2.1
  note := (timeline.tail entry.2).2.2
  labelled := length_fitLabel _
  nonempty := timeline.first_lt_last ..
  within := timeline.last_le ..

theorem prefix_label (timeline : Timeline) (entry : FlowId × Lifetime) :
    s!"#{entry.1} {entry.2.name}".toList.take 13 <+: (timeline.laidOut entry).label := by
  simp only [laidOut, label]
  exact prefix_fitLabel _

theorem row_eq (timeline : Timeline) (entry : FlowId × Lifetime) :
    timeline.row entry = (timeline.laidOut entry).text := by
  have padded : padRight width (timeline.bar entry.2) = (timeline.laidOut entry).area := by
    have nonempty := timeline.first_lt_last entry.2.start (timeline.tail entry.2).1
    have length : timeline.first entry.2.start +
        (timeline.last entry.2.start (timeline.tail entry.2).1 - timeline.first entry.2.start) =
        timeline.last entry.2.start (timeline.tail entry.2).1 := by omega
    rw [padRight, bar_eq, List.length_append, List.length_replicate, List.length_replicate, length]
    rfl
  simp only [row, Row.text, padded]
  simp only [laidOut]

theorem lifetime?_concat (events : List Event) (event : Event) :
    lifetime? (events ++ [event]) = some (extend (lifetime? events) event) := by
  rw [lifetime?, List.foldl_concat]
  rfl

theorem ended_of_lifetime? {events : List Event} {tick : Tick} {kind : EventKind}
    (lived : lifetime? events = some lifetime) (ended : lifetime.ending = some (tick, kind)) :
    kind = .completed ∨ kind = .cancelled := by
  induction events using List.reverseRec generalizing lifetime with
  | nil => cases lived
  | append_singleton events event ih =>
      rw [lifetime?_concat, Option.some.injEq] at lived
      subst lived
      cases how : event.kind with
      | spawned =>
          -- A flow that is spawned once more keeps its ending, if it has one.
          cases before : lifetime? events with
          | none => simp [extend, how, before] at ended
          | some known => exact ih before (by simpa [extend, how, before] using ended)
      | completed =>
          simp only [extend, how, Option.some.injEq, Prod.mk.injEq] at ended
          exact .inl ended.2.symm
      | cancelled =>
          simp only [extend, how, Option.some.injEq, Prod.mk.injEq] at ended
          exact .inr ended.2.symm

def Forward (lifetime : Lifetime) : Prop :=
  ∀ ending ∈ lifetime.ending, lifetime.start ≤ ending.1

instance (lifetime : Lifetime) : Decidable (Forward lifetime) :=
  inferInstanceAs (Decidable (∀ ending ∈ lifetime.ending, lifetime.start ≤ ending.1))

theorem drawn_tail {events : List Event} (lived : lifetime? events = some lifetime)
    (forward : Forward lifetime) : Drawn timeline.span lifetime.start lifetime.ending
      (timeline.tail lifetime).1 (timeline.tail lifetime).2.1 (timeline.tail lifetime).2.2 := by
  unfold tail
  cases ended : lifetime.ending with
  | none => exact .alive
  | some ending =>
      obtain ⟨tick, kind⟩ := ending
      obtain ⟨n, rfl⟩ := Nat.exists_eq_add_of_le (forward _ ended)
      cases ended_of_lifetime? lived ended with
      | inl completed =>
          subst completed
          simpa only [Nat.add_sub_cancel_left] using Drawn.completed n
      | inr cancelled =>
          subst cancelled
          simpa only [Nat.add_sub_cancel_left] using Drawn.cancelled n

/-! ## The chart of some events -/

variable {events : List Event} {span : Tick}

theorem foldl_add (events : List Event) (timeline : Timeline) :
    events.foldl add timeline = { events := timeline.events ++ events,
                                  span := (ofEvents timeline.span events).span } := by
  induction events generalizing timeline with
  | nil => simp [ofEvents]
  | cons event events ih => simp [ih, add, ofEvents]

theorem ofEvents_eq (span : Tick) (events : List Event) :
    ofEvents span events = events.foldl add { span } := by
  rw [foldl_add]
  rfl

theorem tick_le_span (timeline : Timeline) : ∀ event ∈ events,
    event.tick ≤ (events.foldl add timeline).span := by
  induction events using List.reverseRec with
  | nil => simp
  | append_singleton events event ih =>
      intro told member
      rw [List.foldl_concat]
      cases List.mem_append.1 member with
      | inl before => exact (ih told before).trans (Nat.le_max_left ..)
      | inr now => exact List.mem_singleton.1 now ▸ Nat.le_max_right ..

theorem mem_keys_rows {id : FlowId} :
    id ∈ timeline.rows.map Prod.fst ↔ id ∈ timeline.events.map Event.flow := by
  rw [(timeline.rows_perm.map Prod.fst).mem_iff, mem_keys_lifetimes]

theorem rows_eq_nil : timeline.rows = [] ↔ timeline.events = [] := by
  rw [← List.map_eq_nil_iff (f := Prod.fst), ← List.map_eq_nil_iff (f := Event.flow)]
  simp only [List.eq_nil_iff_forall_not_mem, mem_keys_rows]

theorem chart_eq (timeline : Timeline) : timeline.chart = "\nExecution Timeline:\n\n" ++
    if timeline.events = [] then ""
    else String.ofList (timeline.rows.flatMap timeline.row) ++
      s!"\nTotal: {timeline.span} ticks\n" := by
  unfold chart
  by_cases none : timeline.events = []
  · rw [if_pos none, rows_eq_nil.2 none]
    rfl
  · have some : timeline.rows.isEmpty = false := by simpa [rows_eq_nil] using none
    rw [if_neg none, some, ← String.append_assoc]
    rfl

/-- Each flow has one row, in the order in which the flows began, and every row fits. -/
structure Fits (timeline : Timeline) (events : List Event) : Prop where
  reached : ∀ event ∈ events, event.tick ≤ timeline.span
  once : (timeline.rows.map Prod.fst).Nodup
  complete : ∀ id, id ∈ timeline.rows.map Prod.fst ↔ id ∈ events.map Event.flow
  lived : ∀ entry ∈ timeline.rows,
    lifetime? (events.filter (·.flow = entry.1)) = some entry.2
  ordered : timeline.rows.Pairwise fun entry other =>
    entry.2.start < other.2.start ∨ (entry.2.start = other.2.start ∧ entry.1 < other.1)
  chart : timeline.chart = "\nExecution Timeline:\n\n" ++ if events = [] then ""
    else String.ofList (timeline.rows.flatMap timeline.row) ++
      s!"\nTotal: {timeline.span} ticks\n"
  laid : ∀ entry ∈ timeline.rows, ∃ (row : Row) (finish : Tick), timeline.row entry = row.text ∧
    row.label.length = 16 ∧ s!"#{entry.1} {entry.2.name}".toList.take 13 <+: row.label ∧
    row.area.length = 50 ∧
    Drawn timeline.span entry.2.start entry.2.ending finish row.fill row.note ∧
    row.first = timeline.first entry.2.start ∧ row.last = timeline.last entry.2.start finish
  starts : Monotone timeline.first
  ends : Monotone timeline.column
  -- A bar shorter than a column is drawn as one column from where it starts, so that where it stops
  -- depends on both ticks.
  bars : ∀ start start' finish finish', start ≤ start' → finish ≤ finish' →
    timeline.last start finish ≤ timeline.last start' finish'
  exact : ∀ tick : UInt64, (min tick (.ofNat (max timeline.span 1)) * .ofNat 50 /
    .ofNat (max timeline.span 1)).toNat = timeline.column tick.toNat

theorem every_row_fits (built : events.foldl add { span } = timeline)
    (forward : ∀ entry ∈ timeline.lifetimes, Forward entry.2)
    (small : timeline.span * 50 < UInt64.size) : Fits timeline events := by
  have told : timeline.events = events := by
    rw [← built, foldl_add]
    rfl
  have lived : ∀ entry ∈ timeline.rows,
      lifetime? (events.filter (·.flow = entry.1)) = some entry.2 := by
    intro entry member
    rw [← told]
    exact mem_lifetimes.1 (timeline.rows_perm.mem_iff.1 member)
  exact {
    reached := by
      rw [← built]
      exact tick_le_span _
    once := (timeline.rows_perm.map Prod.fst).nodup_iff.2 timeline.nodup_lifetimes
    complete := by
      intro id
      rw [mem_keys_rows, told]
    lived := lived
    ordered := timeline.increasing_rows.imp Prod.Lex.toLex_lt_toLex.1
    chart := by rw [chart_eq, told]
    laid := by
      intro entry member
      have forward := forward entry (timeline.rows_perm.mem_iff.1 member)
      exact ⟨timeline.laidOut entry, _, timeline.row_eq entry, (timeline.laidOut entry).labelled,
        timeline.prefix_label entry, Row.length_area _, drawn_tail (lived entry member) forward, rfl, rfl⟩
    starts := timeline.first_mono
    ends := timeline.column_mono
    bars := fun start start' finish finish' => last_mono
    exact := column_machine small }

def crowded : List Event :=
  [⟨7, "Api.handle", .spawned, 0⟩, ⟨2, "Überweisung.ausführen", .spawned, 3⟩,
   ⟨2, "Überweisung.ausführen", .completed, 3⟩, ⟨1, "Store.slow", .spawned, 3⟩,
   ⟨7, "Api.handle", .cancelled, 3⟩]

theorem every_row_of_crowded_fits :
    (∀ entry ∈ (crowded.foldl add {}).lifetimes, Forward entry.2) ∧
      Fits (crowded.foldl add {}) crowded :=
  have forward : ∀ entry ∈ (crowded.foldl add {}).lifetimes, Forward entry.2 := by decide
  ⟨forward, every_row_fits rfl forward (by decide)⟩

example : (crowded.foldl add {}).rows.map Prod.fst = [7, 1, 2] := by decide

end Cadence.Timeline
