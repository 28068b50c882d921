import Cadence.Proofs.FlowTable.Boundary
/-!
The cancellations that settling waits gives back. They are the flows that have become cancelled,
each listed once as it is stored, and a flow that begins to wait causes none.
-/

namespace Cadence

/-- The entries that a view shows of flows it showed nothing of before, each of them once. -/
structure Gains {α : Type} (key : α → FlowId) (before after : FlowId → Option α) (gained : List α) :
    Prop where
  kept : ∀ id a, before id = some a → after id = some a
  nodup : (gained.map key).Nodup
  listed : ∀ id a, after id = some a ∧ before id = none ↔ a ∈ gained ∧ key a = id

namespace Gains

variable {α : Type} {key : α → FlowId} {before middle after : FlowId → Option α}
  {gained later : List α}

theorem refl (key : α → FlowId) (view : FlowId → Option α) : Gains key view view [] where
  kept _ _ known := known
  nodup := List.nodup_nil
  listed id a := by
    simp only [List.not_mem_nil, false_and, iff_false]
    rintro ⟨known, unknown⟩
    rw [known] at unknown
    cases unknown

theorem trans (gains : Gains key before middle gained) (gains' : Gains key middle after later) :
    Gains key before after (gained ++ later) where
  kept id a known := gains'.kept id a (gains.kept id a known)
  nodup := by
    rw [List.map_append, List.nodup_append]
    refine ⟨gains.nodup, gains'.nodup, fun id listed id' listed' same => ?_⟩
    obtain ⟨a, member, rfl⟩ := List.mem_map.1 listed
    obtain ⟨a', member', rfl⟩ := List.mem_map.1 listed'
    have known := ((gains.listed _ a).2 ⟨member, rfl⟩).1
    have unknown := ((gains'.listed _ a').2 ⟨member', rfl⟩).2
    rw [← same, known] at unknown
    cases unknown
  listed id a := by
    rw [List.mem_append, or_and_right, ← gains.listed, ← gains'.listed]
    constructor
    · rintro ⟨known, unknown⟩
      cases between : middle id with
      | none => exact .inr ⟨known, rfl⟩
      | some a' =>
          rw [gains'.kept id a' between] at known
          exact .inl ⟨known, unknown⟩
    · rintro (⟨known, unknown⟩ | ⟨known, unknown⟩)
      · exact ⟨gains'.kept id a known, unknown⟩
      · refine ⟨known, ?_⟩
        cases first : before id with
        | none => rfl
        | some a' => simp [gains.kept id a' first] at unknown

theorem single {a : α} (unknown : before (key a) = none)
    (same : ∀ id, after id = if id = key a then some a else before id) :
    Gains key before after [a] where
  kept id a' known := by
    rw [same, if_neg (fun here => by simp [here, unknown] at known), known]
  nodup := by simp
  listed id a' := by
    rw [same, List.mem_singleton]
    by_cases here : id = key a
    · rw [if_pos here]
      constructor
      · rintro ⟨known, -⟩
        obtain rfl := Option.some.inj known
        exact ⟨rfl, here.symm⟩
      · rintro ⟨rfl, -⟩
        exact ⟨rfl, here ▸ unknown⟩
    · rw [if_neg here]
      constructor
      · rintro ⟨known, unknown'⟩
        simp [known] at unknown'
      · rintro ⟨rfl, rfl⟩
        exact absurd rfl here

theorem congr {after' : FlowId → Option α} (gains : Gains key before after gained)
    (same : ∀ id, after' id = after id) : Gains key before after' gained := by
  obtain rfl : after' = after := funext same
  exact gains

theorem same (gains : Gains key before after []) (id : FlowId) : after id = before id := by
  cases known : after id with
  | none =>
      cases first : before id with
      | none => rfl
      | some a => simp [gains.kept id a first] at known
  | some a =>
      cases first : before id with
      | none => simpa using (gains.listed id a).1 ⟨known, first⟩
      | some a' => rw [← known, gains.kept id a' first]

end Gains

namespace FlowTable

variable {σ : Type} {table after : FlowTable σ} {tick : Tick} {id : Nat} {flow old : Flow σ}
  {wait : Wait} {cancelled : List Cancellation}

def Named (table : FlowTable σ) : Prop :=
  ∀ id flow, table.live? id = some flow → flow.id = id

theorem Named.settled (named : table.Named) (settled : Settled table tick after) : after.Named := by
  intro id flow live
  obtain ⟨old, lived, same | ⟨stack, resumption, -, -, rfl⟩⟩ := settled.of_live live
  · exact same ▸ named id old lived
  · exact named id old lived

theorem cancelled?_put_live {phase : Phase σ} (live : table.live? id = some old)
    (uncancelled : ∀ cancellation, phase ≠ .cancelled cancellation) (other : Nat) :
    (table.put id (some phase)).cancelled? other = table.cancelled? other := by
  unfold cancelled?
  rcases live?_eq_some.1 live with found | ⟨wait, found⟩
  all_goals
    rw [find?_put found]
    by_cases same : other = id
    · rw [if_pos same, same, found]
      cases phase with
      | cancelled cancellation => exact absurd rfl (uncancelled cancellation)
      | _ => rfl
    · rw [if_neg same]

theorem gains_tearDown (named : table.Named) (parent : FlowId) (caller : Option Address)
    (tick : Tick) (ids : List FlowId) :
    Gains Cancellation.id table.cancelled? (tearDown parent caller tick ids table).2.cancelled?
      (tearDown parent caller tick ids table).1 := by
  induction ids generalizing table with
  | nil => exact .refl ..
  | cons id ids ih =>
      unfold tearDown
      cases live : table.live? id with
      | none => exact ih named
      | some flow =>
          have self : flow.id = id := named id flow live
          obtain ⟨phase, found⟩ : ∃ phase, table.find? id = some phase := by
            rcases live?_eq_some.1 live with found | ⟨wait, found⟩ <;> exact ⟨_, found⟩
          let next := table.put id (some (.cancelled (flow.cancellation parent caller tick)))
          have first : Gains Cancellation.id table.cancelled? next.cancelled?
              [flow.cancellation parent caller tick] := by
            refine .single (a := flow.cancellation parent caller tick) ?_ fun other => ?_
            · show table.cancelled? flow.id = none
              rw [self]
              rcases live?_eq_some.1 live with found | ⟨wait, found⟩ <;> simp [cancelled?, found]
            · show next.cancelled? other = if other = flow.id then _ else _
              simp only [cancelled?, next, find?_put found, self]
              by_cases same : other = id
              · simp only [if_pos same]
              · simp only [if_neg same]
          have named' : next.Named := by
            intro other flow' live'
            by_cases same : other = id
            · rw [same] at live'
              simp [next, live?, find?_put_self found] at live'
            · refine named other flow' ?_
              simpa only [live?, next, find?_put_of_ne table _ same] using live'
          exact first.trans (ih named')

theorem gains_tearDownLosers (named : table.Named) (winner : Option FlowId) (parent : FlowId)
    (caller : Address) (tick : Tick) (ids : List FlowId) :
    Gains Cancellation.id table.cancelled?
      (tearDownLosers winner parent caller tick ids table).2.cancelled?
      (tearDownLosers winner parent caller tick ids table).1 := by
  induction ids generalizing table with
  | nil => exact .refl ..
  | cons id ids ih =>
      unfold tearDownLosers
      split
      · have spared : Settled table tick (table.cancelTree id parent (some caller) tick).2 :=
          ⟨size_tearDown .., completions_tearDown .., fun other => .spared (spares_cancelTree ..)⟩
        exact (gains_tearDown named ..).trans (ih (named.settled spared))
      · exact ih named

theorem cancelled?_withdraw (found : table.find? id = some (.suspended flow wait)) (other : Nat) :
    (table.withdraw id).cancelled? other = table.cancelled? other := by
  unfold cancelled?
  rw [find?_withdraw found]
  by_cases same : other = id
  · rw [if_pos same, same, found]
  · rw [if_neg same]

theorem Named.withdraw (named : table.Named)
    (found : table.find? id = some (.suspended flow wait)) : (table.withdraw id).Named := by
  intro other flow' live
  refine named other flow' ?_
  unfold live? at live ⊢
  rw [find?_withdraw found] at live
  by_cases same : other = id
  · rw [if_pos same] at live
    rw [same, found]
    exact live
  · rwa [if_neg same] at live

theorem gains_contest (named : table.Named) (found : table.find? id = some (.suspended flow wait))
    (released : List Released) (tick : Tick) :
    Gains Cancellation.id table.cancelled? (table.contest id wait released tick).2.cancelled?
      (table.contest id wait released tick).1 := by
  unfold contest
  split
  · have gains := gains_tearDownLosers (named.withdraw found) (released.head?.map Released.flow) id
      wait.caller tick wait.dependencies
    rwa [funext (cancelled?_withdraw found)] at gains
  · exact .refl ..

theorem settle_cases (done : settle id tick table = .ok cancelled after) :
    (cancelled = [] ∧ after = table) ∨ ∃ flow wait value released,
      table.find? id = some (.suspended flow wait) ∧ table.outcome? wait = some (value, released) ∧
      cancelled = (table.contest id wait released tick).1 ∧ ∃ old waiting later,
        (table.contest id wait released tick).2.find? id = some (.suspended old waiting) ∧
        after = (table.contest id wait released tick).2.put id (some (.active later)) := by
  rcases settle_turn table id tick with
    ⟨flow, wait, value, released, found, outcome⟩ | ⟨-, still⟩
  · rw [settle_eq found outcome] at done
    cases resumed : resume id wait value released tick (table.contest id wait released tick).2 with
    | error e last => simp [resumed] at done
    | ok _ last =>
        simp only [resumed] at done
        injection done with same same'
        obtain ⟨old, waiting, stack, found', -, rfl⟩ := resume_ok resumed
        exact .inr ⟨flow, wait, value, released, found, outcome, same.symm, old, waiting, _, found',
          same'.symm⟩
  · rw [still] at done
    injection done with same same'
    exact .inl ⟨same.symm, same'.symm⟩

theorem gains_settle (named : table.Named) (done : settle id tick table = .ok cancelled after) :
    Gains Cancellation.id table.cancelled? after.cancelled? cancelled := by
  rcases settle_cases done with ⟨rfl, rfl⟩ | ⟨flow, wait, value, released, found, -, rfl, settled⟩
  · exact .refl ..
  · obtain ⟨old, waiting, later, found', rfl⟩ := settled
    refine (gains_contest named found released tick).congr ?_
    exact cancelled?_put_live (live?_eq_some.2 (.inr ⟨waiting, found'⟩)) (by simp)

theorem gains_settleEach {ids : List FlowId} (named : table.Named)
    (done : settleEach tick ids table = .ok cancelled after) :
    Gains Cancellation.id table.cancelled? after.cancelled? cancelled := by
  induction ids generalizing table cancelled with
  | nil =>
      injection done with same same'
      subst same same'
      exact .refl ..
  | cons id ids ih =>
      obtain ⟨earlier, middle, later, first, rest, rfl⟩ := settleEach_cons_ok.1 done
      exact (gains_settle named first).trans (ih (named.settled (settle_ok first).1) rest)

theorem gains_resolve (named : table.Named) (done : resolve tick table = .ok cancelled after) :
    Gains Cancellation.id table.cancelled? after.cancelled? cancelled :=
  gains_settleEach named done

def Undecided (table : FlowTable σ) : Prop :=
  ∀ id flow wait, table.find? id = some (.suspended flow wait) → wait.strategy = .race →
    table.outcome? wait = none

theorem Undecided.settle (undecided : table.Undecided)
    (done : settle id tick table = .ok cancelled after) : cancelled = [] := by
  rcases settle_cases done with ⟨rfl, -⟩ | ⟨flow, wait, value, released, found, outcome, rfl, -⟩
  · rfl
  · have other : wait.strategy ≠ .race := fun race => by
      simp [undecided id flow wait found race] at outcome
    rw [contest, if_neg other]

theorem Undecided.settled (undecided : table.Undecided) (settled : Settled table tick after) :
    after.Undecided := fun id flow wait found race =>
  (settled.outcome? wait).trans (undecided id flow wait (settled.suspended found) race)

theorem Undecided.settleEach {ids : List FlowId} (undecided : table.Undecided)
    (done : settleEach tick ids table = .ok cancelled after) : cancelled = [] := by
  induction ids generalizing table cancelled with
  | nil =>
      injection done with same
      exact same.symm
  | cons id ids ih =>
      obtain ⟨earlier, middle, later, first, rest, rfl⟩ := settleEach_cons_ok.1 done
      rw [undecided.settle first, ih (undecided.settled (settle_ok first).1) rest, List.append_nil]

theorem undecided_awaiting (unsettled : table.Unsettled)
    (found : table.find? id = some (.active old)) (flow : Flow σ) (request : Request σ)
    (caller : Address) (tick : Tick) :
    (table.awaiting id flow request caller tick).Undecided := by
  intro other flow' wait waits race
  rcases suspended_awaiting found waits with ⟨-, -, fresh⟩ | before
  · -- The flows that this one waits for are new, so that none of them can have won the race.
    have unfinished : ∀ child ∈ wait.dependencies,
        (table.awaiting id flow request caller tick).completed? child = none := by
      intro child member
      obtain ⟨-, -, young, active⟩ := fresh child member
      simp only [completed?, active]
    simp only [outcome?, race, firstCompleted?_eq_none.2 unfinished]
    rfl
  · rw [outcome?_congr (completed?_awaiting found flow request caller tick)]
    exact unsettled other flow' wait before

theorem resolve_awaiting (unsettled : table.Unsettled) (found : table.find? id = some (.active old))
    {request : Request σ} {caller : Address}
    (done : resolve tick (table.awaiting id flow request caller tick) = .ok cancelled after) :
    cancelled = [] :=
  (undecided_awaiting unsettled found flow request caller tick).settleEach done

end FlowTable

end Cadence
