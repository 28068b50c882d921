import Cadence.Proofs.FlowTable.Breakdown
/-!
Races that take their own flow with them. Nothing keeps a flow from waiting for itself, directly or
through others. Where it then runs a race that is won, the race cancels the flow that it is to resume.
-/

namespace Cadence.FlowTable

open Relation

variable {σ : Type} {first table middle after before : FlowTable σ} {tick : Tick}
  {id x y parent : Nat} {flow : Flow σ} {wait : Wait} {caller : Option Address} {value : Json}
  {released : List Released} {cancelled : List Cancellation} {ids : List FlowId} {e : EngineError}
  {change : Change σ} {changes : List (Change σ)}

/-- The flow is one of those that its own race takes, and no earlier flow's race takes it. -/
def Backfires (table : FlowTable σ) (id : FlowId) : Prop :=
  ∃ wait, table.Loses id wait id ∧ ∀ other wait', table.Loses other wait' id → id ≤ other

theorem parent_tearDown {gone : Cancellation}
    (member : gone ∈ (tearDown parent caller tick ids table).1) : gone.parent = parent := by
  induction ids generalizing table with
  | nil => cases member
  | cons id ids ih =>
      unfold tearDown at member
      cases live : table.live? id with
      | none =>
          rw [live] at member
          exact ih member
      | some flow =>
          rw [live] at member
          rcases List.mem_cons.1 member with rfl | later
          · rfl
          · exact ih later

theorem parent_tearDownLosers {winner : Option FlowId} {caller : Address} {gone : Cancellation}
    (member : gone ∈ (tearDownLosers winner parent caller tick ids table).1) :
    gone.parent = parent := by
  induction ids generalizing table with
  | nil => cases member
  | cons id ids ih =>
      unfold tearDownLosers at member
      split at member
      · rcases List.mem_append.1 member with first | rest
        · exact parent_tearDown first
        · exact ih rest
      · exact ih member

theorem parent_settle (named : table.Named) (done : settle id tick table = .ok cancelled after)
    {gone : Cancellation} (member : gone ∈ cancelled) : gone.parent = id ∧ gone.id ≠ id := by
  rcases settle_cases done with
    ⟨rfl, -⟩ | ⟨flow, wait, value, released, found, -, rfl, old, waiting, later, found', -⟩
  · cases member
  · constructor
    · unfold contest at member
      split at member
      · exact parent_tearDownLosers member
      · cases member
    · -- The flow has to be suspended for it to resume.
      intro own
      have gains := gains_contest named found released tick
      have torn := ((gains.listed gone.id gone).2 ⟨member, rfl⟩).1
      rw [own, cancelled?_eq_some, found'] at torn
      cases torn

theorem parent_settleEach (named : table.Named)
    (done : settleEach tick ids table = .ok cancelled after) {gone : Cancellation}
    (member : gone ∈ cancelled) : gone.parent ∈ ids ∧ gone.id ≠ gone.parent := by
  induction ids generalizing table cancelled with
  | nil =>
      injection done with same
      subst same
      cases member
  | cons id ids ih =>
      obtain ⟨earlier, middle, later, settled, rest, rfl⟩ := settleEach_cons_ok.1 done
      rcases List.mem_append.1 member with here | there
      · obtain ⟨rfl, distinct⟩ := parent_settle named settled here
        exact ⟨List.mem_cons_self .., distinct⟩
      · obtain ⟨listed, distinct⟩ := ih (named.settled (settle_ok settled).1) rest there
        exact ⟨List.mem_cons_of_mem _ listed, distinct⟩

theorem spares_settle (done : settle id tick table = .ok cancelled after) (distinct : x ≠ id) :
    Spares tick (table.find? x) (after.find? x) := by
  rcases settle_cases done with
    ⟨-, rfl⟩ | ⟨flow, wait, value, released, found, -, -, old, waiting, later, -, rfl⟩
  · exact .same _
  · rw [find?_put_of_ne _ _ distinct, snd_contest]
    exact spares_decided found distinct

theorem spares_settleEach (done : settleEach tick ids table = .ok cancelled after)
    (unlisted : x ∉ ids) : Spares tick (table.find? x) (after.find? x) := by
  induction ids generalizing table cancelled with
  | nil =>
      injection done with _ same
      exact same ▸ .same _
  | cons id ids ih =>
      obtain ⟨earlier, middle, later, settled, rest, -⟩ := settleEach_cons_ok.1 done
      have distinct : x ≠ id := fun same => unlisted (same ▸ List.mem_cons_self ..)
      have apart : x ∉ ids := fun member => unlisted (List.mem_cons_of_mem _ member)
      exact (spares_settle settled distinct).trans (ih rest apart)

theorem Loses.decides (loses : first.Loses id wait x) : ∃ winner, first.Decides id wait winner := by
  obtain ⟨winner, decides, -⟩ := loses
  exact ⟨winner, decides⟩

theorem Decides.ready (decides : first.Decides id wait x) : id ∈ first.ready := by
  obtain ⟨flow, found⟩ := decides.waits
  exact mem_ready.2 ⟨flow, wait, found, decides.outcome⟩

theorem isLive_of_awaits (upholds : (first.withdraw id).Upholds table)
    (found : first.find? id = some (.suspended flow wait)) (live : table.isLive id = true)
    (path : ReflTransGen first.Awaits x id) : table.isLive x = true := by
  induction path using ReflTransGen.head_induction_on with
  | refl => exact live
  | @head x y awaits _ ih =>
      by_cases same : x = id
      · exact same ▸ live
      · obtain ⟨flow', wait', found', -⟩ := suspended_of_mem_dependencies awaits.1
        have kept := upholds x y ((awaits_withdraw found).2 ⟨same, awaits⟩) ih
        rw [find?_withdraw found, if_neg same] at kept
        exact isLive_of_suspended (kept.trans found')

theorem Pass.settle_ne_ok (pass : Pass first tick table) (proper : first.Proper)
    (loses : first.Loses id wait id) (still : table.find? id = first.find? id) :
    FlowTable.settle id tick table ≠ .ok cancelled after := by
  intro done
  obtain ⟨winner, decides, loser, member, -, path, -⟩ := loses
  obtain ⟨flow, found⟩ := decides.waits
  have waits := still.trans found
  rcases settle_cases done with
    ⟨-, rfl⟩ | ⟨flow', wait', value, released, found', outcome, -, old, waiting, later, live, -⟩
  · have unsatisfied := (settle_ok done).2 flow wait waits
    exact decides.outcome ((pass.settled.outcome? wait).symm.trans unsatisfied)
  · obtain ⟨rfl, rfl⟩ := Phase.suspended.inj (Option.some.inj (waits.symm.trans found'))
    have upholds := pass.upholds_contest waits released
    have lives := isLive_of_awaits upholds found (isLive_of_suspended live) path
    have dead : (table.contest id wait released tick).2.isLive loser = false := by
      rw [contest, if_pos decides.race]
      exact not_isLive_of_race (fun _ _ => pass.keyed proper) decides.race waits outcome member
    exact Bool.false_ne_true (dead.symm.trans lives)

theorem find?_settleEach (proper : first.Proper)
    (done : settleEach tick ids first = .ok cancelled middle) (suspended : ∃ flow,
      first.find? id = some (.suspended flow wait)) (unlisted : id ∉ ids)
    (spared : ∀ other ∈ ids, ∀ wait', ¬ first.Loses other wait' id) :
    middle.find? id = first.find? id := by
  obtain ⟨flow, found⟩ := suspended
  have spares := spares_settleEach done unlisted
  rw [found] at spares ⊢
  generalize known : middle.find? id = later at spares
  cases spares with
  | same => rfl
  | suspended _ _ parent caller =>
      have gains := gains_settleEach proper.named done
      have unknown : first.cancelled? id = none := by simp [FlowTable.cancelled?, found]
      obtain ⟨member, -⟩ := (gains.listed id _).1 ⟨cancelled?_eq_some.2 known, unknown⟩
      obtain ⟨wait', loses, -⟩ :=
        ((Pass.start first tick).settleEach proper done).blames id _ (cancelled?_eq_some.2 known) unknown
      exact absurd loses (spared _ (parent_settleEach proper.named done member).1 wait')

theorem mem_front {front back : List FlowId} (sorted : (front ++ id :: back).Pairwise (· < ·))
    (member : x ∈ front ++ id :: back) : x ∈ front ↔ x < id := by
  obtain ⟨-, later, earlier⟩ := List.pairwise_append.1 sorted
  constructor
  · exact fun inFront => earlier x inFront id (List.mem_cons_self ..)
  · intro less
    rcases List.mem_append.1 member with inFront | rest
    · exact inFront
    · rcases List.mem_cons.1 rest with rfl | inBack
      · exact absurd less (Nat.lt_irrefl x)
      · exact absurd (Nat.lt_trans less ((List.pairwise_cons.1 later).1 x inBack)) (Nat.lt_irrefl x)

theorem settleEach_append_ok {ids' : List FlowId}
    (done : settleEach tick (ids ++ ids') table = .ok cancelled after) :
    ∃ earlier middle later, settleEach tick ids table = .ok earlier middle ∧
      settleEach tick ids' middle = .ok later after := by
  induction ids generalizing table cancelled with
  | nil => exact ⟨[], table, cancelled, rfl, done⟩
  | cons id ids ih =>
      obtain ⟨first, middle, last, settled, rest, -⟩ := settleEach_cons_ok.1 done
      obtain ⟨earlier, middle', later, front, back⟩ := ih rest
      exact ⟨first ++ earlier, middle', later,
        settleEach_cons_ok.2 ⟨first, middle, earlier, settled, front, rfl⟩, back⟩

theorem not_backfires (proper : first.Proper) (done : resolve tick first = .ok cancelled after) :
    ¬ first.Backfires id := by
  rintro ⟨wait, loses, earliest⟩
  obtain ⟨winner, decides⟩ := loses.decides
  obtain ⟨front, back, split⟩ := List.append_of_mem decides.ready
  have sorted := sorted_ready first
  unfold resolve at done
  rw [split] at done sorted
  have early (x : Nat) (inFront : x ∈ front) : x < id :=
    (mem_front sorted (List.mem_append_left _ inFront)).1 inFront
  obtain ⟨cancelled', middle, later, passed, rest⟩ := settleEach_append_ok done
  obtain ⟨gone, next, last, settled, -⟩ := settleEach_cons_ok.1 rest
  have still : middle.find? id = first.find? id := by
    apply find?_settleEach proper passed decides.waits
    · exact fun inFront => Nat.lt_irrefl id (early id inFront)
    · intro other inFront wait' loses'
      exact Nat.lt_irrefl id (Nat.lt_of_le_of_lt (earliest other wait' loses') (early other inFront))
  exact ((Pass.start first tick).settleEach proper passed).settle_ne_ok proper loses still settled

theorem cancelled_of_decided (found : table.find? id = some (.suspended flow wait))
    (torn : (table.decided id wait released tick).suspended? id = none) :
    ∃ gone, (table.decided id wait released tick).cancelled? id = some gone ∧ gone.parent = id := by
  obtain ⟨race, parent, caller, known⟩ := find?_decided_of_torn found torn
  rw [← cancelled?_eq_some] at known
  refine ⟨_, known, ?_⟩
  rw [decided, if_pos race] at known
  rcases cancelled?_tearDownLosers known with earlier | ⟨⟨own, -⟩, -⟩
  · rw [cancelled?_withdraw found, cancelled?_eq_some, found] at earlier
    cases earlier
  · exact own

theorem Pass.torn (pass : Pass first tick table) (upright : table.Upright)
    (failed : FlowTable.settle id tick table = .error e after) :
    e = .resumeWithoutSuspension id ∧ table.isLive id = true ∧ ∃ wait gone,
      first.Loses id wait id ∧ after.cancelled? id = some gone ∧ gone.parent = id := by
  obtain ⟨flow, wait, value, released, found, outcome, unresumed⟩ := settle_fails failed
  have found₁ := pass.settled.suspended found
  rcases resume_error unresumed with ⟨torn, rfl, rfl⟩ | ⟨flow', wait', waiting, empty, -⟩
  · obtain ⟨gone, known, own⟩ := cancelled_of_decided found torn
    have unknown : first.cancelled? id = none := by simp [FlowTable.cancelled?, found₁]
    rw [← snd_contest] at known ⊢
    obtain ⟨wait', loses, -⟩ := pass.blames_settle found outcome known unknown
    rw [own] at loses
    exact ⟨rfl, isLive_of_suspended found, wait', gone, loses, known, own⟩
  · obtain rfl := decided_self found waiting
    exact absurd empty (upright id _ (live?_eq_some.2 (.inr ⟨wait, found⟩)))

theorem backfires_of_error (proper : first.Proper) (upright : first.Upright)
    (failed : resolve tick first = .error e after) : ∃ id gone, first.Backfires id ∧
      e = .resumeWithoutSuspension id ∧ after.cancelled? id = some gone ∧ gone.parent = id := by
  obtain ⟨front, id, back, cancelled, middle, split, passed, broken⟩ := settleEach_error failed
  have pass := (Pass.start first tick).settleEach proper passed
  obtain ⟨cause, live, wait, gone, loses, known, own⟩ :=
    pass.torn (upright.settled pass.settled) broken
  refine ⟨id, gone, ⟨wait, loses, fun other wait' loses' => ?_⟩, cause, known, own⟩
  by_contra later
  obtain ⟨winner, decides⟩ := loses'.decides
  have member := decides.ready
  have sorted := sorted_ready first
  rw [split] at member sorted
  have inFront : other ∈ front := (mem_front sorted member).2 (Nat.lt_of_not_le later)
  obtain ⟨flow, found⟩ := decides.waits
  have moved : middle.find? other ≠ first.find? other := fun same =>
    decides.outcome ((settleEach_ok passed).2 other inFront flow wait' (same.trans found))
  exact Bool.false_ne_true ((pass.not_isLive moved loses').symm.trans live)

inductive Change.Accepted (table : FlowTable σ) : Change σ → Prop
  | suspend (id : FlowId) (wait : Wait) (tick : Tick) (flow : Flow σ)
      (active : table.active? id = some flow)
      (shapely : wait.strategy.check id wait.dependencies.length = .ok ()) :
      Accepted table (.suspend id wait tick)
  | complete (id : FlowId) (value : Json) (last : Option Address) (tick : Tick) (flow : Flow σ)
      (active : table.active? id = some flow) : Accepted table (.complete id value last tick)

theorem Change.Accepted.apply_eq (accepted : change.Accepted before) :
    change.Checked ∧ ∃ tick, change.apply before = resolve tick (change.recorded before) := by
  cases accepted with
  | suspend id wait tick flow active shapely =>
      constructor
      · intro id' wait' tick' same
        obtain ⟨rfl, rfl, -⟩ := Change.suspend.inj same
        exact shapely
      · refine ⟨tick, ?_⟩
        rw [Change.apply, suspend_eq (active?_eq_some.1 active) shapely]
        simp only [Change.recorded, active]
  | complete id value last tick flow active =>
      constructor
      · intro id' wait' tick' same
        cases same
      · refine ⟨tick, ?_⟩
        rw [Change.apply, complete_of_active (active?_eq_some.1 active)]
        simp only [Change.recorded, active, completing]

/--
Races tear down their own flows where they backfire, and only there. Whatever operations a table has
gone through, suspending or completing a flow that may be suspended or completed succeeds if and only
if no race backfires by then, and no race cancels its own flow. If one does, the flow cannot resume.
-/
theorem races_backfire (keeps : ∀ change ∈ changes, change.KeepsRecords)
    (accepted : change.Accepted (ledger changes).table) :
    ((∃ cancelled after, change.apply (ledger changes).table = .ok cancelled after) ↔
        ∀ id, ¬ (change.recorded (ledger changes).table).Backfires id) ∧
      (∀ cancelled after, change.apply (ledger changes).table = .ok cancelled after →
        ∀ gone ∈ cancelled, gone.parent ≠ gone.id) ∧
      ∀ e after, change.apply (ledger changes).table = .error e after → ∃ id gone,
        (change.recorded (ledger changes).table).Backfires id ∧ e = .resumeWithoutSuspension id ∧
          after.cancelled? id = some gone ∧ gone.parent = id := by
  obtain ⟨checked, tick, applied⟩ := accepted.apply_eq
  have keeps' : change.KeepsRecords := by
    cases accepted with
    | suspend => trivial
    | complete => trivial
  have upright := upright_recorded (kept_ledger keeps).upright keeps'
  have proper : (change.recorded (ledger changes).table).Proper := by
    refine ⟨fun id => ?_, shapely_recorded (shapely_ledger keeps) checked⟩
    exact (recorded_marks change _ id).owner ((kept_ledger keeps).owned id)
  rw [applied]
  refine ⟨?succeeds, ?spared, ?fails⟩
  case succeeds =>
    constructor
    · intro succeeded id
      obtain ⟨cancelled, after, done⟩ := succeeded
      exact not_backfires proper done
    · intro none
      cases done : resolve tick (change.recorded (ledger changes).table) with
      | ok cancelled after => exact ⟨cancelled, after, rfl⟩
      | error e after =>
          obtain ⟨id, gone, backfires, -⟩ := backfires_of_error proper upright done
          exact absurd backfires (none id)
  case spared =>
    intro cancelled after done gone member
    exact (parent_settleEach proper.named done member).2.symm
  case fails => exact fun e after failed => backfires_of_error proper upright failed

/--
Flow 1 is about to race flow 3, which waits for flow 5. That flow is to race flow 6, which waits for
it. The second race would take its own flow with it, but for the first race, which does so before.
-/
def raceInTime : List (Change Unit) :=
  let start : Change Unit := .create ⟨"flow", [], ()⟩ none false 0
  let on (strategy : Strategy) (ids : List FlowId) : Wait := ⟨strategy, ⟨"object", 0⟩, true, ids, 0⟩
  [start, start, start, start, start, start, .suspend 3 (on .all [5]) 0, .suspend 6 (on .single [5]) 0,
    .suspend 5 (on .race [2, 6]) 0, .suspend 1 (on .race [2, 3]) 0]

theorem raceInTime_cancels : ∃ cancelled after,
    (Change.complete 2 (.int 7) none 1).apply (ledger raceInTime).table = .ok cancelled after ∧
      cancelled.map (fun gone => (gone.id, gone.parent)) = [(3, 1), (5, 1), (6, 1)] :=
  ⟨_, _, rfl, rfl⟩

theorem raceInTime_does_not_backfire : ∃ cancelled after,
    (∀ change ∈ raceInTime, change.KeepsRecords) ∧
      (Change.complete 2 (.int 7) none 1).Accepted (ledger raceInTime).table ∧
      (Change.complete 2 (.int 7) none 1).apply (ledger raceInTime).table = .ok cancelled after ∧
      cancelled.map (fun gone => (gone.id, gone.parent)) = [(3, 1), (5, 1), (6, 1)] ∧
      (∀ id, ¬ ((Change.complete 2 (.int 7) none 1).recorded (ledger raceInTime).table).Backfires id) ∧
      ∀ gone ∈ cancelled, gone.parent ≠ gone.id := by
  have keeps : ∀ change ∈ raceInTime, change.KeepsRecords := by simp [raceInTime, Change.KeepsRecords]
  have accepted : (Change.complete 2 (.int 7) none 1).Accepted (ledger raceInTime).table :=
    .complete 2 (.int 7) none 1 _ rfl
  obtain ⟨cancelled, after, done, ids⟩ := raceInTime_cancels
  obtain ⟨succeeds, spared, -⟩ := races_backfire keeps accepted
  exact ⟨cancelled, after, keeps, accepted, done, ids, succeeds.1 ⟨_, _, done⟩, spared _ _ done⟩

def raceInCircle : List (Change Unit) :=
  let start : Change Unit := .create ⟨"flow", [], ()⟩ none false 0
  let on (strategy : Strategy) (ids : List FlowId) : Wait := ⟨strategy, ⟨"object", 0⟩, true, ids, 0⟩
  [start, start, start, .suspend 3 (on .single [1]) 0, .suspend 1 (on .race [3, 2]) 0]

theorem raceInCircle_fails : ∃ after gone,
    (Change.complete 2 (.int 7) none 1).apply (ledger raceInCircle).table =
      .error (.resumeWithoutSuspension 1) after ∧
    (ledger raceInCircle).table.cancelled? 1 = none ∧ after.cancelled? 1 = some gone ∧
      gone.parent = 1 :=
  ⟨_, _, rfl, rfl, rfl, rfl⟩

theorem races_can_tear_down_their_own_flow :
    (¬ ∀ (changes : List (Change Unit)) (change : Change Unit),
      (∀ past ∈ changes, ∀ id stack, past ≠ .edit id stack) →
        change.Accepted (ledger changes).table →
          ∃ cancelled after, change.apply (ledger changes).table = .ok cancelled after) ∧
      ¬ ∀ (changes : List (Change Unit)) (change : Change Unit),
        (∀ past ∈ changes, ∀ id stack, past ≠ .edit id stack) →
          change.Accepted (ledger changes).table → ∀ id gone,
            (change.attempt (ledger changes).table).cancelled? id = some gone →
              (ledger changes).table.cancelled? id = none → gone.parent ≠ id := by
  have unedited : ∀ past ∈ raceInCircle, ∀ id stack, past ≠ .edit id stack := by simp [raceInCircle]
  have accepted : (Change.complete 2 (.int 7) none 1).Accepted (ledger raceInCircle).table :=
    .complete 2 (.int 7) none 1 _ rfl
  obtain ⟨after, gone, failed, unknown, known, own⟩ := raceInCircle_fails
  constructor
  · intro every
    obtain ⟨cancelled, after', done⟩ := every raceInCircle _ unedited accepted
    rw [failed] at done
    cases done
  · intro every
    refine every raceInCircle _ unedited accepted 1 gone ?_ unknown own
    rw [Change.attempt, Engine.after, failed]
    exact known

end Cadence.FlowTable
