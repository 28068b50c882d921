import Cadence.Proofs.FlowTable.Cancellation
import Cadence.Proofs.FlowTable.Lifecycle
/-!
What a decided race takes with it. Waits are settled one after the other, in a table that changes
meanwhile, and yet the flows that are cancelled can be told beforehand, whatever waits for whatever.
-/

namespace Cadence.FlowTable

open Relation

variable {σ : Type} {first table after : FlowTable σ} {tick : Tick} {id x y root parent : Nat}
  {flow : Flow σ} {wait : Wait} {caller : Option Address} {value : Json} {released : List Released}
  {cancelled : List Cancellation}

/-- The flow runs a race that is won: of the flows that it is for, no other has completed earlier. -/
structure Decides (table : FlowTable σ) (id : FlowId) (wait : Wait) (winner : FlowId) : Prop where
  waits : ∃ flow, table.find? id = some (.suspended flow wait)
  race : wait.strategy = .race
  listed : winner ∈ wait.dependencies
  first : ∃ done, table.completed? winner = some done ∧
    ∀ other ∈ wait.dependencies, ∀ done', table.completed? other = some done' →
      done.order ≤ done'.order

/-- The flow `x` is live, and a loser of the race or one that a loser waits for, maybe through others. -/
def Loses (table : FlowTable σ) (id : FlowId) (wait : Wait) (x : FlowId) : Prop :=
  ∃ winner, table.Decides id wait winner ∧ ∃ loser ∈ wait.dependencies, loser ≠ winner ∧
    ReflTransGen table.Awaits loser x ∧ table.isLive x = true

/-! ## Waits that are upheld -/

def Upholds (first table : FlowTable σ) : Prop :=
  ∀ x y, first.Awaits x y → table.isLive y = true → table.find? x = first.find? x

theorem Upholds.cancelTree (upholds : first.Upholds table) (root : Nat) (parent : FlowId)
    (caller : Option Address) (tick : Tick) :
    first.Upholds (table.cancelTree root parent caller tick).2 := by
  intro x y awaits live
  have live' : table.isLive y = true :=
    isLive_congr ((spares_cancelTree table root parent caller tick y).isLive live) ▸ live
  have same := upholds x y awaits live'
  have unreached : ¬ ReflTransGen table.Awaits root x := by
    -- Since `x` still waits for `y`, the search would have gone on to it.
    intro path
    have awaits' : table.Awaits x y := ⟨dependencies_congr same ▸ awaits.1, live'⟩
    have dead := not_isLive_cancelTree parent caller tick (path.tail awaits')
    exact Bool.false_ne_true (dead.symm.trans live)
  exact (find?_cancelTree_of_unreached unreached).trans same

theorem Upholds.tearDownLosers (upholds : first.Upholds table) (winner : Option FlowId)
    (parent : FlowId) (caller : Address) (tick : Tick) (ids : List FlowId) :
    first.Upholds (tearDownLosers winner parent caller tick ids table).2 := by
  induction ids generalizing table with
  | nil => exact upholds
  | cons id ids ih =>
      unfold FlowTable.tearDownLosers
      split
      · exact ih (upholds.cancelTree id parent (some caller) tick)
      · exact ih upholds

theorem isLive_withdraw (found : table.find? id = some (.suspended flow wait)) (x : Nat) :
    (table.withdraw id).isLive x = table.isLive x := by
  unfold FlowTable.isLive live?
  rw [find?_withdraw found]
  by_cases same : x = id
  · rw [if_pos same, same, found]
  · rw [if_neg same]

theorem awaits_withdraw (found : table.find? id = some (.suspended flow wait)) :
    (table.withdraw id).Awaits x y ↔ x ≠ id ∧ table.Awaits x y := by
  unfold Awaits
  rw [isLive_withdraw found, ← and_assoc, and_congr_left_iff]
  intro _
  by_cases same : x = id
  · have nothing : (table.withdraw id).find? x =
        some (.suspended flow { wait with dependencies := [] }) := by
      rw [find?_withdraw found, if_pos same]
    rw [dependencies_of_suspended nothing]
    simp [same]
  · have same' : (table.withdraw id).find? x = table.find? x := by
      rw [find?_withdraw found, if_neg same]
    simp [dependencies_congr same', same]

theorem Upholds.withdraw (upholds : first.Upholds table)
    (found : first.find? id = some (.suspended flow wait)) : (first.withdraw id).Upholds table := by
  intro x y awaits live
  obtain ⟨apart, awaits⟩ := (awaits_withdraw found).1 awaits
  rw [find?_withdraw found, if_neg apart]
  exact upholds x y awaits live

theorem Upholds.resume (upholds : (first.withdraw id).Upholds table)
    (found : first.find? id = some (.suspended flow wait)) {old : Flow σ} {waiting : Wait}
    (found' : table.find? id = some (.suspended old waiting))
    (settled : ∀ y ∈ wait.dependencies, table.isLive y = false) (later : Flow σ) :
    first.Upholds (table.put id (some (.active later))) := by
  intro x y awaits live
  have still : table.isLive y = true := by
    by_cases same : y = id
    · exact same ▸ isLive_of_suspended found'
    · rwa [isLive_congr (find?_put_of_ne table _ same)] at live
  have apart : x ≠ id := by
    rintro rfl
    have listed := awaits.1
    rw [dependencies_of_suspended found] at listed
    exact Bool.false_ne_true ((settled y listed).symm.trans still)
  have same := upholds x y ((awaits_withdraw found).2 ⟨apart, awaits⟩) still
  rw [find?_put_of_ne table _ apart, same, find?_withdraw found, if_neg apart]

/-! ## Losers -/

theorem awaits_of_spares (spares : ∀ x, Spares tick (table.find? x) (after.find? x))
    (awaits : after.Awaits x y) : table.Awaits x y :=
  ⟨dependencies_congr ((spares x).dependencies awaits.1) ▸ awaits.1,
    isLive_congr ((spares y).isLive awaits.2) ▸ awaits.2⟩

theorem isLive_of_tearDownLosers {winner : Option FlowId} {caller : Address} {ids : List FlowId}
    (live : (tearDownLosers winner parent caller tick ids table).2.isLive x = true) :
    table.isLive x = true :=
  isLive_congr ((spares_tearDownLosers winner parent caller tick ids table x).isLive live) ▸ live

theorem not_isLive_tearDownLosers {winner : Option FlowId} {caller : Address} {ids : List FlowId}
    (member : x ∈ ids) (lost : some x ≠ winner) :
    (tearDownLosers winner parent caller tick ids table).2.isLive x = false := by
  induction ids generalizing table with
  | nil => cases member
  | cons id ids ih =>
      unfold FlowTable.tearDownLosers
      split
      next apart =>
        rcases List.mem_cons.1 member with rfl | later
        · rw [Bool.eq_false_iff]
          intro live
          have dead : (table.cancelTree x parent (some caller) tick).2.isLive x = false :=
            not_isLive_cancelTree parent (some caller) tick .refl
          exact Bool.false_ne_true (dead.symm.trans (isLive_of_tearDownLosers live))
        · exact ih later
      next spared =>
        rcases List.mem_cons.1 member with rfl | later
        · rw [Bool.eq_false_iff]
          intro live
          exact spared ⟨lost, isLive_of_tearDownLosers live⟩
        · exact ih later

theorem cancelled?_cancelTree {gone : Cancellation}
    (found : (table.cancelTree root parent caller tick).2.cancelled? x = some gone) :
    table.cancelled? x = some gone ∨ (gone.parent = parent ∧ gone.caller = caller) ∧
      ReflTransGen table.Awaits root x ∧ table.isLive x = true := by
  rw [cancelled?_eq_some] at found ⊢
  by_cases reached : ReflTransGen table.Awaits root x
  · cases live : table.live? x with
    | none =>
        rw [← (tearDown_spec parent caller tick _ table).2 x (.inr live)]
        exact .inl found
    | some flow =>
        obtain rfl := Phase.cancelled.inj
          (Option.some.inj ((find?_cancelTree_of_reached reached live).symm.trans found))
        exact .inr ⟨⟨rfl, rfl⟩, reached, isLive_iff.2 ⟨flow, live⟩⟩
  · exact .inl ((find?_cancelTree_of_unreached reached).symm.trans found)

theorem cancelled?_tearDownLosers {winner : Option FlowId} {caller : Address} {ids : List FlowId}
    {gone : Cancellation}
    (found : (tearDownLosers winner parent caller tick ids table).2.cancelled? x = some gone) :
    table.cancelled? x = some gone ∨ (gone.parent = parent ∧ gone.caller = some caller) ∧
      ∃ loser ∈ ids, table.isLive loser = true ∧ ReflTransGen table.Awaits loser x ∧
        table.isLive x = true := by
  induction ids generalizing table with
  | nil => exact .inl found
  | cons id ids ih =>
      unfold FlowTable.tearDownLosers at found
      split at found
      next lost =>
        have spares := spares_cancelTree table id parent (some caller) tick
        rcases ih found with earlier | ⟨blamed, loser, member, live, path, live'⟩
        · rcases cancelled?_cancelTree earlier with before | ⟨blamed, path, live⟩
          · exact .inl before
          · exact .inr ⟨blamed, id, List.mem_cons_self .., lost.2, path, live⟩
        · refine .inr ⟨blamed, loser, List.mem_cons_of_mem _ member, ?_, ?_, ?_⟩
          · exact isLive_congr ((spares loser).isLive live) ▸ live
          · exact ReflTransGen.mono (fun _ _ => awaits_of_spares spares) _ _ path
          · exact isLive_congr ((spares x).isLive live') ▸ live'
      next spared =>
        rcases ih found with earlier | ⟨blamed, loser, member, rest⟩
        · exact .inl earlier
        · exact .inr ⟨blamed, loser, List.mem_cons_of_mem _ member, rest⟩

/-! ## Flows that nobody waits for -/

def Unlisted (table : FlowTable σ) (x : FlowId) : Prop :=
  ∀ parent, x ∉ table.dependencies parent

theorem Unlisted.not_reached (unlisted : table.Unlisted x) (apart : root ≠ x) :
    ¬ ReflTransGen table.Awaits root x := by
  intro path
  rcases ReflTransGen.cases_tail path with same | ⟨parent, -, awaits⟩
  · exact apart same.symm
  · exact unlisted parent awaits.1

theorem Unlisted.awaiting {old : Flow σ} (unlisted : table.Unlisted x)
    (found : table.find? id = some (.active old)) (inside : x ≤ table.phases.size) (flow : Flow σ)
    (request : Request σ) (caller : Address) (tick : Tick) :
    (table.awaiting id flow request caller tick).Unlisted x := by
  intro parent member
  obtain ⟨flow', wait, suspended, listed⟩ := suspended_of_mem_dependencies member
  rcases suspended_awaiting found suspended with ⟨-, -, fresh⟩ | earlier
  · exact absurd inside (Nat.not_le_of_lt (fresh x listed).1)
  · exact unlisted parent (dependencies_of_suspended earlier ▸ listed)

theorem Unlisted.completing {old : Flow σ} (unlisted : table.Unlisted x)
    (found : table.find? id = some (.active old)) (done : Completion) :
    (table.completing id done).Unlisted x := by
  intro parent member
  obtain ⟨flow', wait, suspended, listed⟩ := suspended_of_mem_dependencies member
  rw [find?_completing found] at suspended
  split at suspended
  · cases suspended
  · exact unlisted parent (dependencies_of_suspended suspended ▸ listed)

theorem Unlisted.settled (unlisted : table.Unlisted x) (settled : Settled table tick after) :
    after.Unlisted x := by
  intro parent member
  obtain ⟨flow, wait, found, listed⟩ := suspended_of_mem_dependencies member
  exact unlisted parent (dependencies_of_suspended (settled.suspended found) ▸ listed)

theorem Unlisted.settle (unlisted : table.Unlisted x) (intact : table.cancelled? x = none)
    (done : settle id tick table = .ok cancelled after) : after.cancelled? x = none := by
  rcases settle_cases done with
    ⟨-, rfl⟩ | ⟨flow, wait, value, released, found, -, -, old, waiting, later, found', rfl⟩
  · exact intact
  · rw [cancelled?_put_live (live?_eq_some.2 (.inr ⟨waiting, found'⟩)) (by simp)]
    by_cases race : wait.strategy = .race
    · rw [contest, if_pos race, Option.eq_none_iff_forall_ne_some]
      intro gone known
      rcases cancelled?_tearDownLosers known with earlier | ⟨-, loser, member, -, path, -⟩
      · rw [cancelled?_withdraw found, intact] at earlier
        cases earlier
      · have lost : loser ≠ x := by
          rintro rfl
          exact unlisted id (dependencies_of_suspended found ▸ member)
        refine unlisted.not_reached lost ?_
        exact ReflTransGen.mono (fun _ _ awaits => ((awaits_withdraw found).1 awaits).2) _ _ path
    · rw [contest, if_neg race]
      exact intact

theorem Unlisted.settleEach {ids : List FlowId} (unlisted : table.Unlisted x)
    (intact : table.cancelled? x = none) (done : settleEach tick ids table = .ok cancelled after) :
    after.cancelled? x = none := by
  induction ids generalizing table cancelled with
  | nil =>
      injection done with _ same
      exact same ▸ intact
  | cons id ids ih =>
      obtain ⟨earlier, middle, later, settled, rest, -⟩ := settleEach_cons_ok.1 done
      exact ih (unlisted.settled (settle_ok settled).1) (unlisted.settle intact settled) rest

theorem Unlisted.resolve (unlisted : table.Unlisted x) (found : table.find? x = some (.active flow))
    (done : resolve tick table = .ok cancelled after) : after.find? x = some (.active flow) := by
  have spared := unlisted.settleEach (by simp [FlowTable.cancelled?, found]) done
  have change := (resolve_ok done).1.phases x
  rw [found] at change
  unfold FlowTable.cancelled? at spared
  generalize after.find? x = phase? at change spared ⊢
  cases change with
  | spared spares =>
      cases spares with
      | same => rfl
      | active => cases spared

/-! ## Settling waits -/

def Shapely (table : FlowTable σ) : Prop :=
  ∀ id flow wait, table.find? id = some (.suspended flow wait) →
    wait.strategy.check id wait.dependencies.length = .ok ()

structure Proper (table : FlowTable σ) : Prop where
  owned : ∀ id phase, table.find? id = some phase → phase.owner = id
  shapely : table.Shapely

theorem Proper.named (proper : table.Proper) : table.Named := by
  intro id flow live
  rcases live?_eq_some.1 live with found | ⟨wait, found⟩
  · exact proper.owned id _ found
  · exact proper.owned id _ found

/-- The race that has caused a cancellation was won, and the flow is one of those that it takes. -/
def Blames (first : FlowTable σ) (gone : Cancellation) (x : FlowId) : Prop :=
  ∃ wait, first.Loses gone.parent wait x ∧ gone.caller = some wait.caller

structure Pass (first : FlowTable σ) (tick : Tick) (table : FlowTable σ) : Prop where
  settled : Settled first tick table
  upholds : first.Upholds table
  blames : ∀ x gone, table.cancelled? x = some gone → first.cancelled? x = none → first.Blames gone x

theorem Pass.start (first : FlowTable σ) (tick : Tick) : Pass first tick first where
  settled := .refl first tick
  upholds _ _ _ _ := rfl
  blames x gone known unknown := by cases known.symm.trans unknown

theorem Pass.isLive (pass : Pass first tick table) (live : table.isLive x = true) :
    first.isLive x = true := by
  obtain ⟨flow, found⟩ := isLive_iff.1 live
  obtain ⟨old, lived, -⟩ := pass.settled.of_live found
  exact isLive_iff.2 ⟨old, lived⟩

theorem Pass.awaits (pass : Pass first tick table) (awaits : table.Awaits x y) : first.Awaits x y := by
  obtain ⟨flow, wait, found, member⟩ := suspended_of_mem_dependencies awaits.1
  rw [← dependencies_of_suspended (pass.settled.suspended found)] at member
  exact ⟨member, pass.isLive awaits.2⟩

theorem not_isLive_of_completed {done : Completion} (finished : table.completed? x = some done) :
    table.isLive x = false := by
  simp [FlowTable.isLive, live?, completed?_eq_some.1 finished]

theorem decides_of_outcome? (race : wait.strategy = .race)
    (found : table.find? id = some (.suspended flow wait))
    (outcome : table.outcome? wait = some (value, released)) :
    ∃ winner done, table.Decides id wait winner ∧ table.completed? winner = some done ∧
      released.head?.map Released.flow = some done.id := by
  cases resolves_of_outcome? outcome with
  | single kind => cases kind.symm.trans race
  | all kind => cases kind.symm.trans race
  | @race done _ earliest =>
      obtain ⟨⟨winner, listed, finished⟩, least⟩ := firstCompleted?_eq_some earliest
      exact ⟨winner, done, ⟨⟨flow, found⟩, race, listed, done, finished, least⟩, finished, rfl⟩

theorem Pass.loses (pass : Pass first tick table) (race : wait.strategy = .race)
    (found : table.find? id = some (.suspended flow wait))
    (outcome : table.outcome? wait = some (value, released)) {loser : Nat}
    (member : loser ∈ wait.dependencies) (live : table.isLive loser = true)
    (path : ReflTransGen table.Awaits loser x) (live' : table.isLive x = true) :
    first.Loses id wait x := by
  rw [pass.settled.outcome?] at outcome
  obtain ⟨winner, done, decides, finished, -⟩ :=
    decides_of_outcome? race (pass.settled.suspended found) outcome
  have lost : loser ≠ winner := by
    rintro rfl
    exact Bool.false_ne_true ((not_isLive_of_completed finished).symm.trans (pass.isLive live))
  have path' := ReflTransGen.mono (fun _ _ => pass.awaits) _ _ path
  exact ⟨winner, decides, loser, member, lost, path', pass.isLive live'⟩

theorem not_isLive_of_race (keyed : ∀ id done, table.completed? id = some done → done.id = id)
    (race : wait.strategy = .race) (found : table.find? id = some (.suspended flow wait))
    (outcome : table.outcome? wait = some (value, released)) (member : y ∈ wait.dependencies) :
    (tearDownLosers (released.head?.map Released.flow) id wait.caller tick wait.dependencies
      (table.withdraw id)).2.isLive y = false := by
  obtain ⟨winner, done, -, finished, won⟩ := decides_of_outcome? race found outcome
  rw [won]
  by_cases lost : y ≠ winner
  · refine not_isLive_tearDownLosers member fun same => lost ?_
    exact (Option.some.inj same).trans (keyed winner done finished)
  · obtain rfl := not_not.1 lost
    rw [Bool.eq_false_iff]
    intro live
    have live := isLive_of_tearDownLosers live
    rw [isLive_withdraw found, not_isLive_of_completed finished] at live
    cases live

theorem Pass.upholds_contest (pass : Pass first tick table)
    (found : table.find? id = some (.suspended flow wait)) (released : List Released) :
    (first.withdraw id).Upholds (table.contest id wait released tick).2 := by
  have found₁ := pass.settled.suspended found
  have upholds := pass.upholds.withdraw found₁
  by_cases race : wait.strategy = .race
  · rw [contest, if_pos race]
    have withdrawn : (first.withdraw id).Upholds (table.withdraw id) := by
      intro x y awaits live
      rw [isLive_withdraw found] at live
      rw [find?_withdraw found, if_neg ((awaits_withdraw found₁).1 awaits).1]
      exact upholds x y awaits live
    exact withdrawn.tearDownLosers _ _ _ _ _
  · rwa [contest, if_neg race]

theorem Pass.keyed (pass : Pass first tick table) (proper : first.Proper) {done : Completion}
    (finished : table.completed? x = some done) : done.id = x :=
  proper.owned x (.completed done)
    (completed?_eq_some.1 ((pass.settled.completed? x).symm.trans finished))

theorem Pass.upholds_settle (pass : Pass first tick table) (proper : first.Proper)
    (found : table.find? id = some (.suspended flow wait))
    (outcome : table.outcome? wait = some (value, released)) {old : Flow σ} {waiting : Wait}
    (found' : (table.contest id wait released tick).2.find? id = some (.suspended old waiting))
    (later : Flow σ) :
    first.Upholds ((table.contest id wait released tick).2.put id (some (.active later))) := by
  have found₁ := pass.settled.suspended found
  have upholds := pass.upholds_contest found released
  refine upholds.resume found₁ found' (fun y member => ?_) later
  by_cases race : wait.strategy = .race
  · rw [contest, if_pos race]
    exact not_isLive_of_race (fun _ _ => pass.keyed proper) race found outcome member
  · rw [contest, if_neg race]
    exact finished_of_outcome? (proper.shapely id flow wait found₁) outcome race y member

theorem Pass.blames_settle (pass : Pass first tick table)
    (found : table.find? id = some (.suspended flow wait))
    (outcome : table.outcome? wait = some (value, released)) {gone : Cancellation}
    (known : (table.contest id wait released tick).2.cancelled? x = some gone)
    (unknown : first.cancelled? x = none) : first.Blames gone x := by
  by_cases race : wait.strategy = .race
  · rw [contest, if_pos race] at known
    rcases cancelled?_tearDownLosers known with earlier | ⟨⟨rfl, own⟩, loser, member, live, path, live'⟩
    · rw [cancelled?_withdraw found] at earlier
      exact pass.blames x gone earlier unknown
    · rw [isLive_withdraw found] at live live'
      have path' := ReflTransGen.mono (fun _ _ awaits => ((awaits_withdraw found).1 awaits).2) _ _ path
      exact ⟨wait, pass.loses race found outcome member live path' live', own⟩
  · rw [contest, if_neg race] at known
    exact pass.blames x gone known unknown

theorem Pass.settle (proper : first.Proper) (pass : Pass first tick table)
    (done : settle id tick table = .ok cancelled after) : Pass first tick after := by
  have settled := pass.settled.trans (settle_ok done).1
  rcases settle_cases done with
    ⟨-, rfl⟩ | ⟨flow, wait, value, released, found, outcome, rfl, old, waiting, later, found', rfl⟩
  · exact pass
  · refine ⟨settled, pass.upholds_settle proper found outcome found' later,
      fun x gone known unknown => pass.blames_settle found outcome ?_ unknown⟩
    rwa [cancelled?_put_live (live?_eq_some.2 (.inr ⟨waiting, found'⟩)) (by simp)] at known

theorem Pass.settleEach (proper : first.Proper) {ids : List FlowId} (pass : Pass first tick table)
    (done : settleEach tick ids table = .ok cancelled after) : Pass first tick after := by
  induction ids generalizing table cancelled with
  | nil =>
      injection done with _ same
      exact same ▸ pass
  | cons id ids ih =>
      obtain ⟨earlier, middle, later, settled, rest, -⟩ := settleEach_cons_ok.1 done
      exact ih (pass.settle proper settled) rest

/-! ## Settling all waits -/

/-- Of the live flows of a table, settling its waits cancels those that races that are won take with
them, on account of these races, and at most resumes the others. -/
structure CutsLosers (first : FlowTable σ) (tick : Tick) (cancelled : List Cancellation)
    (after : FlowTable σ) : Prop where
  losers : ∀ x, x ∈ cancelled.map Cancellation.id ↔ ∃ id wait, first.Loses id wait x
  blames : ∀ gone ∈ cancelled, first.Blames gone gone.id
  others : ∀ x, first.isLive x = true → x ∉ cancelled.map Cancellation.id →
    after.find? x = first.find? x ∨ ∃ flow wait value released stack,
      first.find? x = some (.suspended flow wait) ∧ first.outcome? wait = some (value, released) ∧
        after.find? x = some (.active
          (flow.resumed stack ⟨tick, wait.caller, wait.isDependency, released⟩))

theorem Decides.outcome (decides : table.Decides id wait x) : table.outcome? wait ≠ none := by
  obtain ⟨done, finished, -⟩ := decides.first
  intro unsatisfied
  simp only [outcome?, decides.race, Option.bind_eq_bind, Option.bind_eq_none_iff] at unsatisfied
  cases first : table.firstCompleted? wait.dependencies with
  | none => cases (firstCompleted?_eq_none.1 first x decides.listed).symm.trans finished
  | some winner => simpa using unsatisfied winner first

theorem Pass.moved (pass : Pass first tick after) (unsettled : after.Unsettled)
    (decides : first.Decides id wait x) : after.find? id ≠ first.find? id := by
  intro same
  obtain ⟨flow, found⟩ := decides.waits
  have outcome := unsettled id flow wait (same.trans found)
  exact decides.outcome ((pass.settled.outcome? wait).symm.trans outcome)

theorem Pass.not_isLive (pass : Pass first tick after) (moved : after.find? id ≠ first.find? id)
    (loses : first.Loses id wait x) : after.isLive x = false := by
  obtain ⟨winner, decides, loser, member, -, path, -⟩ := loses
  obtain ⟨flow, found⟩ := decides.waits
  -- Who was waited for by a flow that is no longer as it was is not live, all along the path.
  have dead {x y : Nat} (awaits : y ∈ first.dependencies x)
      (moved : after.find? x ≠ first.find? x) : after.isLive y = false := by
    rw [Bool.eq_false_iff]
    intro live
    exact moved (pass.upholds x y ⟨awaits, pass.isLive live⟩ live)
  induction path with
  | refl => exact dead (dependencies_of_suspended found ▸ member) moved
  | tail _ awaits ih =>
      refine dead awaits.1 fun same => ?_
      obtain ⟨flow', wait', found', -⟩ := suspended_of_mem_dependencies awaits.1
      exact Bool.false_ne_true (ih.symm.trans (isLive_of_suspended (same.trans found')))

theorem Settled.cancelled_of_not_isLive (settled : Settled first tick after)
    (live : first.isLive x = true) (dead : after.isLive x = false) :
    ∃ gone, after.cancelled? x = some gone ∧ first.cancelled? x = none := by
  have change := settled.phases x
  unfold FlowTable.isLive live? at live dead
  unfold FlowTable.cancelled?
  generalize first.find? x = before at change live
  generalize after.find? x = later at change dead
  cases change with
  | spared spares =>
      cases spares with
      | same => cases live.symm.trans dead
      | active | suspended => exact ⟨_, rfl, rfl⟩
  | resumed => cases dead

theorem cutsLosers_resolve (proper : first.Proper)
    (done : resolve tick first = .ok cancelled after) : first.CutsLosers tick cancelled after := by
  have pass := (Pass.start first tick).settleEach proper done
  have unsettled := (resolve_ok done).2
  have gains := gains_resolve proper.named done
  have blames : ∀ gone ∈ cancelled, first.Blames gone gone.id := fun gone member => by
    obtain ⟨known, unknown⟩ := (gains.listed gone.id gone).2 ⟨member, rfl⟩
    exact pass.blames gone.id gone known unknown
  refine ⟨fun x => ⟨fun listed => ?_, fun ⟨id, wait, loses⟩ => ?_⟩, blames,
    fun x live unlisted => ?_⟩
  · obtain ⟨gone, member, rfl⟩ := List.mem_map.1 listed
    obtain ⟨wait, loses, -⟩ := blames gone member
    exact ⟨_, wait, loses⟩
  · obtain ⟨winner, decides, loser, listed, lost, path, live⟩ := loses
    have dead := pass.not_isLive (pass.moved unsettled decides)
      ⟨winner, decides, loser, listed, lost, path, live⟩
    obtain ⟨gone, known, unknown⟩ := pass.settled.cancelled_of_not_isLive live dead
    obtain ⟨member, own⟩ := (gains.listed x gone).1 ⟨known, unknown⟩
    exact List.mem_map.2 ⟨gone, member, own⟩
  · have spared : after.isLive x = true := by
      by_contra dead
      obtain ⟨gone, changed⟩ :=
        pass.settled.cancelled_of_not_isLive live (Bool.eq_false_iff.2 dead)
      obtain ⟨member, own⟩ := (gains.listed x gone).1 changed
      exact unlisted (List.mem_map.2 ⟨gone, member, own⟩)
    have change := pass.settled.phases x
    unfold FlowTable.isLive live? at spared
    generalize first.find? x = before at change
    generalize after.find? x = later at change spared
    cases change with
    | spared spares =>
        cases spares with
        | same => exact .inl rfl
        | active => cases spared
        | suspended => cases spared
    | resumed outcome => exact .inr ⟨_, _, _, _, _, rfl, outcome, rfl⟩

/-! ## Operations -/

section Operations

variable {before : FlowTable σ} {change : Change σ} {changes : List (Change σ)}

def Change.resolvesAt? : Change σ → Option Tick
  | .suspend _ _ tick | .complete _ _ _ tick => some tick
  | .create _ _ _ _ | .edit _ _ | .cancel _ _ _ _ => none

def Change.Checked (change : Change σ) : Prop :=
  ∀ id wait tick, change = .suspend id wait tick →
    wait.strategy.check id wait.dependencies.length = .ok ()

theorem shapely_recorded (shapely : before.Shapely) (checked : change.Checked) :
    (change.recorded before).Shapely := by
  intro id flow wait found
  have marks := recorded_marks change before id
  rw [found] at marks
  generalize earlier : before.find? id = first at marks
  cases marks with
  | same => exact shapely id flow wait earlier
  | suspended _ _ tick _ => exact checked id wait tick rfl

theorem shapely_attempt (shapely : before.Shapely) (upright : before.Upright)
    (keeps : change.KeepsRecords) : (change.attempt before).Shapely := by
  by_cases checked : change.Checked
  · rcases attempt_settled upright keeps with same | ⟨tick, settled⟩
    · rwa [same]
    · exact fun id flow wait found =>
        shapely_recorded shapely checked id flow wait (settled.suspended found)
  · -- Where the wait is refused, the operation changes nothing.
    simp only [Change.Checked, not_forall] at checked
    obtain ⟨id, wait, tick, rfl, shapeless⟩ := checked
    suffices same : (Change.suspend id wait tick).attempt before = before by rwa [same]
    cases check : before.checkSuspension id wait with
    | error e => simp only [Change.attempt, Engine.after, Change.apply, suspend, check]
    | ok flow => exact absurd (checkSuspension_eq_ok.1 check).2 shapeless

theorem shapely_ledger (keeps : ∀ change ∈ changes, change.KeepsRecords) :
    (ledger changes).table.Shapely := by
  induction changes using List.reverseRecOn with
  | nil =>
      intro id flow wait found
      cases (find?_empty (σ := σ)).symm.trans found
  | append_singleton past change ih =>
      rw [ledger_concat]
      have earlier : ∀ change ∈ past, change.KeepsRecords :=
        fun c member => keeps c (List.mem_append_left _ member)
      exact shapely_attempt (ih earlier) (kept_ledger earlier).upright (keeps change (by simp))

theorem apply_resolves (settles : change.resolvesAt? = some tick)
    (done : change.apply before = .ok cancelled after) :
    change.Checked ∧ resolve tick (change.recorded before) = .ok cancelled after := by
  cases change with
  | create => cases settles
  | edit => cases settles
  | cancel => cases settles
  | suspend id wait tick' =>
      obtain rfl := Option.some.inj settles
      simp only [Change.apply, suspend] at done
      split at done
      next => cases done
      next flow accepted =>
        obtain ⟨active, shapely⟩ := checkSuspension_eq_ok.1 accepted
        simp only [Change.recorded, active]
        refine ⟨fun id wait tick same => ?_, done⟩
        obtain ⟨rfl, rfl, -⟩ := Change.suspend.inj same
        exact shapely
  | complete id value last tick' =>
      obtain rfl := Option.some.inj settles
      simp only [Change.apply, complete] at done
      split at done
      next => cases done
      next flow active =>
        rw [completions_put] at done
        simp only [Change.recorded, active]
        refine ⟨fun _ _ _ same => ?_, done⟩
        cases same

theorem cancelled?_recorded (change : Change σ) (before : FlowTable σ) (id : FlowId) :
    (change.recorded before).cancelled? id = before.cancelled? id := by
  have marks := recorded_marks change before id
  unfold FlowTable.cancelled?
  generalize before.find? id = first at marks
  generalize (change.recorded before).find? id = last at marks
  cases marks <;> rfl

/--
Races cancel exactly what they take with them. Whatever operations a table has gone through, when one
of them settles waits, it lists the flows that it makes cancelled, each once, and these are the live
flows that races which are won by then have as losers, or that such losers wait for.
-/
theorem races_cancel_their_losers (keeps : ∀ change ∈ changes, change.KeepsRecords)
    (settles : change.resolvesAt? = some tick)
    (done : change.apply (ledger changes).table = .ok cancelled after) :
    Gains Cancellation.id (ledger changes).table.cancelled? after.cancelled? cancelled ∧
      (change.recorded (ledger changes).table).CutsLosers tick cancelled after := by
  obtain ⟨checked, resolved⟩ := apply_resolves settles done
  have proper : (change.recorded (ledger changes).table).Proper := by
    refine ⟨fun id => ?_, shapely_recorded (shapely_ledger keeps) checked⟩
    exact (recorded_marks change _ id).owner ((kept_ledger keeps).owned id)
  have gains := gains_resolve proper.named resolved
  rw [funext (cancelled?_recorded change _)] at gains
  exact ⟨gains, cutsLosers_resolve proper resolved⟩

/--
Flows 1 and 6 are about to race, the one against flow 3 and the other against flow 4. Flow 3 waits for
flows 4 and 5, so that the second race will find its loser gone with that of the first.
-/
def racesBegun : List (Change Unit) :=
  let start : Change Unit := .create ⟨"flow", [], ()⟩ none false 0
  let on (strategy : Strategy) (ids : List FlowId) : Wait := ⟨strategy, ⟨"object", 0⟩, true, ids, 0⟩
  [start, start, start, start, start, start, .suspend 3 (on .all [4, 5]) 0,
    .suspend 1 (on .race [3, 2]) 0, .suspend 6 (on .race [2, 4]) 0]

theorem races_cancel_shared_losers_once : ∃ cancelled after,
    (∀ change ∈ racesBegun, change.KeepsRecords) ∧
      (Change.complete 2 (.int 7) none 1).apply (ledger racesBegun).table = .ok cancelled after ∧
      cancelled.map (fun gone => (gone.id, gone.parent)) = [(3, 1), (4, 1), (5, 1)] ∧
      Gains Cancellation.id (ledger racesBegun).table.cancelled? after.cancelled? cancelled ∧
      ((Change.complete 2 (.int 7) none 1).recorded (ledger racesBegun).table).CutsLosers 1
        cancelled after := by
  have keeps : ∀ change ∈ racesBegun, change.KeepsRecords := by simp [racesBegun, Change.KeepsRecords]
  exact ⟨_, _, keeps, rfl, rfl, races_cancel_their_losers keeps rfl rfl⟩

end Operations

end Cadence.FlowTable
