import Cadence.Proofs.FlowTable.Excerpt
import Cadence.Proofs.FlowTable.Separation
/-!
Waits are settled in an excerpt as they are in the whole table, where kept flows wait for kept flows
only.
-/

namespace Cadence.FlowTable

variable {σ : Type} {s : Selection} {whole part after : FlowTable σ} {root id : Nat} {flow : Flow σ}
  {wait : Wait} {tick : Tick} {ids : List FlowId}

structure Aligned (s : Selection) (whole part : FlowTable σ) : Prop where
  keyed : ∀ id done, s.kept id = true → whole.completed? id = some done → done.id = id
  below : ∀ id done, s.kept id = true → whole.completed? id = some done →
    done.order ≤ whole.completions
  below' : ∀ id done, s.kept id = true → part.completed? (s.number id) = some done →
    done.order ≤ part.completions
  orders : ∀ id other done last done' last', s.kept id = true → s.kept other = true →
    whole.completed? id = some done → whole.completed? other = some last →
    part.completed? (s.number id) = some done' → part.completed? (s.number other) = some last' →
      (done.order < last.order ↔ done'.order < last'.order)

theorem Aligned.congr {whole' part' : FlowTable σ} (aligned : Aligned s whole part)
    (same : ∀ id, s.kept id = true → whole'.completed? id = whole.completed? id)
    (same' : ∀ id, s.kept id = true → part'.completed? (s.number id) = part.completed? (s.number id))
    (grows : whole.completions ≤ whole'.completions)
    (grows' : part.completions ≤ part'.completions) : Aligned s whole' part' where
  keyed id done kept finished := aligned.keyed id done kept (same id kept ▸ finished)
  below id done kept finished :=
    Nat.le_trans (aligned.below id done kept (same id kept ▸ finished)) grows
  below' id done kept finished :=
    Nat.le_trans (aligned.below' id done kept (same' id kept ▸ finished)) grows'
  orders id other done last done' last' kept kept' finished finished' again again' :=
    aligned.orders id other done last done' last' kept kept' (same id kept ▸ finished)
      (same other kept' ▸ finished') (same' id kept ▸ again) (same' other kept' ▸ again')

theorem Aligned.settled {whole' part' : FlowTable σ} (aligned : Aligned s whole part)
    (settled : Settled whole tick whole') (settled' : Settled part tick part') :
    Aligned s whole' part' :=
  aligned.congr (fun _ _ => settled.completed? _) (fun _ _ => settled'.completed? _)
    (Nat.le_of_eq settled.completions.symm) (Nat.le_of_eq settled'.completions.symm)

namespace Excerpt

theorem firstCompleted? (excerpt : Excerpt s whole part) (aligned : Aligned s whole part)
    (known : ∀ id ∈ ids, s.kept id = true) :
    Option.Rel (fun done done' => done' = { done.renumber s.number with order := done'.order })
      (whole.firstCompleted? ids) (part.firstCompleted? (ids.map s.number)) := by
  -- The earliest one so far is that of the same flow in both tables.
  let Same (done done' : Completion) : Prop := ∃ id : Nat, s.kept id = true ∧
    whole.completed? id = some done ∧ part.completed? (s.number id) = some done'
  have fold (first? first?' : Option Completion) (same : Option.Rel Same first? first?') :
      Option.Rel Same ((ids.filterMap whole.completed?).foldl earliest first?)
        (((ids.map s.number).filterMap part.completed?).foldl earliest first?') := by
    induction ids generalizing first? first?' with
    | nil => exact same
    | cons id ids ih =>
        have ih := ih fun other member => known other (List.mem_cons_of_mem _ member)
        have kept := known id (List.mem_cons_self ..)
        have related := excerpt.completed? kept
        rw [List.map_cons, List.filterMap_cons, List.filterMap_cons]
        cases finished : whole.completed? id with
        | none =>
            rw [finished] at related
            generalize part.completed? (s.number id) = other at related
            cases related with | none => exact ih first? first?' same
        | some done =>
            rw [finished] at related
            cases finished' : part.completed? (s.number id) with
            | none =>
                rw [finished'] at related
                cases related
            | some done' =>
                refine ih _ _ ?_
                cases same with
                | none => exact .some ⟨id, kept, finished, finished'⟩
                | @some first first' same =>
                    obtain ⟨other, kept', earlier, earlier'⟩ := same
                    have orders := aligned.orders id other done first done' first' kept kept' finished
                      earlier finished' earlier'
                    unfold earliest
                    simp only [← orders]
                    split
                    · exact .some ⟨id, kept, finished, finished'⟩
                    · exact .some ⟨other, kept', earlier, earlier'⟩
  have folded := fold none none .none
  show Option.Rel _ ((ids.filterMap whole.completed?).foldl earliest none)
    (((ids.map s.number).filterMap part.completed?).foldl earliest none)
  generalize (ids.filterMap whole.completed?).foldl earliest none = first? at folded ⊢
  generalize ((ids.map s.number).filterMap part.completed?).foldl earliest none = first?' at folded ⊢
  cases folded with
  | none => exact .none
  | some same =>
      obtain ⟨id, kept, finished, finished'⟩ := same
      have related := excerpt.completed? kept
      rw [finished, finished'] at related
      cases related with | some same => exact .some same

theorem outcome? (excerpt : Excerpt s whole part) (aligned : Aligned s whole part)
    (known : ∀ id ∈ wait.dependencies, s.kept id = true) :
    part.outcome? (wait.renumber s.number) = (whole.outcome? wait).map fun (value, released) =>
      (value, released.map (Released.renumber s.number)) := by
  unfold FlowTable.outcome?
  rw [show (wait.renumber s.number).strategy = wait.strategy from rfl,
    show (wait.renumber s.number).dependencies = wait.dependencies.map s.number from rfl]
  cases wait.strategy with
  | single =>
      cases first : wait.dependencies.head? with
      | none => simp [first]
      | some id =>
          have kept := known id (List.mem_of_head? first)
          cases finished : whole.released? id with
          | none => simp [first, excerpt.released? kept, finished]
          | some released => simp [first, excerpt.released? kept, finished, Released.renumber]
  | all =>
      have collected : (wait.dependencies.map s.number).mapM part.released? =
          (wait.dependencies.mapM whole.released?).map (List.map (Released.renumber s.number)) := by
        generalize wait.dependencies = ids at known
        induction ids with
        | nil => rfl
        | cons id ids ih =>
            have ih := ih fun other member => known other (List.mem_cons_of_mem _ member)
            rw [List.map_cons, List.mapM_cons, List.mapM_cons, ih,
              excerpt.released? (known id (List.mem_cons_self ..))]
            cases whole.released? id with
            | none => rfl
            | some one => cases ids.mapM whole.released? <;> rfl
      simp only [collected]
      cases wait.dependencies.mapM whole.released? with
      | none => rfl
      | some released => simp [Released.renumber, Function.comp_def]
  | race =>
      have related := excerpt.firstCompleted? aligned known
      simp only
      generalize whole.firstCompleted? wait.dependencies = first? at related ⊢
      generalize part.firstCompleted? (wait.dependencies.map s.number) = first?' at related ⊢
      cases related with
      | none => rfl
      | some same =>
          rw [same]
          rfl

theorem unseen (excerpt : Excerpt s whole part) {seen : List FlowId}
    (known : ∀ id ∈ seen, s.kept id = true) (known' : ∀ id ∈ ids, s.kept id = true) :
    part.graph.unseen (seen.map s.number) (ids.map s.number) =
      (whole.graph.unseen seen ids).map s.number := by
  induction ids generalizing seen with
  | nil => rfl
  | cons id ids ih =>
      have kept := known' id (List.mem_cons_self ..)
      have rest : ∀ id ∈ ids, s.kept id = true := fun other member =>
        known' other (List.mem_cons_of_mem _ member)
      have listed : s.number id ∈ seen.map s.number ↔ id ∈ seen := by
        refine ⟨fun member => ?_, List.mem_map_of_mem⟩
        obtain ⟨other, member, same⟩ := List.mem_map.1 member
        exact Selection.number_inj (known other member) kept same ▸ member
      have fresh : part.graph.isLive (s.number id) = true ∧ s.number id ∉ seen.map s.number ↔
          whole.graph.isLive id = true ∧ id ∉ seen := by
        rw [graph_isLive, graph_isLive, excerpt.isLive kept, listed]
      rw [List.map_cons, AwaitGraph.unseen, AwaitGraph.unseen]
      simp only [fresh]
      split
      · rw [List.map_cons, ← ih (List.forall_mem_cons.2 ⟨kept, known⟩) rest, List.map_cons]
      · exact ih known rest

theorem explore (excerpt : Excerpt s whole part) (closed : whole.Closed s.kept) (fuel : Nat)
    {queue found : List FlowId} (first : s.kept root = true)
    (queued : ∀ id ∈ queue, s.kept id = true) (known : ∀ id ∈ found, s.kept id = true) :
    part.graph.explore (s.number root) fuel (queue.map s.number) (found.map s.number) =
      (whole.graph.explore root fuel queue found).map s.number := by
  induction fuel generalizing queue found with
  | zero => rfl
  | succ fuel ih =>
      cases queue with
      | nil => rfl
      | cons id queue =>
          obtain ⟨kept, queued⟩ := List.forall_mem_cons.1 queued
          have dependencies : ∀ child ∈ whole.dependencies id, s.kept child = true :=
            fun child member => (closed id child member).trans kept
          have fresh : ∀ child ∈ whole.graph.unseen (root :: found) (whole.dependencies id),
              s.kept child = true := fun child member => dependencies child (mem_unseen.1 member).1
          rw [List.map_cons]
          simp only [AwaitGraph.explore, graph_dependencies]
          rw [excerpt.dependencies kept, ← List.map_cons,
            excerpt.unseen (List.forall_mem_cons.2 ⟨first, known⟩) dependencies, ← List.map_append,
            ← List.map_append]
          exact ih (List.forall_mem_append.2 ⟨queued, fresh⟩) (List.forall_mem_append.2 ⟨known, fresh⟩)

theorem liveDescendants (excerpt : Excerpt s whole part) (closed : whole.Closed s.kept)
    (first : s.kept root = true) :
    part.liveDescendants (s.number root) = (whole.liveDescendants root).map s.number := by
  have enough : part.phases.size < whole.phases.size + part.phases.size + 1 := by omega
  have enough' : whole.phases.size < whole.phases.size + part.phases.size + 1 := by omega
  rw [← explore_eq_liveDescendants enough, ← explore_eq_liveDescendants enough']
  have queued : ∀ id ∈ [root], s.kept id = true := List.forall_mem_singleton.2 first
  have known : ∀ id ∈ ([] : List FlowId), s.kept id = true := fun _ member => nomatch member
  exact excerpt.explore closed _ first queued known

theorem tearDown (excerpt : Excerpt s whole part) (parent : FlowId) (caller : Option Address)
    (tick : Tick) (known : ∀ id ∈ ids, s.kept id = true) :
    (FlowTable.tearDown (s.number parent) caller tick (ids.map s.number) part).1 =
        (FlowTable.tearDown parent caller tick ids whole).1.map (Cancellation.renumber s.number) ∧
      Excerpt s (FlowTable.tearDown parent caller tick ids whole).2
        (FlowTable.tearDown (s.number parent) caller tick (ids.map s.number) part).2 := by
  induction ids generalizing whole part with
  | nil => exact ⟨rfl, excerpt⟩
  | cons id ids ih =>
      obtain ⟨kept, known⟩ := List.forall_mem_cons.1 known
      rw [List.map_cons]
      unfold FlowTable.tearDown
      rw [excerpt.live? kept]
      cases live : whole.live? id with
      | none => exact ih excerpt known
      | some flow =>
          obtain ⟨old, found⟩ : ∃ old, whole.find? id = some old := by
            rcases live?_eq_some.1 live with active | ⟨wait, suspended⟩
            · exact ⟨_, active⟩
            · exact ⟨_, suspended⟩
          have put := excerpt.put kept found (.cancelled (flow.cancellation parent caller tick))
          obtain ⟨cancelled, later⟩ := ih put known
          refine ⟨?_, later⟩
          simp only [Option.map_some, List.map_cons, ← cancelled]
          rfl

theorem cancelTree (excerpt : Excerpt s whole part) (closed : whole.Closed s.kept) (parent : FlowId)
    (caller : Option Address) (tick : Tick) (first : s.kept root = true) :
    (part.cancelTree (s.number root) (s.number parent) caller tick).1 =
        (whole.cancelTree root parent caller tick).1.map (Cancellation.renumber s.number) ∧
      Excerpt s (whole.cancelTree root parent caller tick).2
        (part.cancelTree (s.number root) (s.number parent) caller tick).2 := by
  unfold FlowTable.cancelTree
  rw [excerpt.liveDescendants closed first, ← List.map_cons]
  exact excerpt.tearDown parent caller tick fun id member =>
    (kept_liveDescendants closed id member).trans first

theorem tearDownLosers (excerpt : Excerpt s whole part) (closed : whole.Closed s.kept) (parent : FlowId)
    (here : Address) (tick : Tick) {winner : Option FlowId} (won : ∀ id ∈ winner, s.kept id = true)
    (known : ∀ id ∈ ids, s.kept id = true) :
    (FlowTable.tearDownLosers (winner.map s.number) (s.number parent) here tick (ids.map s.number)
          part).1 = (FlowTable.tearDownLosers winner parent here tick ids whole).1.map
            (Cancellation.renumber s.number) ∧
      Excerpt s (FlowTable.tearDownLosers winner parent here tick ids whole).2
        (FlowTable.tearDownLosers (winner.map s.number) (s.number parent) here tick (ids.map s.number)
          part).2 := by
  induction ids generalizing whole part with
  | nil => exact ⟨rfl, excerpt⟩
  | cons id ids ih =>
      obtain ⟨kept, known⟩ := List.forall_mem_cons.1 known
      have lost : some (s.number id) ≠ winner.map s.number ↔ some id ≠ winner := by
        refine not_congr ⟨fun same => ?_, fun same => by rw [← same]; rfl⟩
        obtain ⟨first, won', same⟩ := Option.map_eq_some_iff.1 same.symm
        rw [won', Selection.number_inj (won first won') kept same]
      rw [List.map_cons]
      unfold FlowTable.tearDownLosers
      simp only [lost, excerpt.isLive kept]
      split
      · obtain ⟨cancelled, excerpt⟩ := excerpt.cancelTree closed parent (some here) tick kept
        obtain ⟨later, excerpt⟩ := ih excerpt (closed.cancelTree id parent (some here) tick) known
        exact ⟨by simp only [List.map_append, cancelled, later], excerpt⟩
      · exact ih excerpt closed known

theorem withdraw (excerpt : Excerpt s whole part) (kept : s.kept id = true) :
    Excerpt s (whole.withdraw id) (part.withdraw (s.number id)) := by
  unfold FlowTable.withdraw
  rw [excerpt.suspended? kept]
  cases waiting : whole.suspended? id with
  | none => exact excerpt
  | some pair =>
      obtain ⟨flow, wait⟩ := pair
      exact excerpt.put kept (suspended?_eq_some.1 waiting) (.suspended flow { wait with dependencies := [] })

theorem resume (excerpt : Excerpt s whole part) (kept : s.kept id = true) {value : Json}
    {released : List Released}
    (done : FlowTable.resume id wait value released tick whole = .ok () after) :
    ∃ after', FlowTable.resume (s.number id) (wait.renumber s.number) value
        (released.map (Released.renumber s.number)) tick part = .ok () after' ∧
      Excerpt s after after' := by
  obtain ⟨flow, wait', stack, found, pushed, rfl⟩ := resume_ok done
  obtain ⟨top, below, records, rfl⟩ := Stack.modify_top_ok pushed
  have pushed' := @Stack.modify_top (flow.renumber s.number).stack top below records
    (·.push (.provideGiven value))
  exact ⟨_, resume_eq (excerpt.suspended kept found) pushed', excerpt.put kept found (.active _)⟩

theorem contest (excerpt : Excerpt s whole part) (aligned : Aligned s whole part)
    (closed : whole.Closed s.kept) (kept : s.kept id = true) {value : Json} {released : List Released}
    (known : ∀ dependency ∈ wait.dependencies, s.kept dependency = true)
    (outcome : whole.outcome? wait = some (value, released)) (tick : Tick) :
    let lost := whole.contest id wait released tick
    let lost' := part.contest (s.number id) (wait.renumber s.number)
      (released.map (Released.renumber s.number)) tick
    lost'.1 = lost.1.map (Cancellation.renumber s.number) ∧ Excerpt s lost.2 lost'.2 := by
  unfold FlowTable.contest
  rw [show (wait.renumber s.number).strategy = wait.strategy from rfl]
  by_cases race : wait.strategy = .race
  · simp only [if_pos race]
    have named : (released.map (Released.renumber s.number)).head?.map Released.flow =
        (released.head?.map Released.flow).map s.number := by
      cases released <;> rfl
    rw [named]
    refine (excerpt.withdraw kept).tearDownLosers (closed.withdraw id) id wait.caller tick ?_ known
    intro first won
    cases resolves_of_outcome? outcome with
    | single kind => exact absurd (kind.symm.trans race) (by simp)
    | all kind => exact absurd (kind.symm.trans race) (by simp)
    | race kind winner =>
        obtain ⟨⟨place, listed, finished⟩, -⟩ := firstCompleted?_eq_some winner
        obtain rfl : _ = first := by simpa using won
        rw [aligned.keyed place _ (known place listed) finished]
        exact known place listed
  · simp only [if_neg race]
    exact ⟨rfl, excerpt⟩

theorem settle (excerpt : Excerpt s whole part) (aligned : Aligned s whole part)
    (closed : whole.Closed s.kept) (kept : s.kept id = true) {cancelled : List Cancellation}
    (done : FlowTable.settle id tick whole = .ok cancelled after) :
    ∃ after', FlowTable.settle (s.number id) tick part =
        .ok (cancelled.map (Cancellation.renumber s.number)) after' ∧ Excerpt s after after' := by
  have same := excerpt.suspended? kept
  cases waiting : whole.suspended? id with
  | none =>
      simp only [waiting, Option.map_none] at same
      simp only [FlowTable.settle, waiting, same] at done ⊢
      injection done with nothing same
      subst nothing same
      exact ⟨part, rfl, excerpt⟩
  | some pair =>
      obtain ⟨flow, wait⟩ := pair
      have found := suspended?_eq_some.1 waiting
      have known : ∀ dependency ∈ wait.dependencies, s.kept dependency = true :=
        fun dependency member =>
          (closed id dependency (dependencies_of_suspended found ▸ member)).trans kept
      have outcome' := excerpt.outcome? aligned known
      cases outcome : whole.outcome? wait with
      | none =>
          simp only [outcome, Option.map_none] at outcome'
          simp only [waiting, Option.map_some] at same
          simp only [FlowTable.settle, waiting, same, outcome, outcome'] at done ⊢
          injection done with nothing same
          subst nothing same
          exact ⟨part, rfl, excerpt⟩
      | some result =>
          obtain ⟨value, released⟩ := result
          simp only [outcome, Option.map_some] at outcome'
          rw [settle_eq found outcome] at done
          rw [settle_eq (excerpt.suspended kept found) outcome']
          obtain ⟨lost, between⟩ := excerpt.contest aligned closed kept known outcome tick
          split at done
          next resumed =>
            injection done with same last
            subst same last
            obtain ⟨after', resumed', related⟩ := between.resume kept resumed
            exact ⟨after', by rw [resumed', lost], related⟩
          next => cases done

theorem settleEach (excerpt : Excerpt s whole part) (aligned : Aligned s whole part)
    (closed : whole.Closed s.kept) (known : ∀ id ∈ ids, s.kept id = true)
    {cancelled : List Cancellation}
    (done : FlowTable.settleEach tick ids whole = .ok cancelled after) :
    ∃ after', FlowTable.settleEach tick (ids.map s.number) part =
        .ok (cancelled.map (Cancellation.renumber s.number)) after' ∧ Excerpt s after after' := by
  induction ids generalizing whole part cancelled with
  | nil =>
      injection done with nothing same
      subst nothing same
      exact ⟨part, rfl, excerpt⟩
  | cons id ids ih =>
      obtain ⟨kept, known⟩ := List.forall_mem_cons.1 known
      obtain ⟨earlier, mid, later, first, rest, rfl⟩ := settleEach_cons_ok.1 done
      obtain ⟨mid', first', between⟩ := excerpt.settle aligned closed kept first
      have aligned := aligned.settled (settle_ok first).1 (settle_ok first').1
      obtain ⟨after', rest', related⟩ :=
        ih between aligned (closed.settled (settle_ok first).1) known rest
      rw [List.map_cons]
      exact ⟨after', settleEach_cons_ok.2 ⟨_, mid', _, first', rest', (List.map_append ..).symm⟩, related⟩

theorem ready (excerpt : Excerpt s whole part) (aligned : Aligned s whole part)
    (closed : whole.Closed s.kept) : part.ready = (whole.ready.filter s.kept).map s.number := by
  refine excerpt.collect (fun id phase phase' kept found like => ?_) (fun id phase other seen => ?_)
    fun id phase found dead => ?_
  · cases like with
    | suspended flow wait =>
        have known : ∀ dependency ∈ wait.dependencies, s.kept dependency = true :=
          fun dependency member =>
            (closed id dependency (dependencies_of_suspended found ▸ member)).trans kept
        simp only [excerpt.outcome? aligned known, Option.isSome_map]
        split <;> rfl
    | active => rfl
    | completed => rfl
    | cancelled => rfl
  · cases phase with
    | suspended flow wait =>
        simp only at seen
        split at seen
        · rw [Option.some.inj seen]
        · cases seen
    | active => cases seen
    | completed => cases seen
    | cancelled => cases seen
  · cases phase with
    | suspended flow wait => simp [isLive_of_suspended found] at dead
    | active => rfl
    | completed => rfl
    | cancelled => rfl

theorem resolve (excerpt : Excerpt s whole part) (aligned : Aligned s whole part)
    (closed : whole.Closed s.kept) (known : ∀ id ∈ whole.ready, s.kept id = true)
    {cancelled : List Cancellation} (done : FlowTable.resolve tick whole = .ok cancelled after) :
    ∃ after', FlowTable.resolve tick part =
        .ok (cancelled.map (Cancellation.renumber s.number)) after' ∧
      Excerpt s after after' ∧ Aligned s after after' := by
  have same : part.ready = whole.ready.map s.number := by
    rw [excerpt.ready aligned closed, List.filter_eq_self.2 known]
  obtain ⟨after', done', related⟩ := excerpt.settleEach aligned closed known done
  rw [← same] at done'
  exact ⟨after', done', related, aligned.settled (resolve_ok done).1 (resolve_ok done').1⟩

variable {old : Flow σ} {request : Request σ} {here : Address}

theorem awaiting (excerpt : Excerpt s whole part) (kept : s.kept id = true)
    (found : whole.find? id = some (.active old))
    (new : ∀ child : Nat, whole.phases.size < child →
      child ≤ whole.phases.size + request.recipes.length → s.kept child = true) :
    Excerpt s (whole.awaiting id flow request here tick)
      (part.awaiting (s.number id) (flow.renumber s.number) request here tick) := by
  have active : (whole.put id (some (.active flow))).find? id = some (.active flow) :=
    find?_put_self found
  obtain ⟨ids, made⟩ := (excerpt.put kept found (.active flow)).createAll (some here)
    request.isDependency tick request.recipes (by simpa using new)
  obtain ⟨-, -, old, -⟩ := createAll_spec (some here) request.isDependency tick
    request.recipes (whole.put id (some (.active flow)))
  unfold FlowTable.awaiting
  simp only [ids]
  exact made.put kept ((old id (le_size_of_find? active).2).trans active) (.suspended flow _)

theorem completing (excerpt : Excerpt s whole part) (kept : s.kept id = true)
    (found : whole.find? id = some (.active old)) (done : Completion) (order : Nat) :
    Excerpt s (whole.completing id done)
      (part.completing (s.number id) { done.renumber s.number with order }) := by
  have put := excerpt.put kept found (.completed done order)
  exact ⟨put.size, put.phases, put.past⟩

end Excerpt

theorem Aligned.awaiting (aligned : Aligned s whole part) {old old' : Flow σ}
    (found : whole.find? id = some (.active old))
    (found' : part.find? (s.number id) = some (.active old')) (flow flow' : Flow σ)
    (request : Request σ) (here : Address) (tick : Tick) :
    Aligned s (whole.awaiting id flow request here tick)
      (part.awaiting (s.number id) flow' request here tick) :=
  aligned.congr (fun other _ => completed?_awaiting found flow request here tick other)
    (fun other _ => completed?_awaiting found' flow' request here tick (s.number other))
    (Nat.le_of_eq (completions_awaiting ..).symm) (Nat.le_of_eq (completions_awaiting ..).symm)

theorem Aligned.completing (aligned : Aligned s whole part) (kept : s.kept id = true)
    {old old' : Flow σ} (found : whole.find? id = some (.active old))
    (found' : part.find? (s.number id) = some (.active old')) {done done' : Completion}
    (named : done.id = id) (last : done.order = whole.completions + 1)
    (last' : done'.order = part.completions + 1) :
    Aligned s (whole.completing id done) (part.completing (s.number id) done') := by
  have here : (whole.completing id done).completed? id = some done := by
    simp [completed?, find?_completing found]
  have here' : (part.completing (s.number id) done').completed? (s.number id) = some done' := by
    simp [completed?, find?_completing found']
  have apart {other : Nat} (distinct : other ≠ id) :
      (whole.completing id done).completed? other = whole.completed? other :=
    completed?_completing found done distinct
  have apart' {other : Nat} (kept' : s.kept other = true) (distinct : other ≠ id) :
      (part.completing (s.number id) done').completed? (s.number other) =
        part.completed? (s.number other) :=
    completed?_completing found' done' fun same => distinct (Selection.number_inj kept' kept same)
  constructor
  case keyed =>
    intro other ended kept' finished
    by_cases same : other = id
    · subst same
      obtain rfl := Option.some.inj (here.symm.trans finished)
      exact named
    · exact aligned.keyed other ended kept' (apart same ▸ finished)
  case below =>
    intro other ended kept' finished
    by_cases same : other = id
    · subst same
      obtain rfl := Option.some.inj (here.symm.trans finished)
      exact Nat.le_of_eq last
    · exact Nat.le_succ_of_le (aligned.below other ended kept' (apart same ▸ finished))
  case below' =>
    intro other ended kept' finished
    by_cases same : other = id
    · subst same
      obtain rfl := Option.some.inj (here'.symm.trans finished)
      exact Nat.le_of_eq last'
    · exact Nat.le_succ_of_le (aligned.below' other ended kept' (apart' kept' same ▸ finished))
  -- The flow that completes comes behind all others, on both sides.
  case orders =>
    intro other third ended final ended' final' kept' kept'' finished finished' again again'
    by_cases same : other = id
    · subst same
      obtain rfl := Option.some.inj (here.symm.trans finished)
      obtain rfl := Option.some.inj (here'.symm.trans again)
      by_cases same' : third = other
      · subst same'
        obtain rfl := Option.some.inj (here.symm.trans finished')
        obtain rfl := Option.some.inj (here'.symm.trans again')
        simp
      · have bound := aligned.below third final kept'' (apart same' ▸ finished')
        have bound' := aligned.below' third final' kept'' (apart' kept'' same' ▸ again')
        omega
    · by_cases same' : third = id
      · subst same'
        obtain rfl := Option.some.inj (here.symm.trans finished')
        obtain rfl := Option.some.inj (here'.symm.trans again')
        have bound := aligned.below other ended kept' (apart same ▸ finished)
        have bound' := aligned.below' other ended' kept' (apart' kept' same ▸ again)
        omega
      · exact aligned.orders other third ended final ended' final' kept' kept''
          (apart same ▸ finished) (apart same' ▸ finished') (apart' kept' same ▸ again)
          (apart' kept'' same' ▸ again')

end Cadence.FlowTable
