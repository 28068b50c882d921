import Cadence.Proofs.FlowTable.Boundary
import Cadence.Proofs.Simulation.Log
/-!
What a log says of the flows in a table. It tells what is due to each of them, and no flow but the
one that takes its turn can make it say anything else.
-/

namespace Cadence

variable {σ : Type}

namespace FlowTable

variable {table : FlowTable σ} {id : Nat} {flow old : Flow σ} {finished : List (FlowId × Json)}

theorem createAll_ids (caller : Option Address) (isDependency : Bool) (tick : Tick)
    (recipes : List (Recipe σ)) (table : FlowTable σ) :
    (createAll caller isDependency tick recipes table).1 =
      List.range' (table.phases.size + 1) recipes.length := by
  induction recipes generalizing table with
  | nil => rfl
  | cons recipe recipes ih =>
      simp [createAll, FlowTable.create, ih, List.range'_succ]

theorem find?_createAll_put (found : table.find? id = some (.active old)) (flow : Flow σ)
    (caller : Option Address) (isDependency : Bool) (tick : Tick) (recipes : List (Recipe σ)) :
    (createAll caller isDependency tick recipes (table.put id (some (.active flow)))).2.find? id =
      some (.active flow) := by
  obtain ⟨-, -, kept, -⟩ :=
    createAll_spec caller isDependency tick recipes (table.put id (some (.active flow)))
  rw [kept id (size_put table .. ▸ (le_size_of_find? found).2), find?_put_self found]

theorem Consistent.createAll (consistent : Consistent table finished)
    (caller : Option Address) (isDependency : Bool) (tick : Tick) (recipes : List (Recipe σ)) :
    Consistent (FlowTable.createAll caller isDependency tick recipes table).2 finished := by
  induction recipes generalizing table with
  | nil => exact consistent
  | cons recipe recipes ih => exact ih (consistent.create recipe caller isDependency tick)

theorem awaiting_eq (table : FlowTable σ) (id : Nat) (flow : Flow σ) (request : Request σ)
    (caller : Address) (tick : Tick) : table.awaiting id flow request caller tick =
      (FlowTable.createAll (some caller) request.isDependency tick request.recipes
        (table.put id (some (.active flow)))).2.put id
          (some (.suspended flow (request.wait caller table.phases.size tick))) := by
  rw [FlowTable.awaiting, createAll_ids, size_put]
  rfl

theorem Consistent.awaiting (consistent : Consistent table finished)
    (found : table.find? id = some (.active old)) (flow : Flow σ) {request : Request σ}
    (shapely : request.strategy.check id request.recipes.length = .ok ()) (caller : Address)
    (tick : Tick) : Consistent (table.awaiting id flow request caller tick) finished := by
  have active : Consistent (table.put id (some (.active flow))) finished :=
    consistent.put found (by simp) (by simp)
  have made :=
    find?_createAll_put found flow (some caller) request.isDependency tick request.recipes
  rw [awaiting_eq]
  refine (active.createAll ..).put made (by simp) fun flow' wait same => ?_
  obtain ⟨-, rfl⟩ := Phase.suspended.inj same
  rw [Request.wait, List.length_range']
  exact shapely

end FlowTable

namespace Log

open FlowTable

variable [Coroutine σ] {log more : List (LogEntry σ)} {table after : FlowTable σ} {id : Nat}
  {busy : Option FlowId} {phase : Phase σ} {flow old : Flow σ} {tick : Tick} {event : LogEntry σ}
  {handover : Handover σ}

def Stands (log : List (LogEntry σ)) (id : FlowId) : Phase σ → Prop
  | .active flow => ∃ due, due? log id = some due ∧ flow.Provides due
  | .suspended flow wait => ∃ handover request,
      latest? log id = some (.exchanged handover (some wait)) ∧
        handover.answer = .ok (.yielded ⟨wait.caller, .await request⟩) ∧
        flow.coroutine = (Coroutine.resume handover.state handover.input).2 ∧
        flow.RestsAt wait.caller
  | .completed _ | .cancelled _ => True

structure Tells (busy : Option FlowId) (log : List (LogEntry σ)) (table : FlowTable σ) : Prop where
  known : ∀ event ∈ log, event.flow ≤ table.phases.size
  once : (log.filterMap LogEntry.start?).Nodup
  stands : ∀ id phase, table.find? id = some phase → busy ≠ some id → Stands log id phase

theorem Stands.append (stands : Stands log id phase) (others : ∀ event ∈ more, event.flow ≠ id) :
    Stands (log ++ more) id phase := by
  cases phase with
  | active flow =>
      obtain ⟨due, known, provides⟩ := stands
      exact ⟨due, due?_append known others, provides⟩
  | suspended flow wait =>
      obtain ⟨handover, request, last, rest⟩ := stands
      exact ⟨handover, request, (latest?_append others).trans last, rest⟩
  | completed completion => trivial
  | cancelled cancellation => trivial

theorem tells_empty : Tells none ([] : List (LogEntry σ)) ({} : FlowTable σ) where
  known event member := by simp at member
  once := List.nodup_nil
  stands id phase found := by
    simp [show FlowTable.find? ({} : FlowTable σ) id = none from find?_empty] at found

theorem Tells.create (tells : Tells busy log table) (recipe : Recipe σ) (caller : Option Address)
    (isDependency : Bool) (tick : Tick) :
    Tells busy (log ++ [.started (table.phases.size + 1) recipe])
      (table.create recipe caller isDependency tick).2 where
  known event member := by
    simp only [FlowTable.create, Array.size_push]
    rcases List.mem_append.1 member with member | member
    · exact Nat.le_succ_of_le (tells.known event member)
    · obtain rfl : event = .started (table.phases.size + 1) recipe := by simpa using member
      exact Nat.le_refl _
  once := by
    rw [List.filterMap_append, List.nodup_append]
    refine ⟨tells.once, by simp [LogEntry.start?], fun (first : Nat) earlier last listed same => ?_⟩
    -- The id of the new flow is greater than those of all flows on record.
    obtain ⟨event, member, starts⟩ := List.mem_filterMap.1 earlier
    obtain rfl : last = table.phases.size + 1 := by simpa [LogEntry.start?] using listed
    have inside : event.flow ≤ table.phases.size := tells.known event member
    cases event with
    | started flow recipe =>
        have beyond : flow = table.phases.size + 1 := (Option.some.inj starts).trans same
        exact absurd (show flow ≤ table.phases.size from inside)
          (by rw [beyond]; exact Nat.not_succ_le_self _)
    | exchanged => cases starts
  stands id phase found apart := by
    rw [find?_create] at found
    split at found
    next new =>
      subst new
      obtain rfl := Option.some.inj found
      exact ⟨_, due?_started .., rfl, _, [], rfl, rfl, ⟨rfl, rfl⟩, by simp⟩
    next old =>
      refine (tells.stands id phase found apart).append ?_
      simpa [LogEntry.flow] using Ne.symm old

theorem Tells.createAll (tells : Tells busy log table) (caller : Option Address)
    (isDependency : Bool) (tick : Tick) (recipes : List (Recipe σ)) :
    Tells busy (log ++ begun table.phases.size recipes)
      (createAll caller isDependency tick recipes table).2 := by
  induction recipes generalizing log table with
  | nil => simpa [begun, FlowTable.createAll] using tells
  | cons recipe recipes ih =>
      have later := ih (tells.create recipe caller isDependency tick)
      rw [List.append_assoc] at later
      simpa [begun_cons, FlowTable.createAll, FlowTable.create] using later

theorem Tells.turn (tells : Tells none log table) (found : table.find? id = some phase)
    (own : ∀ event ∈ more, event.flow = id ∧ event.start? = none) :
    Tells (some id) (log ++ more) table where
  known event member := by
    rcases List.mem_append.1 member with member | member
    · exact tells.known event member
    · exact (own event member).1 ▸ (le_size_of_find? found).2
  once := by
    have nothing : more.filterMap LogEntry.start? = [] :=
      List.filterMap_eq_nil_iff.2 fun event member => (own event member).2
    rw [List.filterMap_append, nothing, List.append_nil]
    exact tells.once
  stands other phase found' apart := by
    refine (tells.stands other phase found' (by simp)).append fun event member same => ?_
    exact apart (by rw [← same, (own event member).1])

theorem Tells.put (tells : Tells (some id) log table) (phase : Option (Phase σ)) :
    Tells (some id) log (table.put id phase) where
  known event member := by
    rw [size_put]
    exact tells.known event member
  once := tells.once
  stands other phase found apart := by
    rw [find?_put_of_ne _ _ fun same => apart (by rw [same])] at found
    exact tells.stands other phase found apart

theorem Tells.close (tells : Tells (some id) log table)
    (stands : ∀ phase, table.find? id = some phase → Stands log id phase) :
    Tells none log table where
  known := tells.known
  once := tells.once
  stands other phase found _ := by
    by_cases same : other = id
    · subst same
      exact stands phase found
    · exact tells.stands other phase found fun here => same (Option.some.inj here).symm

theorem Tells.awaiting (tells : Tells none log table) (found : table.find? id = some (.active old))
    (own : ∀ event ∈ more, event.flow = id ∧ event.start? = none) {request : Request σ}
    {caller : Address} (stands : Stands (log ++ more) id
      (.suspended flow (request.wait caller table.phases.size tick))) :
    Tells none (log ++ more ++ begun table.phases.size request.recipes)
      (table.awaiting id flow request caller tick) := by
  have turned := (tells.turn found own).put (some (.active flow))
  have made := turned.createAll (some caller) request.isDependency tick request.recipes
  rw [size_put] at made
  rw [awaiting_eq]
  refine (made.put _).close fun phase known => ?_
  have here :=
    find?_createAll_put found flow (some caller) request.isDependency tick request.recipes
  obtain rfl := Option.some.inj ((find?_put_self here).symm.trans known)
  refine stands.append fun event member => ?_
  obtain ⟨other, recipe, beyond, rfl⟩ := mem_begun member
  exact Nat.ne_of_gt (Nat.lt_of_le_of_lt (le_size_of_find? found).2 beyond)

theorem Tells.settled (tells : Tells none log table)
    (consistent : Consistent table (completions log)) (settled : Settled table tick after) :
    Tells none log after where
  known event member := settled.size ▸ tells.known event member
  once := tells.once
  stands id phase found _ := by
    have before (id : FlowId) (phase : Phase σ) (found : table.find? id = some phase) :
        Stands log id phase := tells.stands id phase found (by simp)
    refine settled.forall_phases before (fun _ _ _ _ _ => trivial)
      (fun id flow wait value released stack waits outcome pushed _ => ?_) id phase found
    -- The flow has rested at the frame that asked, and the value of its wait is pushed onto it.
    obtain ⟨handover, request, last, answer, coroutine, top, below, stacked, framed, nothing⟩ :=
      before id _ waits
    obtain ⟨top', below', stacked', rfl⟩ := Stack.modify_top_ok pushed
    obtain ⟨rfl, rfl⟩ := List.cons.inj (stacked.symm.trans stacked')
    obtain ⟨here, others⟩ := List.forall_mem_cons.1 nothing
    have replied : (Action.await request).reply? (completions log) (some wait) =
        some (.given value) := by
      simp [Action.reply?, consistent.value?_of_outcome? outcome]
    have known : due? log id = some ⟨(Coroutine.resume handover.state handover.input).2,
        some wait.caller, .given value⟩ := by
      rw [due?_of_latest? last answer, replied]
      rfl
    have framed := (Record.frame?_push top (.provideGiven value)).trans framed
    refine ⟨_, known, coroutine, _, below, rfl, framed, ?_, others⟩
    simp [Record.Offers, Record.push, here]

theorem InOrder.append (ordered : InOrder log)
    (started : ∀ event ∈ more, ∀ handover wait?, event ≠ .exchanged handover wait?) :
    InOrder (log ++ more) := by
  intro past handover wait? rest split
  rcases List.append_eq_append_iff.1 split with ⟨later, -, within⟩ | ⟨later, rfl, within⟩
  · exact absurd rfl (started (.exchanged handover wait?) (by simp [within]) handover wait?)
  · cases later with
    | nil =>
        have first : .exchanged handover wait? :: rest = more := within
        exact absurd rfl (started (.exchanged handover wait?) (by simp [← first]) handover wait?)
    | cons first later =>
        obtain ⟨rfl, -⟩ := List.cons.inj within
        exact ordered past handover wait? later rfl

theorem InOrder.exchanged (ordered : InOrder log) (expects : Expects log handover)
    (wait? : Option Wait) : InOrder (log ++ [.exchanged handover wait?]) := by
  intro past handover' wait?' rest split
  rcases List.eq_nil_or_concat rest with rfl | ⟨rest, last, rfl⟩
  · obtain ⟨rfl, same⟩ := List.append_inj' split rfl
    obtain ⟨rfl, -⟩ := LogEntry.exchanged.inj (List.cons.inj same).1
    exact expects
  · rw [List.concat_eq_append, ← List.cons_append, ← List.append_assoc] at split
    exact ordered past handover' wait?' rest (List.append_inj' split rfl).1

omit [Coroutine σ] in
theorem Asked.append (asked : Asked log)
    (waitless : ∀ handover wait, .exchanged handover (some wait) ∉ more) : Asked (log ++ more) := by
  intro handover wait member
  obtain ⟨request, answer, strategy, starts⟩ :=
    asked handover wait ((List.mem_append.1 member).resolve_right (waitless handover wait))
  exact ⟨request, answer, strategy, starts.imp fun _ _ started => List.mem_append_left _ started⟩

omit [Coroutine σ] in
theorem Asked.requested (asked : Asked log) {request : Request σ} {caller : Address}
    (answer : handover.answer = .ok (.yielded ⟨caller, .await request⟩)) (size : Nat)
    (tick : Tick) : Asked (log ++ ([.exchanged handover (some (request.wait caller size tick))] ++
      begun size request.recipes)) := by
  intro handover' wait member
  rcases List.mem_append.1 member with member | member
  · obtain ⟨request', answer', strategy, starts⟩ := asked handover' wait member
    exact ⟨request', answer', strategy,
      starts.imp fun _ _ started => List.mem_append_left _ started⟩
  · rcases List.mem_append.1 member with member | member
    · obtain ⟨rfl, rfl⟩ : handover' = handover ∧ wait = request.wait caller size tick := by
        simpa using member
      refine ⟨request, answer, rfl, (forall₂_begun ..).imp fun _ _ started => ?_⟩
      exact List.mem_append_right _ (List.mem_append_right _ started)
    · obtain ⟨other, recipe, -, absurd⟩ := mem_begun member
      cases absurd

theorem InOrder.first_started (ordered : InOrder log) {rest : List (LogEntry σ)}
    (own : log.filter (fun event => event.flow = id) = event :: rest) :
    ∃ recipe, event = .started id recipe := by
  obtain ⟨past, later, rfl, others, here, -⟩ := List.filter_eq_cons_iff.1 own
  have here : event.flow = id := by simpa using here
  cases event with
  | started flow recipe =>
      obtain rfl : flow = id := here
      exact ⟨recipe, rfl⟩
  | exchanged handover wait? =>
      obtain rfl : handover.flow = id := here
      obtain ⟨due, known, -⟩ := ordered past handover wait? later rfl
      have nothing : latest? past handover.flow = none := by
        rw [latest?, List.filter_eq_nil_iff.2 others, List.getLast?_nil]
      simp [due?, nothing] at known

theorem latest?_of_params {due : Due σ} {args : List Json} (known : due? log id = some due)
    (params : due.input = .params args) :
    ∃ flow recipe, latest? log id = some (.started flow recipe) := by
  unfold due? at known
  cases last : latest? log id with
  | none => simp [last] at known
  | some event =>
      cases event with
      | started flow recipe => exact ⟨flow, recipe, rfl⟩
      | exchanged handover wait? =>
          simp only [last] at known
          split at known
          next command answer =>
            obtain ⟨input, replied, rfl⟩ := Option.map_eq_some_iff.1 known
            obtain rfl : input = .params args := params
            cases action : command.action with
            | await request =>
                rw [action] at replied
                obtain ⟨wait, -, given⟩ := Option.bind_eq_some_iff.1 replied
                simp at given
            | _ => simp [Action.reply?, action] at replied
          next => cases known

theorem InOrder.afresh (ordered : InOrder log) (once : (log.filterMap LogEntry.start?).Nodup) :
    Afresh log := by
  rintro past handover wait? rest args rfl given event member same
  obtain ⟨due, known, -, same'⟩ := ordered past handover wait? rest rfl
  have input : due.input = .params args := (congrArg Exchange.input same').symm.trans given
  obtain ⟨flow, recipe, last⟩ := latest?_of_params known input
  have before : InOrder past := fun past' handover' wait?' rest' split =>
    ordered past' handover' wait?' (rest' ++ .exchanged handover wait? :: rest) (by simp [split])
  have own : event ∈ past.filter fun event => event.flow = handover.flow := by
    simpa using ⟨member, same⟩
  have starts : ((past.filter fun event => event.flow = handover.flow).filterMap
      LogEntry.start?).Nodup := by
    refine once.sublist (List.Sublist.filterMap _ ?_)
    exact List.filter_sublist.trans (List.sublist_append_left ..)
  unfold latest? at last
  cases events : past.filter fun event => event.flow = handover.flow with
  | nil => simp [events] at own
  | cons first others =>
      obtain ⟨recipe', rfl⟩ := before.first_started events
      have mine : ∀ event ∈ .started handover.flow recipe' :: others,
          event.flow = handover.flow := by
        intro event member
        rw [← events] at member
        simpa using (List.mem_filter.1 member).2
      rw [events] at own last starts
      rcases List.eq_nil_or_concat others with rfl | ⟨others, final, rfl⟩
      · exact ⟨recipe', by simpa using own⟩
      · -- The last event of the flow is a start as well, and no flow is started twice.
        rw [List.concat_eq_append] at last mine starts
        obtain rfl : final = .started flow recipe := by
          rw [← List.cons_append, List.getLast?_concat] at last
          exact Option.some.inj last
        obtain rfl : flow = handover.flow := mine (.started flow recipe) (by simp)
        simp [LogEntry.start?] at starts

end Log

end Cadence
