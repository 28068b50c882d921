import Cadence.Proofs.Simulation.Telling
/-!
What is exchanged with a coroutine in the course of a turn, beside all that the turn produces. A
flow says that it sleeps where its coroutine has asked for it, and then the turn is over.
-/

namespace Cadence

variable {σ : Type}

def Exchange.halt? (tick : Tick) (exchange : Exchange σ) : Option Response :=
  match exchange.answer with
  | .ok (.yielded ⟨address, .halt covered total⟩) =>
    some { traffic := .halt address covered total, tick }
  | _ => none

def Response.isHalt (response : Response) : Bool :=
  match response.traffic with
  | .halt _ _ _ => true
  | _ => false

@[simp] theorem Response.isHalt_call (source target : Address) (params : List Json)
    (isDependency : Bool) (tick : Tick) :
    Response.isHalt { traffic := .call source target params isDependency, tick } = false := by
  cases isDependency <;> rfl

def Exchange.Replies (exchange : Exchange σ) (input : Input) : Prop :=
  ∃ command, exchange.answer = .ok (.yielded command) ∧
    match command.action with
    | .halt _ _ => False
    | .await _ => ∃ value, input = .given value
    | action => action.reply? [] none = some input

def Exchange.next [Coroutine σ] (exchange : Exchange σ) : σ :=
  (Coroutine.resume exchange.state exchange.input).2

structure Flow.Hands [Coroutine σ] (flow : Flow σ) (exchange : Exchange σ) : Prop where
  own : exchange.flow = flow.id
  state : exchange.state = flow.coroutine
  taken : ∃ popped taken, flow.takeInput = .ok (exchange.input, popped, taken)
  answer : exchange.answer = (Coroutine.resume exchange.state exchange.input).1

structure Awake (tick : Tick) (turn : List (Exchange σ)) (responses : List Response) : Prop where
  asked : ∀ exchange ∈ turn, exchange.halt? tick = none
  said : ∀ response ∈ responses, response.isHalt = false

theorem Awake.append {tick : Tick} {turn more : List (Exchange σ)} {responses fresh : List Response}
    (awake : Awake tick turn responses) (awake' : Awake tick more fresh) :
    Awake tick (turn ++ more) (responses ++ fresh) where
  asked := List.forall_mem_append.2 ⟨awake.asked, awake'.asked⟩
  said := List.forall_mem_append.2 ⟨awake.said, awake'.said⟩

inductive Voiced (tick : Tick) : List (Exchange σ) → List Response → Prop
  | awake {turn : List (Exchange σ)} {responses : List Response}
      (awake : Awake tick turn responses) : Voiced tick turn responses
  | asleep {past : List (Exchange σ)} {last : Exchange σ} {front : List Response} {halt : Response}
      (awake : Awake tick past front) (halts : last.halt? tick = some halt) :
      Voiced tick (past ++ [last]) (front ++ [halt])

theorem Awake.voiced {tick : Tick} {turn more : List (Exchange σ)} {responses fresh : List Response}
    (awake : Awake tick turn responses) (voiced : Voiced tick more fresh) :
    Voiced tick (turn ++ more) (responses ++ fresh) := by
  cases voiced with
  | awake awake' => exact .awake (awake.append awake')
  | asleep awake' halts =>
      rw [← List.append_assoc, ← List.append_assoc]
      exact .asleep (awake.append awake') halts

theorem Voiced.last {tick : Tick} {turn : List (Exchange σ)} {responses front back : List Response}
    {response : Response} (voiced : Voiced tick turn responses)
    (said : responses = front ++ response :: back) (halts : response.isHalt = true) : back = [] := by
  cases voiced with
  | awake awake =>
      have quiet := awake.said response (said ▸ by simp)
      cases quiet.symm.trans halts
  | asleep awake =>
      rcases List.eq_nil_or_concat back with rfl | ⟨middle, last, rfl⟩
      · rfl
      · rw [List.concat_eq_append, ← List.cons_append, ← List.append_assoc] at said
        have quiet := awake.said response ((List.append_inj' said rfl).1.symm ▸ by simp)
        cases quiet.symm.trans halts

namespace Flow

open Stack (Idle)

variable {flow : Flow σ} {heap : Heap} {tick : Tick} {outcome : Outcome σ}

inductive Speaks (tick : Tick) (exchange : Exchange σ) (outcome : Outcome σ) : Prop
  | awake (goesOn : outcome.boundary ≠ some .halt)
      (awake : Awake tick [exchange] outcome.responses) : Speaks tick exchange outcome
  | asleep (sleeps : outcome.boundary = some .halt) {halt : Response}
      (halts : exchange.halt? tick = some halt) (said : outcome.responses = [halt]) :
      Speaks tick exchange outcome

theorem perform_speaks (idle : Idle flow.stack.records) {command : Command σ}
    {exchange : Exchange σ} (issued : exchange.answer = .ok (.yielded command))
    (done : (flow.perform heap command tick).1 = .ok outcome) : Speaks tick exchange outcome := by
  obtain ⟨top, below, records⟩ := idle.shape.exists_cons
  obtain ⟨address, action⟩ := command
  unfold perform at done
  cases action with
  | load params isDependency =>
      have unasked : exchange.halt? tick = none := by simp [Exchange.halt?, issued]
      simp only [load_eq records] at done
      by_cases missing : (heap.get? address.object).isNone = true
      · simp only [if_pos missing] at done
        cases done
      · simp only [if_neg missing] at done
        obtain rfl := Except.ok.inj done
        refine .awake (by simp) ⟨by simpa using unasked, fun response member => ?_⟩
        obtain ⟨traffic, known, rfl⟩ := List.mem_map.1 member
        rcases List.mem_append.1 known with edge | loaded
        · obtain ⟨source, -, rfl⟩ := List.mem_map.1 edge
          exact Response.isHalt_call ..
        · obtain rfl := List.mem_singleton.1 loaded
          rfl
  | log entries =>
      have unasked : exchange.halt? tick = none := by simp [Exchange.halt?, issued]
      obtain rfl := Except.ok.inj (framed_ok done).2
      exact .awake (by simp) ⟨by simpa using unasked, by simp [Response.isHalt]⟩
  | halt covered total =>
      replace done := (framed_ok done).2
      split at done
      · cases done
      · obtain rfl := Except.ok.inj done
        exact .asleep rfl (by simp [Exchange.halt?, issued]) rfl
  | await request =>
      have unasked : exchange.halt? tick = none := by simp [Exchange.halt?, issued]
      obtain rfl := Except.ok.inj (framed_ok done).2
      exact .awake (by simp) ⟨by simpa using unasked, by simp⟩
  | unload value =>
      have unasked : exchange.halt? tick = none := by simp [Exchange.halt?, issued]
      obtain ⟨e, -, refused⟩ | ⟨top, caller, below, records, framed, -⟩ :=
        unload_cases idle address value tick
      · simp [refused] at done
      · simp only [unload_eq records framed] at done
        obtain rfl := Except.ok.inj done
        refine .awake (by simp) ⟨by simpa using unasked, fun response member => ?_⟩
        rcases List.mem_cons.1 member with rfl | member
        · rfl
        · split at member
          · obtain ⟨target, -, rfl⟩ := List.mem_map.1 member
            rfl
          · simp at member

variable [Coroutine σ]

structure Exchanges (flow : Flow σ) (heap : Heap) (tick : Tick) (outcome : Outcome σ)
    (exchange : Exchange σ) : Prop where
  journal : (flow.step heap tick).exchange = some exchange
  hands : flow.Hands exchange
  next : (flow.step heap tick).flow.coroutine = exchange.next
  answered : (flow.step heap tick).flow.Answered exchange.answer outcome.boundary
  speaks : Speaks tick exchange outcome

theorem step_exchanges (sound : flow.Sound heap) (done : (flow.step heap tick).result = .ok outcome) :
    ∃ exchange, flow.Exchanges heap tick outcome exchange := by
  obtain ⟨input, popped, records, taken, idle, -⟩ := takeInput_spec sound.shape
  let exchange : Exchange σ :=
    ⟨flow.id, flow.coroutine, input, (Coroutine.resume flow.coroutine input).1⟩
  have hands : flow.Hands exchange := ⟨rfl, rfl, ⟨popped, _, taken⟩, rfl⟩
  obtain ⟨⟨input', ⟨popped', rest, taken'⟩, ⟨records', kept⟩, journal⟩, -⟩ :=
    step_advances sound tick
  obtain ⟨rfl, -⟩ := Prod.mk.inj (Except.ok.inj (taken'.symm.trans taken))
  have next : (flow.step heap tick).flow.coroutine = exchange.next := by
    rw [kept]
    rfl
  suffices said : (flow.step heap tick).flow.Answered exchange.answer outcome.boundary ∧
      Speaks tick exchange outcome from ⟨exchange, journal, hands, next, said.1, said.2⟩
  unfold step at done ⊢
  rw [taken] at done ⊢
  simp only at done ⊢
  split at done
  next message failed => cases done
  next value complete =>
    have complete : exchange.answer = .ok (.complete value) := complete
    obtain ⟨last, boundary⟩ := finish_ok done
    have silent : outcome.responses = [] := by
      unfold finish at done
      split at done
      next => cases done
      next =>
        simp only at done
        split at done
        next => cases done
        next => rw [← Except.ok.inj done]
    rw [boundary]
    refine ⟨complete, .awake (by simp [boundary]) ⟨?_, by simp [silent]⟩⟩
    simp [Exchange.halt?, complete]
  next command issued =>
    have issued : exchange.answer = .ok (.yielded command) := issued
    let asked := flow.stepped records (Coroutine.resume flow.coroutine input').2
    rw [issued]
    have idle' : Idle asked.stack.records := idle
    exact ⟨perform_answered asked idle heap command tick done, perform_speaks idle' issued done⟩

end Flow

inductive Stage.Passage [Coroutine σ] (tick : Tick) : List Response → Flow σ → Heap →
    List (Exchange σ) → List Response → Boundary σ → Flow σ → Heap → Prop
  | last {pending : List Response} {flow : Flow σ} {heap : Heap} {outcome : Outcome σ}
      {boundary : Boundary σ} {exchange : Exchange σ}
      (stepped : (flow.step heap tick).result = .ok outcome)
      (exchanges : flow.Exchanges heap tick outcome exchange)
      (reached : outcome.boundary = some boundary) :
      Passage tick pending flow heap [exchange]
        (pending ++ flow.spawnEdge (flow.step heap tick).flow outcome.responses tick ++
          outcome.responses)
        boundary (flow.step heap tick).flow (flow.step heap tick).heap
  | more {pending responses : List Response} {flow later : Flow σ} {heap memory : Heap}
      {outcome : Outcome σ} {boundary : Boundary σ} {exchange : Exchange σ}
      {turn : List (Exchange σ)} (stepped : (flow.step heap tick).result = .ok outcome)
      (exchanges : flow.Exchanges heap tick outcome exchange) (goesOn : outcome.boundary = none)
      (rest : Passage tick [] (flow.step heap tick).flow (flow.step heap tick).heap turn responses
        boundary later memory) :
      Passage tick pending flow heap ([exchange] ++ turn)
        (pending ++ flow.spawnEdge (flow.step heap tick).flow outcome.responses tick ++
          outcome.responses ++ responses)
        boundary later memory

namespace Stage

open Engine

theorem quiet_pending (flow : Flow σ) (tick : Tick) :
    ∀ response ∈ flow.pending tick, response.isHalt = false := by
  intro response member
  unfold Flow.pending at member
  split at member
  · cases member
  · split at member
    · obtain ⟨released, -, edge⟩ := List.mem_filterMap.1 member
      obtain ⟨source, -, rfl⟩ := Option.map_eq_some_iff.1 edge
      rfl
    · cases member

theorem quiet_spawnEdge (flow after : Flow σ) (responses : List Response) (tick : Tick) :
    ∀ response ∈ flow.spawnEdge after responses tick, response.isHalt = false := by
  intro response member
  unfold Flow.spawnEdge at member
  split at member
  · split at member
    · cases member
    · split at member
      · obtain rfl := List.mem_singleton.1 member
        exact Response.isHalt_call ..
      · cases member
  · cases member

variable [Coroutine σ] {stage after : Stage σ} {tick : Tick}

theorem flatten_resultOf (responses : List Response) : (resultOf responses).flatten = responses := by
  unfold resultOf
  split
  next nothing => rw [List.isEmpty_iff.1 nothing, List.flatten_nil]
  next => exact List.flatten_singleton

theorem drive_passage {limit steps : Nat} {pending : List Response}
    {surfaced reports : List Report} {boundary : Boundary σ}
    (done : drive {} tick limit steps pending surfaced stage = .ok (reports, boundary) after)
    (sound : stage.flow.Sound stage.heap) :
    ∃ turn responses,
      Passage tick pending stage.flow stage.heap turn responses boundary after.flow after.heap ∧
        (reports.map Report.responses).flatten =
          (surfaced.reverse.map Report.responses).flatten ++ responses ∧
        after.journal = turn.reverse ++ stage.journal := by
  induction steps generalizing stage pending surfaced with
  | zero => cases done
  | succ steps ih =>
      obtain ⟨outcome, surfaced', stepped, longer, ends⟩ := drive_plain_succ done
      obtain ⟨exchange, exchanges⟩ := Flow.step_exchanges sound stepped
      obtain ⟨-, sound', -⟩ := Flow.step_advances sound tick
      have journal : (stage.advanced tick).journal = exchange :: stage.journal := by
        rw [advanced, exchanges.journal]
        rfl
      rcases ends with ⟨reached, rfl, rfl⟩ | ⟨goesOn, done⟩
      · refine ⟨_, _, .last stepped exchanges reached, ?_, journal⟩
        rw [longer, List.flatten_append, flatten_resultOf]
      · obtain ⟨turn, responses, passage, all, journal'⟩ := ih done sound'
        refine ⟨_, _, .more stepped exchanges goesOn passage, ?_, ?_⟩
        · rw [all, longer, List.flatten_append, flatten_resultOf, List.append_assoc]
        · rw [journal', journal]
          simp

theorem run_passage {limit : Nat} {reports : List Report} {boundary : Boundary σ}
    (done : run {} tick limit stage = .ok (reports, boundary) after)
    (sound : stage.flow.Sound stage.heap) :
    ∃ turn, Passage tick (stage.flow.pending tick) { stage.flow with resumption := none } stage.heap
        turn (reports.map Report.responses).flatten boundary after.flow after.heap ∧
      after.journal = turn.reverse ++ stage.journal := by
  unfold run at done
  obtain ⟨pending, taken, resumed, driven⟩ := bind_ok.1 done
  obtain ⟨rfl, rfl⟩ := takeResumption_eq resumed
  obtain ⟨turn, responses, passage, rfl, journal⟩ := drive_passage driven sound.unresumed
  exact ⟨turn, passage, journal⟩

end Stage

theorem Awake.preface {tick : Tick} {turn : List (Exchange σ)} {pending said : List Response}
    {flow after : Flow σ} {responses : List Response} (awake : Awake tick turn said)
    (quiet : ∀ response ∈ pending, response.isHalt = false) :
    Awake tick turn (pending ++ flow.spawnEdge after responses tick ++ said) := by
  refine ⟨awake.asked, List.forall_mem_append.2 ⟨List.forall_mem_append.2 ⟨quiet, ?_⟩, awake.said⟩⟩
  exact fun response => Stage.quiet_spawnEdge flow after responses tick response

/-- What a coroutine may be in and be handed next, by the exchanges that its flow has had in a tick
and by the phase in which the tick has found the flow. -/
inductive Expected [Coroutine σ] (before? : Option (Phase σ)) : List (Exchange σ) → σ → Input → Prop
  | goesOn {flow : Flow σ} {input : Input} {popped : Option Address} {taken : Flow σ}
      (was : before? = some (.active flow)) (took : flow.takeInput = .ok (input, popped, taken)) :
      Expected before? [] flow.coroutine input
  | begins {state : σ} {input : Input}
      (fresh : before? = none ∨ ∃ flow wait, before? = some (.suspended flow wait))
      (given : input ≠ .proceed) : Expected before? [] state input
  | replies {past : List (Exchange σ)} {last : Exchange σ} {input : Input}
      (replies : last.Replies input) : Expected before? (past ++ [last]) last.next input

inductive Orderly [Coroutine σ] (before? : Option (Phase σ)) : List (Exchange σ) → Prop
  | nil : Orderly before? []
  | concat {past : List (Exchange σ)} {exchange : Exchange σ} (earlier : Orderly before? past)
      (expected : Expected before? past exchange.state exchange.input) :
      Orderly before? (past ++ [exchange])

def Contract.Gives [Coroutine σ] (contract : Contract σ) (tick : Tick) (exchange : Exchange σ) : Prop :=
  ∃ (flow : Flow σ) (heap : Heap) (outcome : Outcome σ), contract.heap heap ∧ flow.Sound heap ∧
    contract.running flow.stack.records flow.coroutine ∧
    (flow.step heap tick).result = .ok outcome ∧ flow.Exchanges heap tick outcome exchange

structure Closes [Coroutine σ] (tick : Tick) (past : List (Exchange σ)) (last : Exchange σ)
    (responses : List Response) (boundary : Boundary σ) (later : Flow σ) : Prop where
  next : later.coroutine = last.next
  answered : later.Answered last.answer (some boundary)
  awake : boundary ≠ .halt → Awake tick (past ++ [last]) responses
  asleep : boundary = .halt → ∃ front halt, responses = front ++ [halt] ∧ Awake tick past front ∧
    last.halt? tick = some halt

section Passages

variable [Coroutine σ] {contract : Contract σ} {tick : Tick} {before? : Option (Phase σ)}
  {pending responses : List Response} {flow later : Flow σ} {heap memory : Heap}
  {past turn : List (Exchange σ)} {boundary : Boundary σ}

theorem Expected.of_nil {state : σ} {input : Input} (expected : Expected before? [] state input) :
    (∃ flow popped taken, before? = some (.active flow) ∧ state = flow.coroutine ∧
      flow.takeInput = .ok (input, popped, taken)) ∨
    (before? = none ∨ ∃ flow wait, before? = some (.suspended flow wait)) ∧ input ≠ .proceed := by
  generalize nothing : [] = past at expected
  cases expected with
  | goesOn was took => exact .inl ⟨_, _, _, was, rfl, took⟩
  | begins fresh given => exact .inr ⟨fresh, given⟩
  | replies => simp at nothing

theorem Expected.of_concat {last : Exchange σ} {state : σ} {input : Input}
    (expected : Expected before? (past ++ [last]) state input) :
    state = last.next ∧ last.Replies input := by
  generalize same : past ++ [last] = turn at expected
  cases expected with
  | goesOn was took => simp at same
  | begins fresh given => simp at same
  | replies replies =>
      obtain rfl := List.singleton_inj.1 (List.append_inj' same rfl).2
      exact ⟨rfl, replies⟩

theorem Orderly.split {before : List (Exchange σ)} {exchange : Exchange σ}
    {rest : List (Exchange σ)} (orderly : Orderly before? (before ++ exchange :: rest)) :
    Expected before? before exchange.state exchange.input := by
  generalize split : before ++ exchange :: rest = turn at orderly
  induction orderly generalizing rest with
  | nil => simp at split
  | @concat past last earlier expected ih =>
      rcases List.eq_nil_or_concat rest with rfl | ⟨front, final, rfl⟩
      · obtain ⟨rfl, same⟩ := List.append_inj' split rfl
        obtain rfl := List.singleton_inj.1 same
        exact expected
      · rw [List.concat_eq_append, ← List.cons_append, ← List.append_assoc] at split
        exact ih (List.append_inj' split rfl).1

theorem Closes.prepend {earlier : List (Exchange σ)} {said : List Response} {last : Exchange σ}
    (closes : Closes tick past last responses boundary later) (awake : Awake tick earlier said) :
    Closes tick (earlier ++ past) last (said ++ responses) boundary later where
  next := closes.next
  answered := closes.answered
  awake goesOn := List.append_assoc earlier past [last] ▸ awake.append (closes.awake goesOn)
  asleep sleeps := by
    obtain ⟨front, halt, rfl, awake', halts⟩ := closes.asleep sleeps
    exact ⟨said ++ front, halt, (List.append_assoc ..).symm, awake.append awake', halts⟩

theorem Closes.voiced {last : Exchange σ}
    (closes : Closes tick past last responses boundary later) :
    Voiced tick (past ++ [last]) responses := by
  by_cases sleeps : boundary = .halt
  · obtain ⟨front, halt, rfl, awake, halts⟩ := closes.asleep sleeps
    exact .asleep awake halts
  · exact .awake (closes.awake sleeps)

omit [Coroutine σ] in
theorem Flow.Answered.replies {exchange : Exchange σ}
    (answered : flow.Answered exchange.answer none) (awake : exchange.halt? tick = none)
    (sound : flow.Sound heap) {input : Input} {popped : Option Address} {taken : Flow σ}
    (took : flow.takeInput = .ok (input, popped, taken)) : exchange.Replies input := by
  obtain ⟨command, input', answer, plain, provides⟩ := answered
  obtain ⟨popped', records, took', -⟩ := Flow.takeInput_of_provides provides sound.shape
  obtain ⟨rfl, -⟩ := Prod.mk.inj (Except.ok.inj (took'.symm.trans took))
  refine ⟨command, answer, ?_⟩
  obtain ⟨address, action⟩ := command
  cases action with
  | halt covered total => simp [Exchange.halt?, answer] at awake
  | await request => cases plain
  | load params isDependency => exact plain
  | log entries => exact plain
  | unload value => exact plain

namespace Stage.Passage

theorem own (passage : Passage tick pending flow heap turn responses boundary later memory)
    (sound : flow.Sound heap) : ∀ exchange ∈ turn, exchange.flow = flow.id := by
  induction passage with
  | last stepped exchanges reached => simpa using exchanges.hands.own
  | more stepped exchanges goesOn rest ih =>
      obtain ⟨⟨input, -, ⟨records, same⟩, -⟩, sound', -⟩ := Flow.step_advances sound tick
      have others := ih sound'
      rw [same] at others
      exact List.forall_mem_cons.2 ⟨exchanges.hands.own, others⟩

theorem lasts (passage : Passage tick pending flow heap turn responses boundary later memory)
    (sound : flow.Sound heap) : later.Sound memory ∧ flow.Kin later := by
  induction passage with
  | last stepped exchanges reached =>
      obtain ⟨⟨input, -, ⟨records, same⟩, -⟩, sound', -⟩ := Flow.step_advances sound tick
      rw [same] at sound' ⊢
      exact ⟨sound', rfl, rfl, rfl, rfl⟩
  | more stepped exchanges goesOn rest ih =>
      obtain ⟨⟨input, -, ⟨records, same⟩, -⟩, sound', -⟩ := Flow.step_advances sound tick
      obtain ⟨sound'', id, name, spawnedAt, activation⟩ := ih sound'
      rw [same] at id name spawnedAt activation
      exact ⟨sound'', id, name, spawnedAt, activation⟩

theorem gives (passage : Passage tick pending flow heap turn responses boundary later memory)
    (sound : flow.Sound heap) (known : contract.heap heap)
    (running : contract.running flow.stack.records flow.coroutine) :
    ∀ exchange ∈ turn, contract.Gives tick exchange := by
  induction passage with
  | last stepped exchanges reached =>
      simp only [List.forall_mem_singleton]
      exact ⟨_, _, _, known, sound, running, stepped, exchanges⟩
  | more stepped exchanges goesOn rest ih =>
      obtain ⟨-, sound', grows, -⟩ := Flow.step_advances sound tick
      have kept := contract.step tick known sound running
      simp only [stepped, Terms.Keeps, goesOn] at kept
      exact List.forall_mem_cons.2 ⟨⟨_, _, _, known, sound, running, stepped, exchanges⟩,
        ih sound' (contract.grow grows known) kept⟩

theorem orderly (passage : Passage tick pending flow heap turn responses boundary later memory)
    (sound : flow.Sound heap) (earlier : Orderly before? past)
    (expected : ∀ input popped taken, flow.takeInput = .ok (input, popped, taken) →
      Expected before? past flow.coroutine input) : Orderly before? (past ++ turn) := by
  induction passage generalizing past with
  | last stepped exchanges reached =>
      obtain ⟨popped, taken, took⟩ := exchanges.hands.taken
      refine earlier.concat ?_
      rw [exchanges.hands.state]
      exact expected _ _ _ took
  | more stepped exchanges goesOn rest ih =>
      obtain ⟨popped, taken, took⟩ := exchanges.hands.taken
      obtain ⟨-, sound', -⟩ := Flow.step_advances sound tick
      rw [← List.append_assoc]
      refine ih sound' (earlier.concat ?_) fun input popped' taken' took' => ?_
      · rw [exchanges.hands.state]
        exact expected _ _ _ took
      · cases exchanges.speaks with
        | asleep sleeps => simp [sleeps] at goesOn
        | awake _ awake =>
            rw [exchanges.next]
            have unasked := awake.asked _ (List.mem_singleton_self _)
            exact .replies (Flow.Answered.replies (goesOn ▸ exchanges.answered) unasked sound' took')

theorem closes (passage : Passage tick pending flow heap turn responses boundary later memory)
    (quiet : ∀ response ∈ pending, response.isHalt = false) :
    ∃ past last, turn = past ++ [last] ∧ Closes tick past last responses boundary later := by
  induction passage with
  | last stepped exchanges reached =>
      refine ⟨[], _, rfl, exchanges.next, reached ▸ exchanges.answered, fun goesOn => ?_,
        fun sleeps => ?_⟩
      · cases exchanges.speaks with
        | awake _ awake => exact awake.preface quiet
        | asleep sleeps => exact absurd (Option.some.inj (reached.symm.trans sleeps)) goesOn
      · cases exchanges.speaks with
        | awake goesOn => exact absurd (reached.trans (congrArg some sleeps)) goesOn
        | asleep _ halts said =>
            have awake : Awake tick ([] : List (Exchange σ)) [] := ⟨by simp, by simp⟩
            exact ⟨_, _, congrArg _ said, List.append_nil (_ ++ _) ▸ awake.preface quiet, halts⟩
  | more stepped exchanges goesOn rest ih =>
      cases exchanges.speaks with
      | asleep sleeps => simp [sleeps] at goesOn
      | awake _ awake =>
          obtain ⟨past, last, rfl, closes⟩ := ih (by simp)
          rw [← List.append_assoc]
          exact ⟨_, last, rfl, closes.prepend (awake.preface quiet)⟩

end Stage.Passage

end Passages

namespace Simulation

open Contract FlowTable

variable [Coroutine σ] {contract : Contract σ} {sim after : Simulation σ} {lineage : Lineage}
  {id : Nat} {tick : Tick} {flow : Flow σ} {reports : List Report}

structure Passes (tick : Tick) (id : FlowId) (flow : Flow σ) (sim after : Simulation σ)
    (turn : List (Exchange σ)) (boundary : Boundary σ) (later : Flow σ) (memory : Heap) : Prop where
  passage : Stage.Passage tick (flow.pending tick) { flow with resumption := none } sim.heap turn
    (sim.stint id tick).results.flatten boundary later memory
  ends : Ends tick id flow later sim.flows boundary after.flows
  journal : after.journal = turn.reverse ++ sim.journal

theorem process_passes (holds : contract.Holds ⟨sim, lineage⟩)
    (found : sim.flows.find? id = some (.active flow)) (done : process id tick sim = .ok reports after) :
    ∃ turn boundary later memory, Passes tick id flow sim after turn boundary later memory := by
  have sound : flow.Sound sim.heap := (holds.orders.admits id _ found).sound
  obtain ⟨whole, after', plain, flows, journals, -⟩ := process_uncollapsed holds.any done
  obtain ⟨surfaced, boundary, stage, ran, all, journal, ends⟩ :=
    process_runs (collapse_holds holds.any {} {}) rfl found plain
  obtain ⟨turn, passage, recorded⟩ := Stage.run_passage ran sound
  have produced : (sim.stint id tick).results.flatten = (surfaced.map Report.responses).flatten := by
    simp only [Stint.results, stint, plain, all]
  refine ⟨turn, boundary, stage.flow, stage.heap, ?_, ?_, ?_⟩
  · rw [produced]
    exact passage
  · rw [flows]
    exact ends
  · rw [journals]
    exact journal.trans recorded

end Simulation

end Cadence
