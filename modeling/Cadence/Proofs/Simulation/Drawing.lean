import Cadence.Proofs.Flow.Edge
import Cadence.Proofs.Flow.Exchange
import Cadence.Proofs.Simulation.Production
/-!
The edges that a flow draws in its turns, from its first step on. They keep up the account of which
calls have been answered, for coroutines that complete as soon as they have left their entry method.
-/

namespace Cadence

variable {σ : Type}

namespace Flow

open Stack (Shape Idle calls standing isLeaving)

variable {flow : Flow σ} {heap : Heap} {tick : Tick} {outcome : Outcome σ}
  {caller : Option Address} {isDependency : Bool}

structure Fresh (flow : Flow σ) (caller : Option Address) (isDependency : Bool) : Prop where
  records : ∃ args, flow.stack.records = [Record.entry caller args isDependency]
  unstepped : flow.stepsTaken = 0
  resumed : flow.resumption = none

def opening (caller : Option Address) (isDependency : Bool) (address : Address)
    (params : List Json) : List Traffic :=
  (caller.toList.map fun source => .call source address params isDependency) ++ [.load address params]

theorem perform_first {root : Record} (records : flow.stack.records = [root])
    (place : root.frame? = none) {command : Command σ}
    (done : (flow.perform heap command tick).1 = .ok outcome) :
    ∃ address params, outcome.boundary = none ∧
      outcome.responses.map Response.traffic = [.load address params] ∧
      (flow.perform heap command tick).2.1.stack.records =
        [Record.frame address params root.isDependency, root] := by
  have refused {address : Address} {name : String} {answer : Except EngineError (Outcome σ)} :
      (do flow.expectFrame address name; answer) ≠ .ok outcome := by
    intro done
    have framed := expectFrame_ok records (framed_ok done).1
    simp [place] at framed
  unfold perform at done ⊢
  cases action : command.action with
  | load params flag =>
      simp only [action, load_eq records, place] at done ⊢
      by_cases missing : (heap.get? command.address.object).isNone = true
      · simp only [if_pos missing] at done
        cases done
      · simp only [if_neg missing] at done ⊢
        obtain rfl := Except.ok.inj done
        exact ⟨command.address, params, rfl, rfl, rfl⟩
  | log entries =>
      simp only [action] at done
      exact absurd done refused
  | halt covered total =>
      simp only [action] at done
      exact absurd done refused
  | await request =>
      simp only [action] at done
      exact absurd done refused
  | unload value =>
      simp only [action] at done
      unfold unload at done
      split at done
      · cases done
      next accepted =>
        have framed := expectFrame_ok records accepted
        simp [place] at framed

theorem perform_goes_on (idle : Stack.Idle flow.stack.records) {command : Command σ}
    (done : (flow.perform heap command tick).1 = .ok outcome) {value : Json} {last : Option Address} :
    outcome.boundary ≠ some (.complete value last) := by
  intro reached
  have answered := perform_answered flow idle heap command tick done
  rw [reached] at answered
  cases answered

variable [Coroutine σ]

theorem Fresh.step (fresh : flow.Fresh caller isDependency)
    (done : (flow.step heap tick).result = .ok outcome) :
    ∃ address params root, outcome.boundary = none ∧
      outcome.responses.map Response.traffic = [.load address params] ∧
      (flow.step heap tick).flow.stack.records =
        [Record.frame address params isDependency, root] ∧
      root.place = .entry caller ∧ root.isDependency = isDependency := by
  obtain ⟨args, records⟩ := fresh.records
  let root : Record := { Record.entry caller args isDependency with operations := [] }
  have taken : flow.takeInput = .ok (.params args, none, flow.withRecords [root]) := by
    simp only [takeInput, records]
    rfl
  unfold Flow.step at done ⊢
  simp only [taken] at done ⊢
  split at done
  next => cases done
  next => cases done
  next command answer =>
    have unframed : root.frame? = none := rfl
    obtain ⟨address, params, goesOn, loaded, later⟩ := perform_first rfl unframed done
    exact ⟨address, params, root, goesOn, loaded, later, rfl, rfl⟩

theorem step_completes (shape : Shape flow.stack.records)
    (done : (flow.step heap tick).result = .ok outcome) {value : Json} {last : Option Address}
    (reached : outcome.boundary = some (.complete value last)) :
    outcome.responses = [] ∧ ∃ top root address, flow.stack.records = [top, root] ∧
      isLeaving top = true ∧ top.frame? = some address ∧ last = some address := by
  obtain ⟨input, popped, records, taken, idle, -⟩ := takeInput_spec shape
  unfold step at done
  simp only [taken] at done
  split at done
  next => cases done
  next value' answer =>
    unfold finish at done
    cases popped with
    | none => cases done
    | some address =>
        simp only at done
        split at done
        · cases done
        next closed =>
          obtain rfl := Except.ok.inj done
          obtain ⟨-, rfl⟩ := Boundary.complete.inj (Option.some.inj reached)
          refine ⟨rfl, ?_⟩
          unfold takeInput at taken
          -- Only the root may be left at the end, so that it lay right below the frame that was popped.
          generalize stacked : flow.stack.records = stack at shape taken
          cases shape with
          | entry place pending => rcases pending with nothing | params <;> simp_all
          | @frame top below place pending idleBelow shape =>
              rcases pending with nothing | ⟨value, given⟩ | returned
              · simp [nothing] at taken
              · simp [given] at taken
              · simp only [returned] at taken
                obtain ⟨-, popped, same⟩ := by simpa using Except.ok.inj taken
                have left : records = below := by
                  simpa [withRecords] using (congrArg (·.stack.records) same).symm
                subst left
                cases shape with
                | @entry root place' pending =>
                    refine ⟨top, root, address, rfl, by simp [isLeaving, returned], ?_, rfl⟩
                    obtain ⟨here, framed⟩ := Option.isSome_iff_exists.1 place
                    rwa [← Record.address?_of_frame? framed, popped] at framed
                | frame place' pending' idle' shape =>
                    obtain ⟨caller, rest, rfl⟩ := shape.exists_cons
                    simp [withRecords, Stack.size] at closed
  next command answer => exact absurd reached (perform_goes_on idle done)

/-- What a flow is left with at a boundary, or between two steps. -/
def Draws (base : Nat) (events : List Traffic) (flow : Flow σ) : Option (Boundary σ) → Prop
  | some (.complete _ last) =>
    ∃ address params, events[base]? = some (.load address params) ∧ last = some address
  | _ => Recounts base events flow.stack.records

theorem step_draws {released : Nat → Prop} {base : Nat} {events : List Traffic}
    (shape : Shape flow.stack.records) (recounts : Recounts base events flow.stack.records)
    (first : base ≤ 1) (balanced : Balanced released events)
    (done : (flow.step heap tick).result = .ok outcome)
    (ends : ∀ top root, flow.stack.records = [top, root] → isLeaving top = true →
      ∃ value last, outcome.boundary = some (.complete value last)) :
    Balanced released (events ++ outcome.responses.map Response.traffic) ∧
      Draws base (events ++ outcome.responses.map Response.traffic) (flow.step heap tick).flow
        outcome.boundary := by
  by_cases final : ∃ value last, outcome.boundary = some (.complete value last)
  · obtain ⟨value, last, reached⟩ := final
    obtain ⟨silent, top, root, address, records, leaving, framed, rfl⟩ :=
      step_completes shape done reached
    obtain ⟨-, places, stands, -⟩ := recounts
    rw [records] at shape stands
    have rooted : calls [root] = [] := by
      cases shape with
      | frame place pending idle shape =>
          cases shape with
          | entry place => exact Stack.calls_of_entry place
          | frame place pending idle shape => cases shape
    rw [Stack.calls_of_frame framed, rooted] at stands
    obtain ⟨params, loaded⟩ := stands.outermost
    rw [silent, reached, List.map_nil, List.append_nil]
    exact ⟨balanced, address, params, loaded, rfl⟩
  · have going : Draws base (events ++ outcome.responses.map Response.traffic)
        (flow.step heap tick).flow outcome.boundary =
          Recounts base (events ++ outcome.responses.map Response.traffic)
            (flow.step heap tick).flow.stack.records := by
      unfold Draws
      split
      next value last reached => exact absurd ⟨value, last, reached⟩ final
      next => rfl
    rw [going]
    obtain ⟨records, idle, same, emitted⟩ := step_emitted shape heap tick
    rw [done] at emitted
    have stands := recounts.standing shape
    rw [← same] at stands
    refine Recounts.emits stands idle first ?_ balanced emitted.1
    rw [same]
    intro closed
    -- With the outermost method about to be popped, this would have been the last step.
    generalize stacked : flow.stack.records = stack at shape closed recounts
    obtain ⟨top, below, rfl⟩ := shape.exists_cons
    by_cases leaving : isLeaving top = true
    · rw [Stack.standing, if_pos leaving] at closed
      cases shape with
      | entry place => exact recounts.entered (Stack.calls_of_entry place)
      | frame place pending idle shape =>
          cases shape with
          | @entry root place => exact final (ends top root stacked leaving)
          | frame place =>
              obtain ⟨address, framed⟩ := Option.isSome_iff_exists.1 place
              simp [Stack.calls_of_frame framed] at closed
    · rw [Stack.standing, if_neg leaving] at closed
      exact recounts.entered closed

end Flow

namespace Contract

def EndsWithEntry [Coroutine σ] (contract : Contract σ) : Prop :=
  ∀ {memory : Heap} {flow : Flow σ} {tick : Tick} {outcome : Outcome σ} {top root : Record},
    contract.heap memory → flow.Sound memory →
    contract.running flow.stack.records flow.coroutine → flow.stack.records = [top, root] →
    Stack.isLeaving top = true → (flow.step memory tick).result = .ok outcome →
      ∃ value last, outcome.boundary = some (.complete value last)

end Contract

def Traffic.isResolve : Traffic → Bool
  | resolveDependency _ _ _ => true
  | _ => false

def leadingIn (results : List (List Response)) : List Traffic :=
  ((results.headD []).map Response.traffic).takeWhile Traffic.isResolve

def trafficOf (results : List (List Response)) : List Traffic :=
  results.flatten.map Response.traffic

theorem trafficOf_append (results results' : List (List Response)) :
    trafficOf (results ++ results') = trafficOf results ++ trafficOf results' := by
  simp [trafficOf]

@[simp] theorem trafficOf_resultOf (responses : List Response) :
    trafficOf (resultOf responses) = responses.map Response.traffic := by
  unfold trafficOf resultOf
  split
  next nothing => simp [List.isEmpty_iff.1 nothing]
  next => simp

namespace Stage.Steps

open Cadence.Flow

variable [Coroutine σ] {contract : Contract σ} {tick : Tick} {pending : List Response}
  {flow later : Flow σ} {heap memory : Heap} {results : List (List Response)}
  {boundary : Boundary σ} {released : Nat → Prop} {base : Nat} {events : List Traffic}

omit [Coroutine σ] in
theorem spawnEdge_of_begun (begun : flow.stepsTaken ≠ 0) (after : Flow σ)
    (responses : List Response) (tick : Tick) : flow.spawnEdge after responses tick = [] :=
  if_neg begun

theorem unreleased (steps : Steps tick pending flow heap results boundary later memory) :
    ∃ own, Steps tick [] flow heap own boundary later memory ∧
      trafficOf results = pending.map Response.traffic ++ trafficOf own := by
  cases steps with
  | last stepped reached => exact ⟨_, .last stepped reached, by simp⟩
  | more stepped goesOn rest =>
      exact ⟨_, .more stepped goesOn rest, by simp [trafficOf_append]⟩

theorem begun (steps : Steps tick pending flow heap results boundary later memory)
    (sound : flow.Sound heap) : later.stepsTaken ≠ 0 ∧ later.resumption = flow.resumption := by
  induction steps with
  | last stepped reached =>
      obtain ⟨⟨input, -, ⟨records, same⟩, -⟩, -⟩ := Flow.step_advances sound tick
      rw [same]
      exact ⟨Nat.succ_ne_zero _, rfl⟩
  | more stepped goesOn rest ih =>
      obtain ⟨⟨input, -, ⟨records, same⟩, -⟩, sound', -⟩ := Flow.step_advances sound tick
      obtain ⟨begun, resumed⟩ := ih sound'
      rw [same] at resumed
      exact ⟨begun, resumed⟩

omit [Coroutine σ] in
theorem isResolve_call (source target : Address) (params : List Json) (isDependency : Bool) :
    (Traffic.call source target params isDependency).isResolve = false := by
  cases isDependency <;> rfl

omit [Coroutine σ] in
theorem isResolve_spawnEdge (flow after : Flow σ) (responses : List Response) (tick : Tick) :
    ∀ response ∈ flow.spawnEdge after responses tick, response.traffic.isResolve = false := by
  intro response member
  unfold Flow.spawnEdge at member
  split at member
  · split at member
    · cases member
    · split at member
      · obtain rfl := List.mem_singleton.1 member
        exact isResolve_call ..
      · cases member
  · cases member

theorem leading_step {outcome : Outcome σ} (sound : flow.Sound heap)
    (stepped : (flow.step heap tick).result = .ok outcome) :
    (outcome.responses.map Response.traffic).takeWhile Traffic.isResolve = [] := by
  obtain ⟨records, -, -, emitted⟩ := step_emitted sound.shape heap tick
  rw [stepped] at emitted
  have emits := emitted.1
  generalize outcome.responses.map Response.traffic = block at emits ⊢
  generalize (flow.step heap tick).flow.stack.records = later at emits
  cases emits with
  | silent => rfl
  | enter => rfl
  | call framed address params isDependency => cases isDependency <;> rfl
  | log => rfl
  | halt => rfl
  | leave => rfl
  | resolve => rfl

omit [Coroutine σ] in
theorem leadingIn_resultOf {own : List Response} (more : List (List Response))
    (edges : ∀ response ∈ pending, response.traffic.isResolve = true)
    (silent : (own.map Response.traffic).takeWhile Traffic.isResolve = [])
    (rest : leadingIn more = []) :
    leadingIn (resultOf (pending ++ own) ++ more) = pending.map Response.traffic := by
  unfold resultOf
  split
  next nothing =>
    obtain ⟨rfl, -⟩ := List.append_eq_nil_iff.1 (List.isEmpty_iff.1 nothing)
    exact rest
  next =>
    have all : ∀ event ∈ pending.map Response.traffic, event.isResolve = true := by
      simpa using edges
    show (List.map Response.traffic (pending ++ own)).takeWhile Traffic.isResolve = _
    rw [List.map_append, List.takeWhile_append_of_pos all, silent, List.append_nil]

theorem leading (steps : Steps tick pending flow heap results boundary later memory)
    (sound : flow.Sound heap) (edges : ∀ response ∈ pending, response.traffic.isResolve = true) :
    leadingIn results = pending.map Response.traffic := by
  have silent {flow : Flow σ} {heap : Heap} {outcome : Outcome σ} (sound : flow.Sound heap)
      (stepped : (flow.step heap tick).result = .ok outcome) :
      ((flow.spawnEdge (flow.step heap tick).flow outcome.responses tick ++
        outcome.responses).map Response.traffic).takeWhile Traffic.isResolve = [] := by
    have spawn := isResolve_spawnEdge flow (flow.step heap tick).flow outcome.responses tick
    rw [List.map_append]
    cases drawn : flow.spawnEdge (flow.step heap tick).flow outcome.responses tick with
    | nil => exact leading_step sound stepped
    | cons first rest =>
        rw [drawn] at spawn
        simp [spawn first (List.mem_cons_self ..)]
  induction steps with
  | last stepped reached =>
      have alone := leadingIn_resultOf [] edges (silent sound stepped) rfl
      rwa [List.append_nil, ← List.append_assoc] at alone
  | more stepped goesOn rest ih =>
      have sound' := (Flow.step_advances sound tick).2.1
      rw [List.append_assoc]
      exact leadingIn_resultOf _ edges (silent sound stepped) (ih sound' (by simp))

theorem draws (steps : Steps tick [] flow heap results boundary later memory)
    (ends : contract.EndsWithEntry) (installed : contract.heap heap) (sound : flow.Sound heap)
    (running : contract.running flow.stack.records flow.coroutine) (begun : flow.stepsTaken ≠ 0)
    (first : base ≤ 1) (recounts : Recounts base events flow.stack.records)
    (balanced : Balanced released events) :
    Balanced released (events ++ trafficOf results) ∧
      Draws base (events ++ trafficOf results) later (some boundary) := by
  generalize none : ([] : List Response) = pending at steps
  induction steps generalizing events with
  | last stepped reached =>
      have drawn := step_draws sound.shape recounts first balanced stepped fun top root records leaving =>
        ends installed sound running records leaving stepped
      rw [reached] at drawn
      rw [← none, spawnEdge_of_begun begun, List.nil_append, List.nil_append, trafficOf_resultOf]
      exact drawn
  | @more pending flow later heap memory outcome boundary results stepped goesOn rest ih =>
      obtain ⟨balanced, drawn⟩ := step_draws sound.shape recounts first balanced stepped
        fun top root records leaving => ends installed sound running records leaving stepped
      rw [goesOn] at drawn
      obtain ⟨⟨input, -, ⟨records, same⟩, -⟩, sound', grows, -⟩ := Flow.step_advances sound tick
      have keeps := contract.step tick installed sound running
      rw [stepped] at keeps
      simp only [Terms.Keeps, goesOn] at keeps
      have begun' : (flow.step heap tick).flow.stepsTaken ≠ 0 := by
        rw [same]
        exact Nat.succ_ne_zero _
      have later := ih (contract.grow grows installed) sound' keeps begun' drawn balanced rfl
      rw [← none, spawnEdge_of_begun begun, List.nil_append, List.nil_append, trafficOf_append,
        trafficOf_resultOf, ← List.append_assoc]
      exact later

omit [Coroutine σ] in
theorem recounts_opening (caller : Option Address) (isDependency : Bool) (address : Address)
    (params : List Json) {root : Record} (place : root.frame? = none) :
    Recounts caller.toList.length (opening caller isDependency address params)
      [Record.frame address params isDependency, root] := by
  have calls : Stack.calls [Record.frame address params isDependency, root] = [⟨address, none⟩] := by
    rw [Stack.calls_frame, Stack.calls_of_entry place, List.head?_cons, Option.bind_some, place, ite_self]
    rfl
  have loaded : (opening caller isDependency address params)[caller.toList.length]? =
      some (.load address params) := by
    cases caller <;> rfl
  refine ⟨by simp [calls], [caller.toList.length], ?_, ?_⟩
  · rw [calls]
    exact .entered loaded
  · cases caller with
    | none => rfl
    | some source => cases isDependency <;> rfl

omit [Coroutine σ] in
theorem balanced_opening (caller : Option Address) (isDependency : Bool) (address : Address)
    (params : List Json) :
    Balanced (fun _ => False) (opening caller isDependency address params) := by
  cases caller with
  | none => exact balanced_nil.forward (Recounts.forward_load address params)
  | some source => exact balanced_nil.forward (Recounts.forward_call source address params isDependency)

theorem draws_first (steps : Steps tick [] flow heap results boundary later memory)
    (ends : contract.EndsWithEntry) (installed : contract.heap heap) (sound : flow.Sound heap)
    (running : contract.running flow.stack.records flow.coroutine) {caller : Option Address}
    {isDependency : Bool} (fresh : flow.Fresh caller isDependency) :
    (∃ address params, opening caller isDependency address params <+: trafficOf results) ∧
      Balanced (fun _ => False) (trafficOf results) ∧
      Draws caller.toList.length (trafficOf results) later (some boundary) := by
  cases steps with
  | last stepped reached =>
      obtain ⟨_, _, _, goesOn, -⟩ := fresh.step stepped
      rw [goesOn] at reached
      cases reached
  | @more _ _ _ _ _ outcome _ results stepped goesOn rest =>
      obtain ⟨address, params, root, -, loaded, records, place, flag⟩ := fresh.step stepped
      obtain ⟨⟨input, -, ⟨stack, same⟩, -⟩, sound', grows, -⟩ := Flow.step_advances sound tick
      have keeps := contract.step tick installed sound running
      rw [stepped] at keeps
      simp only [Terms.Keeps, goesOn] at keeps
      have begun : (flow.step heap tick).flow.stepsTaken ≠ 0 := by
        rw [same]
        exact Nat.succ_ne_zero _
      have opened : (flow.spawnEdge (flow.step heap tick).flow outcome.responses tick).map
          Response.traffic ++ outcome.responses.map Response.traffic =
            opening caller isDependency address params := by
        have head : outcome.responses.head?.map Response.traffic = some (.load address params) := by
          rw [← List.head?_map, loaded]
          rfl
        have bottom : (flow.step heap tick).flow.stack.records.getLast? = some root := by
          rw [records]
          rfl
        have spawner : root.address? = caller := by rw [Record.address?, place]
        unfold Flow.spawnEdge
        simp only [if_pos fresh.unstepped, bottom, spawner, head, loaded]
        cases caller with
        | none => rfl
        | some source => simp [opening, flag]
      have unframed : root.frame? = none := by rw [Record.frame?, place]
      have drawn := draws rest ends (contract.grow grows installed) sound' keeps begun
        (by cases caller <;> simp) (records ▸ recounts_opening caller isDependency address params unframed)
        (balanced_opening caller isDependency address params)
      rw [List.nil_append, trafficOf_append, trafficOf_resultOf, List.map_append, opened]
      exact ⟨⟨address, params, List.prefix_append _ _⟩, drawn⟩

end Stage.Steps

end Cadence
