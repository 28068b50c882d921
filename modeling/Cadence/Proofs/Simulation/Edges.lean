import Cadence.Proofs.FlowTable.Ending
import Cadence.Proofs.Simulation.Drawing
import Cadence.Proofs.Simulation.Watch
/-!
The edges of calls and the edges back, in all that a watched simulation has produced. What one flow
draws when it is spawned another one answers much later, so that the turns of all flows are kept
in view, with the waits that they have led to.
-/

namespace Cadence

variable {σ : Type}

/-! ## Turns -/

namespace Stint

def leading (stint : Stint) : List Traffic :=
  leadingIn stint.results

def dependencies (stint : Stint) : List FlowId :=
  (stint.wait?.map Wait.dependencies).getD []

end Stint

def trafficIn (turns : List Stint) : List Traffic :=
  trafficOf (turns.flatMap Stint.results)

inductive Leading (turns : List Stint) : Nat → Prop
  | intro {before after : List Stint} {stint : Stint} {k : Nat}
      (split : turns = before ++ stint :: after) (inside : k < stint.leading.length) :
      Leading turns ((trafficIn before).length + k)

section Turns

variable {turns before before' after after' : List Stint} {stint stint' : Stint} {place k k' : Nat}

theorem trafficIn_append (turns turns' : List Stint) :
    trafficIn (turns ++ turns') = trafficIn turns ++ trafficIn turns' := by
  simp [trafficIn, trafficOf]

theorem trafficIn_singleton (stint : Stint) : trafficIn [stint] = trafficOf stint.results := by
  simp [trafficIn]

theorem prefix_leading (stint : Stint) : stint.leading <+: trafficOf stint.results := by
  refine (List.takeWhile_prefix _).trans ?_
  unfold trafficOf
  cases stint.results with
  | nil => exact List.prefix_rfl
  | cons first rest =>
      rw [List.flatten_cons, List.map_append]
      exact List.prefix_append ..

theorem splits_agree {α : Type} {items before before' after after' : List α} {a a' : α}
    (split : items = before ++ a :: after) (split' : items = before' ++ a' :: after')
    (ahead : ∀ more, before' ≠ before ++ a :: more) (behind : ∀ more, before ≠ before' ++ a' :: more) :
    before = before' ∧ a = a' ∧ after = after' := by
  have both := split.symm.trans split'
  obtain rfl : before = before' := by
    rcases List.append_eq_append_iff.1 both with ⟨more, longer, rest⟩ | ⟨more, longer, rest⟩
    · cases more with
      | nil => rw [longer, List.append_nil]
      | cons first more =>
          obtain ⟨rfl, -⟩ := List.cons.inj rest
          exact absurd longer (ahead more)
    · cases more with
      | nil => rw [longer, List.append_nil]
      | cons first more =>
          obtain ⟨rfl, -⟩ := List.cons.inj rest
          exact absurd longer (behind more)
  obtain ⟨rfl, rfl⟩ := List.cons.inj (List.append_cancel_left both)
  exact ⟨rfl, rfl, rfl⟩

theorem split_concat {α : Type} {items before after : List α} {a last : α}
    (split : items ++ [last] = before ++ a :: after) : before = items ∧ a = last ∨
      ∃ rest, items = before ++ a :: rest := by
  rcases List.eq_nil_or_concat after with rfl | ⟨rest, last', rfl⟩
  · obtain ⟨rfl, same⟩ := List.append_inj' split rfl
    exact .inl ⟨rfl, (List.singleton_inj.1 same).symm⟩
  · rw [List.concat_eq_append, ← List.cons_append, ← List.append_assoc] at split
    exact .inr ⟨rest, (List.append_inj' split rfl).1⟩

theorem split_unique (split : turns = before ++ stint :: after)
    (split' : turns = before' ++ stint' :: after') (inside : k < stint.leading.length)
    (inside' : k' < stint'.leading.length)
    (same : (trafficIn before).length + k = (trafficIn before').length + k') :
    before = before' ∧ stint = stint' ∧ after = after' ∧ k = k' := by
  have past (before more : List Stint) {stint : Stint} {k : Nat} (inside : k < stint.leading.length) :
      (trafficIn before).length + k < (trafficIn (before ++ stint :: more)).length := by
    have short := (prefix_leading stint).length_le
    rw [List.append_cons, trafficIn_append, trafficIn_append, trafficIn_singleton,
      List.length_append, List.length_append]
    omega
  obtain ⟨rfl, rfl, rfl⟩ : before = before' ∧ stint = stint' ∧ after = after' := by
    apply splits_agree split split'
    · intro more longer
      have := past before more inside
      rw [← longer] at this
      omega
    · intro more longer
      have := past before' more inside'
      rw [← longer] at this
      omega
  exact ⟨rfl, rfl, rfl, Nat.add_left_cancel same⟩

theorem not_leading_nil : ¬ Leading [] place := by
  rintro ⟨split, -⟩
  simp at split

theorem leading_concat : Leading (turns ++ [stint]) place ↔ Leading turns place ∨
    (trafficIn turns).length ≤ place ∧ place < (trafficIn turns).length + stint.leading.length := by
  constructor
  · rintro ⟨split, inside⟩
    rcases split_concat split with ⟨rfl, rfl⟩ | ⟨rest, split⟩
    · exact .inr ⟨Nat.le_add_right _ _, Nat.add_lt_add_left inside _⟩
    · exact .inl ⟨split, inside⟩
  · rintro (⟨split, inside⟩ | ⟨beyond, inside⟩)
    · exact ⟨by rw [split, List.append_assoc, List.cons_append], inside⟩
    · obtain ⟨k, rfl⟩ := Nat.exists_eq_add_of_le beyond
      exact .intro rfl (Nat.lt_of_add_lt_add_left inside)

end Turns

/-! ## Origins -/

def turnsOf (stints : List Stint) (id : FlowId) : List Stint :=
  stints.filter (·.flow = id)

def origin (stints : List Stint) (id : FlowId) : Option Wait :=
  stints.findSome? fun stint => stint.wait?.filter (id ∈ ·.dependencies)

section Origins

variable {stints : List Stint} {stint new : Stint} {id : Nat} {wait : Wait}

theorem turnsOf_concat (stints : List Stint) (new : Stint) (id : FlowId) :
    turnsOf (stints ++ [new]) id = turnsOf stints id ++ if new.flow = id then [new] else [] := by
  unfold turnsOf
  rw [List.filter_append]
  by_cases same : new.flow = id <;> simp [same]

theorem turnsOf_eq_nil (other : ∀ stint ∈ stints, stint.flow ≠ id) : turnsOf stints id = [] := by
  simpa [turnsOf, List.filter_eq_nil_iff] using other

theorem mem_dependencies (waited : stint.wait? = some wait) :
    id ∈ stint.dependencies ↔ id ∈ wait.dependencies := by
  simp [Stint.dependencies, waited]

theorem mem_of_origin (known : origin stints id = some wait) :
    ∃ stint ∈ stints, stint.wait? = some wait ∧ id ∈ wait.dependencies := by
  obtain ⟨stint, member, found⟩ := List.exists_of_findSome?_eq_some known
  obtain ⟨waited, listed⟩ := Option.filter_eq_some_iff.1 found
  exact ⟨stint, member, waited, by simpa using listed⟩

theorem origin_eq_none (other : id ∉ stints.flatMap Stint.dependencies) :
    origin stints id = none := by
  cases known : origin stints id with
  | none => rfl
  | some wait =>
      obtain ⟨stint, member, waited, listed⟩ := mem_of_origin known
      exact absurd (List.mem_flatMap.2 ⟨stint, member, (mem_dependencies waited).2 listed⟩) other

theorem origin_of_mem (nodup : (stints.flatMap Stint.dependencies).Nodup) (member : stint ∈ stints)
    (waited : stint.wait? = some wait) (listed : id ∈ wait.dependencies) :
    origin stints id = some wait := by
  have here := (mem_dependencies waited).2 listed
  induction stints with
  | nil => cases member
  | cons first stints ih =>
      rw [List.flatMap_cons, List.nodup_append] at nodup
      unfold origin
      rw [List.findSome?_cons]
      rcases List.mem_cons.1 member with rfl | member
      · have kept : stint.wait?.filter (id ∈ ·.dependencies) = some wait := by
          rw [waited, Option.filter_eq_some_iff]
          exact ⟨rfl, by simpa using listed⟩
        rw [kept]
      · have apart : id ∉ first.dependencies := fun again =>
          nodup.2.2 id again id (List.mem_flatMap.2 ⟨stint, member, here⟩) rfl
        have skipped : first.wait?.filter (id ∈ ·.dependencies) = none := by
          cases waiting : first.wait? with
          | none => rfl
          | some other => simpa [mem_dependencies waiting] using apart
        rw [skipped]
        exact ih nodup.2.1 member

theorem origin_concat_old (stints : List Stint) (new : Stint) (apart : id ∉ new.dependencies) :
    origin (stints ++ [new]) id = origin stints id := by
  unfold origin
  rw [List.findSome?_append]
  cases waiting : new.wait? with
  | none => simp [waiting]
  | some wait =>
      have apart : id ∉ wait.dependencies := fun listed => apart ((mem_dependencies waiting).2 listed)
      simp [waiting, apart]

end Origins

/-! ## What is told of a flow -/

def Wait.edges (wait : Wait) (released : List Released) : List Traffic :=
  if wait.isDependency then
    released.filterMap fun one => one.lastAddress.map fun source =>
      .resolveDependency source wait.caller one.value
  else []

def Linked (table : FlowTable σ) : Option Wait → Stint → Prop
  | none, next => next.leading = []
  | some wait, next => ∃ value released, table.Resolved wait value released ∧
      next.leading = wait.edges released

def Resumes (table : FlowTable σ) : Option Wait → Option Resumption → Prop
  | none, none => True
  | some wait, some resumption => resumption.caller = wait.caller ∧
      resumption.isDependency = wait.isDependency ∧
        ∃ value, table.Resolved wait value resumption.released
  | _, _ => False

def entrance (origin? : Option Wait) (address : Address) (params : List Json) : List Traffic :=
  Flow.opening (origin?.map Wait.caller) (origin?.any Wait.isDependency) address params

structure Begun (origin? : Option Wait) (turns : List Stint) (flow : Flow σ) : Prop where
  stepped : flow.stepsTaken ≠ 0
  recounts : Recounts (origin?.map Wait.caller).toList.length (trafficIn turns) flow.stack.records

def Fits (table : FlowTable σ) (origin? : Option Wait) (turns : List Stint) : Phase σ → Prop
  | .active flow =>
    turns = [] ∧ flow.Fresh (origin?.map Wait.caller) (origin?.any Wait.isDependency) ∨
      Begun origin? turns flow ∧ Resumes table (turns.getLast?.bind Stint.wait?) flow.resumption
  | .suspended flow wait =>
    Begun origin? turns flow ∧ turns.getLast?.bind Stint.wait? = some wait
  | .completed done => ∃ address params, done.lastAddress = some address ∧
      (trafficIn turns)[(origin?.map Wait.caller).toList.length]? = some (.load address params)
  | .cancelled _ => True

/-- All that the turns of a flow have produced accounts for its edges, and they follow each other. -/
structure Draw (table : FlowTable σ) (origin? : Option Wait) (turns : List Stint) : Prop where
  balanced : Balanced (Leading turns) (trafficIn turns)
  entrance : turns ≠ [] → ∃ address params, entrance origin? address params <+: trafficIn turns
  linked : ∀ before next after, turns = before ++ next :: after →
    Linked table (before.getLast?.bind Stint.wait?) next

structure Tells (stints : List Stint) (table : FlowTable σ) : Prop where
  inside : ∀ stint ∈ stints, stint.flow ≤ table.phases.size
  created : ∀ child : Nat, child ∈ stints.flatMap Stint.dependencies → child ≤ table.phases.size
  nodup : (stints.flatMap Stint.dependencies).Nodup
  shapely : ∀ stint ∈ stints, ∀ wait, stint.wait? = some wait →
    wait.strategy.check stint.flow wait.dependencies.length = .ok ()
  draws : ∀ id, Draw table (origin stints id) (turnsOf stints id)
  fits : ∀ (id : Nat) phase, table.find? id = some phase →
    Fits table (origin stints id) (turnsOf stints id) phase

section Tables

open FlowTable

variable {table after : FlowTable σ} {origin? wait? : Option Wait} {turns : List Stint} {next : Stint}
  {phase : Phase σ} {stints : List Stint} {tick : Tick}

theorem Linked.keeps (linked : Linked table wait? next) (keeps : table.KeepsEnded after) :
    Linked after wait? next := by
  cases wait? with
  | none => exact linked
  | some wait =>
      obtain ⟨value, released, resolved, same⟩ := linked
      exact ⟨value, released, resolved.keeps keeps, same⟩

theorem Resumes.keeps {resumption? : Option Resumption} (resumes : Resumes table wait? resumption?)
    (keeps : table.KeepsEnded after) : Resumes after wait? resumption? := by
  cases wait? with
  | none => cases resumption? with
    | none => trivial
    | some => exact resumes
  | some wait => cases resumption? with
    | none => exact resumes
    | some resumption =>
        obtain ⟨caller, flag, value, resolved⟩ := resumes
        exact ⟨caller, flag, value, resolved.keeps keeps⟩

theorem Draw.keeps (draw : Draw table origin? turns) (keeps : table.KeepsEnded after) :
    Draw after origin? turns where
  balanced := draw.balanced
  entrance := draw.entrance
  linked before next later split := (draw.linked before next later split).keeps keeps

theorem Fits.keeps (fits : Fits table origin? turns phase) (keeps : table.KeepsEnded after) :
    Fits after origin? turns phase := by
  cases phase with
  | active flow => exact fits.imp_right fun begun => begun.imp_right (·.keeps keeps)
  | suspended => exact fits
  | completed => exact fits
  | cancelled => exact fits

theorem Recounts.provide {base : Nat} {events : List Traffic} {top : Record} {below : List Record}
    (recounts : Recounts base events (top :: below)) (value : Json) :
    Recounts base events (top.push (.provideGiven value) :: below) := by
  obtain ⟨entered, places, stands, opened⟩ := recounts
  have same := Stack.calls_push top (.provideGiven value) below
  refine ⟨same ▸ entered, places, same ▸ stands, ?_⟩
  simpa [Stack.isLeaving, Record.push] using opened

theorem Tells.settled {lineage : Lineage} (tells : Tells stints table)
    (forest : table.Forest lineage []) (forest' : after.Forest lineage [])
    (settled : Settled table tick after) : Tells stints after where
  inside stint member := Nat.le_trans (tells.inside stint member) settled.keepsEnded.size
  created child member := Nat.le_trans (tells.created child member) settled.keepsEnded.size
  nodup := tells.nodup
  shapely := tells.shapely
  draws id := (tells.draws id).keeps settled.keepsEnded
  fits := by
    have kept (id : FlowId) (phase : Phase σ) (found : table.find? id = some phase) :
        Fits after (origin stints id) (turnsOf stints id) phase :=
      (tells.fits id phase found).keeps settled.keepsEnded
    refine settled.forall_phases kept (fun _ _ _ _ _ => trivial)
      fun id flow wait value released stack waits outcome pushed found => ?_
    obtain ⟨begun, waited⟩ := tells.fits id _ waits
    obtain ⟨top, below, records, rfl⟩ := Stack.modify_top_ok pushed
    have recounts := begun.recounts
    rw [records] at recounts
    refine .inr ⟨⟨begun.stepped, recounts.provide value⟩, ?_⟩
    rw [waited]
    exact ⟨rfl, rfl, value, resolved_of_active forest forest' settled waits found outcome⟩

theorem Tells.origin_of_lt (tells : Tells stints table) {id : Nat} (fresh : table.phases.size < id) :
    origin stints id = none :=
  origin_eq_none fun member => Nat.lt_irrefl _ (Nat.lt_of_lt_of_le fresh (tells.created id member))

theorem Tells.turnsOf_of_lt (tells : Tells stints table) {id : Nat} (fresh : table.phases.size < id) :
    turnsOf stints id = [] :=
  turnsOf_eq_nil fun stint member same =>
    Nat.lt_irrefl _ (Nat.lt_of_lt_of_le fresh (same ▸ tells.inside stint member))

theorem Tells.create (tells : Tells stints table) (recipe : Recipe σ) (tick : Tick) :
    Tells stints (table.create recipe none false tick).2 := by
  have keeps := keepsEnded_create table recipe none false tick
  constructor
  case inside => exact fun stint member => Nat.le_trans (tells.inside stint member) keeps.size
  case created => exact fun child member => Nat.le_trans (tells.created child member) keeps.size
  case nodup => exact tells.nodup
  case shapely => exact tells.shapely
  case draws => exact fun id => (tells.draws id).keeps keeps
  case fits =>
    intro id phase found
    rw [find?_create] at found
    split at found
    next new =>
      obtain rfl := Option.some.inj found
      have fresh : table.phases.size < id := by omega
      rw [tells.origin_of_lt fresh]
      exact .inl ⟨tells.turnsOf_of_lt fresh, ⟨_, rfl⟩, rfl, rfl⟩
    next => exact (tells.fits id phase found).keeps keeps

end Tables

/-! ## Turns of a flow -/

section Passing

open FlowTable Cadence.Flow

variable {table : FlowTable σ} {origin? wait? : Option Wait} {turns : List Stint} {new : Stint}
  {tick : Tick} {flow later : Flow σ}

theorem isResolve_pending (flow : Flow σ) (tick : Tick) :
    ∀ response ∈ flow.pending tick, response.traffic.isResolve = true := by
  intro response member
  unfold Flow.pending at member
  split at member
  · cases member
  · split at member
    · obtain ⟨one, -, drawn⟩ := List.mem_filterMap.1 member
      obtain ⟨source, -, rfl⟩ := Option.map_eq_some_iff.1 drawn
      rfl
    · cases member

theorem Traffic.exists_of_isResolve {event : Traffic} (edge : event.isResolve = true) :
    ∃ source target value, event = .resolveDependency source target value := by
  cases event <;> first | exact ⟨_, _, _, rfl⟩ | cases edge

theorem Resumes.pending (resumes : Resumes table wait? flow.resumption)
    (leading : new.leading = (flow.pending tick).map Response.traffic) : Linked table wait? new := by
  unfold Flow.pending at leading
  cases resumed : flow.resumption with
  | none =>
      rw [resumed] at resumes leading
      cases wait? with
      | none => exact leading
      | some wait => exact resumes.elim
  | some resumption =>
      rw [resumed] at resumes leading
      cases wait? with
      | none => exact resumes.elim
      | some wait =>
          obtain ⟨caller, flag, value, resolved⟩ := resumes
          refine ⟨value, resumption.released, resolved, leading.trans ?_⟩
          unfold Wait.edges Stage.releaseEdges
          simp only [← flag, ← caller]
          by_cases consumed : resumption.isDependency = true
          · rw [if_pos consumed, if_pos consumed, List.map_filterMap]
            congr 1
            funext one
            cases one.lastAddress <;> rfl
          · rw [if_neg consumed, if_neg consumed]
            rfl

variable [Coroutine σ] {contract : Contract σ} {heap memory : Heap} {boundary : Boundary σ}

structure Drawn (table : FlowTable σ) (origin? : Option Wait) (turns : List Stint) (new : Stint)
    (later : Flow σ) (boundary : Boundary σ) : Prop where
  entrance : ∃ address params, entrance origin? address params <+: trafficIn (turns ++ [new])
  balanced : Balanced (Leading (turns ++ [new])) (trafficIn (turns ++ [new]))
  draws : Draws (origin?.map Wait.caller).toList.length (trafficIn (turns ++ [new])) later
    (some boundary)
  linked : Linked table (turns.getLast?.bind Stint.wait?) new

theorem drawn_first (ends : contract.EndsWithEntry) (installed : contract.heap heap)
    (sound : flow.Sound heap) (running : contract.running flow.stack.records flow.coroutine)
    (fresh : flow.Fresh (origin?.map Wait.caller) (origin?.any Wait.isDependency))
    (steps : Stage.Steps tick (flow.pending tick) { flow with resumption := none } heap new.results
      boundary later memory) : Drawn table origin? [] new later boundary := by
  have nothing : flow.pending tick = [] := by simp [Flow.pending, fresh.resumed]
  have sound := sound.unresumed
  have fresh' : Flow.Fresh { flow with resumption := none } (origin?.map Wait.caller)
      (origin?.any Wait.isDependency) := ⟨fresh.records, fresh.unstepped, rfl⟩
  have leading : new.leading = [] := by
    rw [Stint.leading, steps.leading sound (isResolve_pending flow tick), nothing]
    rfl
  rw [nothing] at steps
  obtain ⟨entrance, balanced, draws⟩ := steps.draws_first ends installed sound running fresh'
  have same : Leading ([] ++ [new]) = fun _ => False := by
    funext place
    rw [leading_concat, leading]
    simp [not_leading_nil, trafficIn, trafficOf]
  refine ⟨?_, ?_, ?_, leading⟩
  · rwa [List.nil_append, trafficIn_singleton]
  · rwa [same, List.nil_append, trafficIn_singleton]
  · rwa [List.nil_append, trafficIn_singleton]

theorem drawn_later (ends : contract.EndsWithEntry) (installed : contract.heap heap)
    (sound : flow.Sound heap) (running : contract.running flow.stack.records flow.coroutine)
    (draw : Draw table origin? turns) (begun : Begun origin? turns flow)
    (resumes : Resumes table (turns.getLast?.bind Stint.wait?) flow.resumption)
    (steps : Stage.Steps tick (flow.pending tick) { flow with resumption := none } heap new.results
      boundary later memory) : Drawn table origin? turns new later boundary := by
  have sound := sound.unresumed
  have leading := steps.leading sound (isResolve_pending flow tick)
  obtain ⟨own, steps, produced⟩ := steps.unreleased
  have edges : ∀ event ∈ (flow.pending tick).map Response.traffic,
      ∃ source target value, event = .resolveDependency source target value := by
    intro event member
    obtain ⟨response, pending, rfl⟩ := List.mem_map.1 member
    exact Traffic.exists_of_isResolve (isResolve_pending flow tick response pending)
  have first : (origin?.map Wait.caller).toList.length ≤ 1 := by cases origin? <;> simp
  obtain ⟨balanced, draws⟩ := steps.draws ends installed sound running begun.stepped first
    (begun.recounts.release edges) (draw.balanced.release edges)
  have whole : trafficIn (turns ++ [new]) =
      trafficIn turns ++ (flow.pending tick).map Response.traffic ++ trafficOf own := by
    rw [trafficIn_append, trafficIn_singleton, produced, List.append_assoc]
  have same : Leading (turns ++ [new]) = fun place => Leading turns place ∨
      (trafficIn turns).length ≤ place ∧ place < (trafficIn turns).length +
        ((flow.pending tick).map Response.traffic).length := by
    funext place
    rw [leading_concat, Stint.leading, leading]
  refine ⟨?_, ?_, ?_, resumes.pending leading⟩
  · have filled : turns ≠ [] := by
      rintro rfl
      obtain ⟨entered, places, stands, -⟩ := begun.recounts
      obtain ⟨call, calls, opened⟩ := List.exists_cons_of_ne_nil entered
      rw [opened] at stands
      exact Nat.lt_irrefl 0 stands.nonempty
    obtain ⟨address, params, entrance⟩ := draw.entrance filled
    rw [whole, List.append_assoc]
    exact ⟨address, params, entrance.trans (List.prefix_append _ _)⟩
  · rwa [same, whole]
  · rwa [whole]

end Passing

end Cadence
