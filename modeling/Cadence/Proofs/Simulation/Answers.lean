import Cadence.Proofs.Simulation.Telling
import Mathlib.Data.List.Flatten
/-!
Which edge each edge back answers. The two halves of an edge lie in one flow if a method was called,
and in two if a flow was asked for.
-/

namespace Cadence

open FlowTable

variable {σ : Type}

namespace Watched

def turns (watched : Watched σ) (id : FlowId) : List Stint :=
  turnsOf watched.stints id

def traffic (watched : Watched σ) (id : FlowId) : List Traffic :=
  (watched.responses id).map Response.traffic

theorem traffic_eq (watched : Watched σ) (id : FlowId) :
    watched.traffic id = trafficIn (watched.turns id) :=
  rfl

/-- The edge back at one place answers the edge of a call at another; places are those in the
traffic of a flow. -/
inductive Answers (watched : Watched σ) : FlowId × Nat → FlowId × Nat → Prop
  | returned {id : FlowId} {back call : Nat} (within : ¬ Leading (watched.turns id) back)
      (returns : Returns (watched.traffic id) back call) : Answers watched (id, back) (id, call)
  | released {id : FlowId} {back k : Nat} {before after : List Stint} {stint next : Stint}
      {wait : Wait} {value : Json} {released : List Released} {one : Released}
      (turns : watched.turns id = before ++ stint :: next :: after)
      (waited : stint.wait? = some wait)
      (outcome : watched.sim.flows.outcome? wait = some (value, released))
      (listed : released[k]? = some one) (inside : k < next.leading.length)
      (here : back = (trafficIn (before ++ [stint])).length + k) :
      Answers watched (id, back) (one.flow, 0)

/-- A flow that a wait was for has completed with its value. It has begun with the edge of its call
and the load of the method that was called. -/
structure Delivered (watched : Watched σ) (wait : Wait) (one : Released) : Prop where
  awaited : one.flow ∈ wait.dependencies
  completed : ∃ done, watched.sim.flows.completed? one.flow = some done ∧ done.value = one.value ∧
    done.lastAddress = one.lastAddress
  opened : ∃ address params, one.lastAddress = some address ∧
    [.call wait.caller address params wait.isDependency, .load address params] <+:
      watched.traffic one.flow

def Resumes (watched : Watched σ) (wait : Wait) (next : Stint) : Prop :=
  ∃ value released, watched.sim.flows.outcome? wait = some (value, released) ∧
    (released.map Released.flow).Sublist wait.dependencies ∧
    (∀ one ∈ released, watched.Delivered wait one) ∧ next.leading = wait.edges released

def Settles (watched : Watched σ) (id : FlowId) (wait : Wait) : Prop :=
  match wait.strategy with
  | .single | .all => ∀ child ∈ wait.dependencies, ∃ back, watched.Answers (id, back) (child, 0)
  | .race => ∃ winner, watched.sim.flows.firstCompleted? wait.dependencies = some winner ∧
      (∃ back, watched.Answers (id, back) (winner.id, 0)) ∧
        ∀ child ∈ wait.dependencies, child ≠ winner.id → ∀ back, ¬ watched.Answers back (child, 0)

/--
Every edge back answers the edge of exactly one call, which is one of a dependency, and no call is
answered twice. The calls of dependencies are answered once their callers go on.
-/
structure EdgesAnswered (watched : Watched σ) : Prop where
  answers : ∀ {id back source target value},
    (watched.traffic id)[back]? = some (.resolveDependency source target value) →
      ∃! call, watched.Answers (id, back) call
  edges : ∀ {back call}, watched.Answers back call → ∃ source target value params,
    (watched.traffic back.1)[back.2]? = some (.resolveDependency source target value) ∧
      (watched.traffic call.1)[call.2]? = some (.callDependency target source params)
  once : ∀ {back back' call}, watched.Answers back call → watched.Answers back' call → back = back'
  resumes : ∀ {id before stint next after wait},
    watched.turns id = before ++ stint :: next :: after → stint.wait? = some wait →
      watched.Resumes wait next
  called : ∀ {id call n : Nat} {source target params}, 0 < call →
    (watched.traffic id)[call]? = some (.callDependency source target params) → call + 1 < n →
    n ≤ (watched.traffic id).length → call + 1 ∉ openLoads ((watched.traffic id).take n) →
      ∃ back ≤ n, watched.Answers (id, back) (id, call)
  awaited : ∀ {id before stint next after wait},
    watched.turns id = before ++ stint :: next :: after → stint.wait? = some wait →
      wait.isDependency = true → watched.Settles id wait
  spawned : ∀ {id source target params},
    (watched.traffic id)[0]? = some (.callDependency source target params) →
      ∃ stint ∈ watched.stints, ∃ wait, stint.wait? = some wait ∧ wait.isDependency = true ∧
        wait.caller = source ∧ id ∈ wait.dependencies

end Watched

section Places

variable {turns before after : List Stint} {stint next : Stint} {wait : Wait} {k : Nat}
  {released : List Released}

theorem getElem?_leading (split : turns = before ++ next :: after) (inside : k < next.leading.length) :
    (trafficIn turns)[(trafficIn before).length + k]? = next.leading[k]? := by
  obtain ⟨more, whole⟩ := prefix_leading next
  rw [split, List.append_cons, trafficIn_append, trafficIn_append, trafficIn_singleton, ← whole,
    List.append_assoc, List.append_assoc, List.getElem?_append_right (Nat.le_add_right ..),
    Nat.add_sub_cancel_left, List.getElem?_append_left inside]

theorem Wait.forall₂_edges (bound : wait.isDependency = true)
    (placed : ∀ one ∈ released, ∃ address, one.lastAddress = some address) :
    List.Forall₂ (fun one edge => ∃ address, one.lastAddress = some address ∧
      edge = .resolveDependency address wait.caller one.value) released (wait.edges released) := by
  unfold Wait.edges
  rw [if_pos bound]
  induction released with
  | nil => exact .nil
  | cons one released ih =>
      obtain ⟨address, known⟩ := placed one (List.mem_cons_self ..)
      rw [List.filterMap_cons, known]
      exact .cons ⟨address, known, rfl⟩ (ih fun other member => placed other (List.mem_cons_of_mem _ member))

theorem Wait.bound_of_edges (inside : k < (wait.edges released).length) : wait.isDependency = true := by
  by_contra unbound
  unfold Wait.edges at inside
  rw [if_neg unbound] at inside
  exact Nat.not_lt_zero _ inside

theorem asked_once {stints before before' after after' : List Stint} {stint stint' : Stint} {child : FlowId}
    (nodup : (stints.flatMap Stint.dependencies).Nodup) (split : stints = before ++ stint :: after)
    (split' : stints = before' ++ stint' :: after') (asks : child ∈ stint.dependencies)
    (asks' : child ∈ stint'.dependencies) : before = before' ∧ stint = stint' ∧ after = after' := by
  have apart {before more after : List Stint} {stint stint' : Stint}
      (split : stints = before ++ stint :: more ++ stint' :: after) (asks : child ∈ stint.dependencies)
      (asks' : child ∈ stint'.dependencies) : False := by
    rw [split, List.flatMap_append, List.nodup_append] at nodup
    exact nodup.2.2 child (List.mem_flatMap.2 ⟨stint, by simp, asks⟩) child
      (List.mem_flatMap.2 ⟨stint', by simp, asks'⟩) rfl
  apply splits_agree split split'
  · intro more longer
    exact apart (longer ▸ split') asks asks'
  · intro more longer
    exact apart (longer ▸ split) asks' asks

end Places

namespace Tells

variable {watched : Watched σ} {id : Nat} {before after : List Stint} {stint next : Stint} {wait : Wait}
  {value : Json} {released : List Released}

theorem mem_of_turns (split : watched.turns id = before ++ stint :: after) :
    stint ∈ watched.stints ∧ stint.flow = id := by
  have member : stint ∈ watched.turns id := by simp [split]
  simpa [Watched.turns, turnsOf] using member

theorem linked (tells : Tells watched.stints watched.sim.flows)
    (split : watched.turns id = before ++ stint :: next :: after) (waited : stint.wait? = some wait) :
    ∃ value released, watched.sim.flows.Resolved wait value released ∧
      next.leading = wait.edges released := by
  have linked := (tells.draws id).linked (before ++ [stint]) next after
    (by rw [← List.append_cons]; exact split)
  rwa [List.getLast?_concat, Option.bind_some, waited] at linked

variable (tells : Tells watched.stints watched.sim.flows)
  (keyed : ∀ id done, watched.sim.flows.completed? id = some done → done.id = id)

include tells keyed

theorem delivered (member : stint ∈ watched.stints) (waited : stint.wait? = some wait)
    (outcome : watched.sim.flows.outcome? wait = some (value, released)) {one : Released}
    (listed : one ∈ released) : watched.Delivered wait one := by
  have resolves := resolves_of_outcome? outcome
  have awaited : one.flow ∈ wait.dependencies :=
    (resolves.awaited keyed).subset (List.mem_map_of_mem listed)
  obtain ⟨done, finished, same, last⟩ := resolves.finished keyed listed
  refine ⟨awaited, ⟨done, finished, same, last⟩, ?_⟩
  have known := origin_of_mem tells.nodup member waited awaited
  obtain ⟨address, params, left, loaded⟩ := tells.fits one.flow _ (completed?_eq_some.1 finished)
  have begun : turnsOf watched.stints one.flow ≠ [] := by
    intro nothing
    simp [nothing, trafficIn, trafficOf] at loaded
  obtain ⟨address', params', rest, whole⟩ := (tells.draws one.flow).entrance begun
  rw [known] at loaded whole
  rw [← whole] at loaded
  obtain ⟨rfl, rfl⟩ : address' = address ∧ params' = params := by
    simpa [entrance, Flow.opening] using loaded
  refine ⟨address', params', last ▸ left, rest, ?_⟩
  exact whole

theorem placed (member : stint ∈ watched.stints) (waited : stint.wait? = some wait)
    (outcome : watched.sim.flows.outcome? wait = some (value, released)) :
    ∀ one ∈ released, ∃ address, one.lastAddress = some address := by
  intro one listed
  obtain ⟨address, -, left, -⟩ := (tells.delivered keyed member waited outcome listed).opened
  exact ⟨address, left⟩

omit keyed in
theorem leading_eq (split : watched.turns id = before ++ stint :: next :: after)
    (waited : stint.wait? = some wait)
    (outcome : watched.sim.flows.outcome? wait = some (value, released)) :
    next.leading = wait.edges released := by
  obtain ⟨value', released', resolved, same⟩ := tells.linked split waited
  obtain ⟨rfl, rfl⟩ := Prod.mk.inj (Option.some.inj (resolved.outcome.symm.trans outcome))
  exact same

theorem released_edges (split : watched.turns id = before ++ stint :: next :: after)
    (waited : stint.wait? = some wait)
    (outcome : watched.sim.flows.outcome? wait = some (value, released)) {k : Nat} {one : Released}
    (listed : released[k]? = some one) (inside : k < next.leading.length) :
    ∃ address params, (watched.traffic id)[(trafficIn (before ++ [stint])).length + k]? =
        some (.resolveDependency address wait.caller one.value) ∧
      (watched.traffic one.flow)[0]? = some (.callDependency wait.caller address params) := by
  have leading := tells.leading_eq split waited outcome
  have member := (mem_of_turns split).1
  have bound : wait.isDependency = true := Wait.bound_of_edges (leading ▸ inside)
  have edges := Wait.forall₂_edges bound (tells.placed keyed member waited outcome)
  obtain ⟨address, params, left, rest, opened⟩ :=
    (tells.delivered keyed member waited outcome (List.mem_of_getElem? listed)).opened
  refine ⟨address, params, ?_, ?_⟩
  · rw [Watched.traffic_eq, getElem?_leading (split.trans (List.append_cons ..)) inside, leading]
    rw [leading] at inside
    obtain ⟨within, rfl⟩ := List.getElem?_eq_some_iff.1 listed
    obtain ⟨source, drawn, edge⟩ := edges.get within inside
    obtain rfl := Option.some.inj (left.symm.trans drawn)
    rw [List.getElem?_eq_getElem inside]
    exact congrArg some edge
  · rw [← opened, bound]
    rfl

omit keyed in
theorem returned_edges {back call : Nat} (within : ¬ Leading (watched.turns id) back)
    (returns : Returns (watched.traffic id) back call) : 0 < call ∧ ∃ source target value params,
      (watched.traffic id)[back]? = some (.resolveDependency source target value) ∧
        (watched.traffic id)[call]? = some (.callDependency target source params) := by
  obtain ⟨source, target, value, edge⟩ : ∃ source target value,
      (watched.traffic id)[back]? = some (.resolveDependency source target value) := by
    cases returns with
    | intro edge => exact ⟨_, _, _, edge⟩
  obtain ⟨call', params, returns', positive, called⟩ := (tells.draws id).balanced.resolved edge within
  obtain rfl := returns.unique returns'
  exact ⟨positive, source, target, value, params, edge, called⟩

omit keyed in
theorem resumed_of_leading {back : Nat} (leading : Leading (watched.turns id) back) :
    ∃ before stint next after wait value released, ∃ k < next.leading.length,
      watched.turns id = before ++ stint :: next :: after ∧ stint.wait? = some wait ∧
        watched.sim.flows.outcome? wait = some (value, released) ∧
        next.leading = wait.edges released ∧ back = (trafficIn (before ++ [stint])).length + k := by
  cases leading with
  | @intro before after next k split inside =>
      have linked := (tells.draws id).linked before next after split
      cases last : before.getLast?.bind Stint.wait? with
      | none =>
          rw [last] at linked
          rw [show next.leading = [] from linked] at inside
          cases inside
      | some wait =>
          rw [last] at linked
          obtain ⟨value, released, resolved, same⟩ := linked
          obtain ⟨stint, found, waited⟩ := Option.bind_eq_some_iff.1 last
          obtain ⟨earlier, rfl⟩ := List.getLast?_eq_some_iff.1 found
          exact ⟨earlier, stint, next, after, wait, value, released, k, inside,
            split.trans (List.append_cons ..).symm, waited, resolved.outcome, same, rfl⟩

/-- Each edge back stands where it answers an edge, and it answers no other. -/
theorem answers {back : Nat} {source target : Address} {json : Json}
    (edge : (watched.traffic id)[back]? = some (.resolveDependency source target json)) :
    ∃! call, watched.Answers (id, back) call := by
  by_cases leading : Leading (watched.turns id) back
  · obtain ⟨before, stint, next, after, wait, value, released, k, inside, split, waited, outcome, same,
      rfl⟩ := tells.resumed_of_leading leading
    have bound : wait.isDependency = true := Wait.bound_of_edges (same ▸ inside)
    have edges := Wait.forall₂_edges bound (tells.placed keyed (mem_of_turns split).1 waited outcome)
    have within : k < released.length := by rwa [edges.length_eq, ← same]
    have listed := List.getElem?_eq_getElem within
    refine ⟨(released[k].flow, 0), .released split waited outcome listed inside rfl,
      fun other answers => ?_⟩
    generalize here : (trafficIn (before ++ [stint])).length + k = back at answers leading
    cases answers with
    | returned within' => exact absurd leading within'
    | released split' waited' outcome' listed' inside' here' =>
        obtain ⟨earlier, rfl, rfl, rfl⟩ := split_unique (split.trans (List.append_cons ..))
          (split'.trans (List.append_cons ..)) inside inside' (here.trans here')
        obtain ⟨rfl, only⟩ := List.append_inj' earlier rfl
        obtain rfl := List.singleton_inj.1 only
        obtain rfl := Option.some.inj (waited.symm.trans waited')
        obtain ⟨rfl, rfl⟩ := Prod.mk.inj (Option.some.inj (outcome.symm.trans outcome'))
        obtain rfl := Option.some.inj (listed.symm.trans listed')
        rfl
  · obtain ⟨call, params, returns, -, -⟩ := (tells.draws id).balanced.resolved edge leading
    refine ⟨(id, call), .returned leading returns, fun other answers => ?_⟩
    cases answers with
    | returned _ returns' => rw [returns.unique returns']
    | released split waited outcome listed inside here =>
        subst here
        exact absurd (.intro (split.trans (List.append_cons ..)) inside) leading

theorem mem_dependencies_of_released (member : stint ∈ watched.stints) (waited : stint.wait? = some wait)
    (outcome : watched.sim.flows.outcome? wait = some (value, released)) {one : Released}
    (listed : one ∈ released) : one.flow ∈ stint.dependencies :=
  (mem_dependencies waited).2 (tells.delivered keyed member waited outcome listed).awaited

theorem released_once {id' k k' : Nat} {before' rest rest' : List Stint} {stint' : Stint} {wait' : Wait}
    {value' : Json} {released' : List Released} {one one' : Released}
    (split : watched.turns id = before ++ stint :: rest) (waited : stint.wait? = some wait)
    (outcome : watched.sim.flows.outcome? wait = some (value, released))
    (listed : released[k]? = some one)
    (split' : watched.turns id' = before' ++ stint' :: rest') (waited' : stint'.wait? = some wait')
    (outcome' : watched.sim.flows.outcome? wait' = some (value', released'))
    (listed' : released'[k']? = some one') (same : one.flow = one'.flow) :
    id = id' ∧ before = before' ∧ stint = stint' ∧ k = k' := by
  obtain ⟨member, own⟩ := mem_of_turns split
  obtain ⟨member', own'⟩ := mem_of_turns split'
  have asks := tells.mem_dependencies_of_released keyed member waited outcome
    (List.mem_of_getElem? listed)
  have asks' : one.flow ∈ stint'.dependencies := by
    rw [same]
    exact tells.mem_dependencies_of_released keyed member' waited' outcome'
      (List.mem_of_getElem? listed')
  obtain ⟨pre, post, whole⟩ := List.append_of_mem member
  obtain ⟨pre', post', whole'⟩ := List.append_of_mem member'
  obtain ⟨-, rfl, -⟩ := asked_once tells.nodup whole whole' asks asks'
  obtain rfl : id = id' := own.symm.trans own'
  have nodup : ((watched.turns id).flatMap Stint.dependencies).Nodup :=
    tells.nodup.sublist (List.filter_sublist.flatMap _)
  obtain ⟨rfl, -, -⟩ := asked_once nodup split split' asks asks'
  obtain rfl := Option.some.inj (waited.symm.trans waited')
  obtain ⟨rfl, rfl⟩ := Prod.mk.inj (Option.some.inj (outcome.symm.trans outcome'))
  refine ⟨rfl, rfl, rfl, ?_⟩
  have apart : (released.map Released.flow).Nodup := by
    refine ((List.nodup_flatMap.1 tells.nodup).1 stint member).sublist ?_
    have awaited := (resolves_of_outcome? outcome).awaited keyed
    rwa [Stint.dependencies, waited]
  have inside := (List.getElem?_eq_some_iff.1 listed).1
  refine (List.getElem?_inj (by rwa [List.length_map]) apart).1 ?_
  rw [List.getElem?_map, List.getElem?_map, listed, listed', Option.map_some, same]
  rfl

theorem once {back back' call : FlowId × Nat} (answers : watched.Answers back call)
    (answers' : watched.Answers back' call) : back = back' := by
  cases answers with
  | @returned id back call within returns =>
      generalize same : (id, call) = called at answers'
      cases answers' with
      | returned within' returns' =>
          obtain ⟨rfl, rfl⟩ := Prod.mk.inj same
          rw [returns.once returns']
      | released =>
          obtain ⟨-, rfl⟩ := Prod.mk.inj same
          exact absurd (tells.returned_edges within returns).1 (Nat.lt_irrefl 0)
  | released split waited outcome listed inside here =>
      generalize same : (_, 0) = called at answers'
      cases answers' with
      | returned within' returns' =>
          obtain ⟨-, rfl⟩ := Prod.mk.inj same
          exact absurd (tells.returned_edges within' returns').1 (Nat.lt_irrefl 0)
      | released split' waited' outcome' listed' inside' here' =>
          obtain ⟨rfl, rfl, rfl, rfl⟩ := tells.released_once keyed split waited outcome listed split'
            waited' outcome' listed' (Prod.mk.inj same).1
          rw [here, here']

theorem edges {back call : FlowId × Nat} (answers : watched.Answers back call) :
    ∃ source target value params,
      (watched.traffic back.1)[back.2]? = some (.resolveDependency source target value) ∧
        (watched.traffic call.1)[call.2]? = some (.callDependency target source params) := by
  cases answers with
  | returned within returns => exact (tells.returned_edges within returns).2
  | released split waited outcome listed inside here =>
      obtain ⟨address, params, edge, called⟩ :=
        tells.released_edges keyed split waited outcome listed inside
      exact ⟨_, _, _, params, here ▸ edge, called⟩

theorem resumes (split : watched.turns id = before ++ stint :: next :: after)
    (waited : stint.wait? = some wait) : watched.Resumes wait next := by
  obtain ⟨value, released, resolved, leading⟩ := tells.linked split waited
  refine ⟨value, released, resolved.outcome, ?_, fun one listed => ?_, leading⟩
  · exact (resolves_of_outcome? resolved.outcome).awaited keyed
  · exact tells.delivered keyed (mem_of_turns split).1 waited resolved.outcome listed

theorem answered (split : watched.turns id = before ++ stint :: next :: after)
    (waited : stint.wait? = some wait) (bound : wait.isDependency = true)
    (outcome : watched.sim.flows.outcome? wait = some (value, released)) {child : FlowId}
    (member : child ∈ released.map Released.flow) : ∃ back, watched.Answers (id, back) (child, 0) := by
  have leading := tells.leading_eq split waited outcome
  have edges := Wait.forall₂_edges bound (tells.placed keyed (mem_of_turns split).1 waited outcome)
  obtain ⟨one, listed, rfl⟩ := List.mem_map.1 member
  obtain ⟨k, within, rfl⟩ := List.getElem_of_mem listed
  exact ⟨_, .released split waited outcome (List.getElem?_eq_getElem within)
    (by rwa [leading, ← edges.length_eq]) rfl⟩

theorem released_of_answers (member : stint ∈ watched.stints) (waited : stint.wait? = some wait)
    (outcome : watched.sim.flows.outcome? wait = some (value, released)) {child : FlowId}
    (asked : child ∈ wait.dependencies) {back : FlowId × Nat} (answers : watched.Answers back (child, 0)) :
    child ∈ released.map Released.flow := by
  generalize here : (child, 0) = call at answers
  cases answers with
  | returned within returns =>
      obtain ⟨-, rfl⟩ := Prod.mk.inj here
      exact absurd (tells.returned_edges within returns).1 (Nat.lt_irrefl 0)
  | released split waited' outcome' listed inside _ =>
      obtain ⟨rfl, -⟩ := Prod.mk.inj here
      have listed := List.mem_of_getElem? listed
      have member' := (mem_of_turns split).1
      have awaited := (tells.delivered keyed member' waited' outcome' listed).awaited
      obtain rfl := Option.some.inj ((origin_of_mem tells.nodup member waited asked).symm.trans
        (origin_of_mem tells.nodup member' waited' awaited))
      obtain ⟨rfl, rfl⟩ := Prod.mk.inj (Option.some.inj (outcome.symm.trans outcome'))
      exact List.mem_map_of_mem listed

theorem settles (split : watched.turns id = before ++ stint :: next :: after)
    (waited : stint.wait? = some wait) (bound : wait.isDependency = true) :
    watched.Settles id wait := by
  obtain ⟨value, released, resolved, -⟩ := tells.linked split waited
  have member := (mem_of_turns split).1
  have shapely := tells.shapely stint member wait waited
  have answered {child : FlowId} (member : child ∈ released.map Released.flow) :=
    tells.answered keyed split waited bound resolved.outcome member
  unfold Watched.Settles
  cases resolves_of_outcome? resolved.outcome with
  | single kind first finished =>
      rw [kind] at shapely ⊢
      intro child asked
      obtain ⟨rest, all⟩ := List.head?_eq_some_iff.1 first
      obtain rfl : rest = [] := by
        simpa [all, Strategy.check] using shapely
      exact answered (by simpa [all] using asked)
  | all kind collected =>
      rw [kind]
      intro child asked
      exact answered (by rwa [flow_of_collected collected])
  | @race winner kind first =>
      rw [kind]
      refine ⟨winner, first, answered (by simp), fun child asked distinct back answers => ?_⟩
      have won := tells.released_of_answers keyed member waited resolved.outcome asked answers
      exact distinct (by simpa using won)

omit keyed in
theorem spawned {source target : Address} {params : List Json}
    (edge : (watched.traffic id)[0]? = some (.callDependency source target params)) :
    ∃ stint ∈ watched.stints, ∃ wait, stint.wait? = some wait ∧ wait.isDependency = true ∧
      wait.caller = source ∧ id ∈ wait.dependencies := by
  have begun : turnsOf watched.stints id ≠ [] := by
    intro nothing
    simp [Watched.traffic_eq, Watched.turns, nothing, trafficIn, trafficOf] at edge
  obtain ⟨address, params', rest, whole⟩ := (tells.draws id).entrance begun
  rw [Watched.traffic_eq, Watched.turns, ← whole] at edge
  cases known : origin watched.stints id with
  | none => simp [known, entrance, Flow.opening] at edge
  | some wait =>
      obtain ⟨stint, member, waited, asked⟩ := mem_of_origin known
      rw [known] at edge
      cases bound : wait.isDependency with
      | false => simp [entrance, Flow.opening, bound, Traffic.call] at edge
      | true =>
          obtain ⟨caller, -⟩ : wait.caller = source ∧ _ := by
            simpa [entrance, Flow.opening, bound, Traffic.call] using edge
          exact ⟨stint, member, wait, waited, bound, caller, asked⟩

end Tells

namespace Watched

theorem Recorded.edgesAnswered [Coroutine σ] {contract : Contract σ} {before : ReplayStore}
    {surfaced : List Report} {watched : Watched σ}
    (recorded : Recorded contract before surfaced watched) : watched.EdgesAnswered := by
  obtain ⟨⟨lineage, holds⟩, tells, -⟩ := recorded
  have keyed := holds.orders.forest.keyed
  constructor
  case answers => exact tells.answers keyed
  case edges => exact tells.edges keyed
  case once => exact tells.once keyed
  case resumes => exact tells.resumes keyed
  case called =>
    intro id call n source target params positive called later inside closed
    obtain ⟨back, before, within, returns⟩ :=
      (tells.draws id).balanced.answered positive called later inside closed
    exact ⟨back, before, .returned within returns⟩
  case awaited => exact tells.settles keyed
  case spawned => exact tells.spawned

end Watched

end Cadence
