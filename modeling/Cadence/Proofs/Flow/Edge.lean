import Cadence.Proofs.Flow.Bracket
import Mathlib.Data.List.Induction
/-!
Edges of calls and the edges back. The places of the loads that are open say which call an unload
leaves, so that the edge right behind it can be balanced to be that of the same call.
-/

namespace Cadence

/-! ## Open loads -/

def Traffic.nest (event : Traffic) (place : Nat) (places : List Nat) : List Nat :=
  match event with
  | .load _ _ => place :: places
  | .unload _ _ => places.tail
  | _ => places

def openLoads (events : List Traffic) : List Nat :=
  events.zipIdx.foldl (fun places (event, place) => event.nest place places) []

/-- An edge back right behind an unload, of the innermost call; `call` is the place of its edge. -/
inductive Returns (events : List Traffic) : Nat → Nat → Prop
  | intro {left call : Nat} {source target : Address} {value : Json}
      (edge : events[left + 1]? = some (.resolveDependency source target value))
      (leaves : events[left]? = some (.unload source value))
      (innermost : (openLoads (events.take left)).head? = some (call + 1)) :
      Returns events (left + 1) call

section Places

variable {events block : List Traffic} {event : Traffic} {place left call n m : Nat}

theorem openLoads_concat (events : List Traffic) (event : Traffic) :
    openLoads (events ++ [event]) = event.nest events.length (openLoads events) := by
  simp [openLoads, List.zipIdx_append]

theorem openLoads_take_succ (here : events[n]? = some event) :
    openLoads (events.take (n + 1)) = event.nest n (openLoads (events.take n)) := by
  obtain ⟨inside, -⟩ := List.getElem?_eq_some_iff.1 here
  rw [List.take_add_one, here, Option.toList_some, openLoads_concat, List.length_take,
    Nat.min_eq_left (Nat.le_of_lt inside)]

theorem lt_of_mem_openLoads (member : place ∈ openLoads events) : place < events.length := by
  induction events using List.reverseRecOn with
  | nil => cases member
  | append_singleton events event ih =>
      rw [openLoads_concat] at member
      rw [List.length_append, List.length_singleton]
      cases event with
      | load =>
          rcases List.mem_cons.1 member with rfl | member
          · exact Nat.lt_succ_self _
          · exact Nat.lt_succ_of_lt (ih member)
      | unload => exact Nat.lt_succ_of_lt (ih (List.mem_of_mem_tail member))
      | _ => exact Nat.lt_succ_of_lt (ih member)

theorem openLoads_sorted (events : List Traffic) : (openLoads events).Pairwise (· > ·) := by
  induction events using List.reverseRecOn with
  | nil => exact .nil
  | append_singleton events event ih =>
      rw [openLoads_concat]
      cases event with
      | load => exact .cons (fun place member => lt_of_mem_openLoads member) ih
      | unload => exact ih.tail
      | _ => exact ih

theorem lt_of_innermost (innermost : (openLoads (events.take left)).head? = some place) :
    place < left := by
  have inside := lt_of_mem_openLoads (List.mem_of_mem_head? innermost)
  rw [List.length_take] at inside
  omega

theorem mem_openLoads_take (later : place ∈ openLoads (events.take m)) (before : n ≤ m)
    (old : place < n) : place ∈ openLoads (events.take n) := by
  induction m with
  | zero =>
      obtain rfl : n = 0 := Nat.le_zero.1 before
      exact later
  | succ m ih =>
      rcases Nat.lt_or_ge n (m + 1) with earlier | same
      · apply ih _ (Nat.le_of_lt_succ earlier)
        cases here : events[m]? with
        | none =>
            rwa [List.take_add_one, here, Option.toList_none, List.append_nil] at later
        | some event =>
            rw [openLoads_take_succ here] at later
            cases event with
            | load =>
                rcases List.mem_cons.1 later with rfl | later
                · omega
                · exact later
            | unload => exact List.mem_of_mem_tail later
            | _ => exact later
      · rwa [Nat.le_antisymm before same]

theorem not_mem_openLoads_of_left {address : Address} {value : Json}
    (leaves : events[left]? = some (.unload address value))
    (innermost : (openLoads (events.take left)).head? = some place) (later : left < n) :
    place ∉ openLoads (events.take n) := by
  intro again
  have still := mem_openLoads_take again later (Nat.lt_succ_of_lt (lt_of_innermost innermost))
  rw [openLoads_take_succ leaves] at still
  have sorted := openLoads_sorted (events.take left)
  obtain ⟨places, split⟩ := List.head?_eq_some_iff.1 innermost
  rw [split] at sorted still
  exact Nat.lt_irrefl _ (List.rel_of_pairwise_cons sorted still)

theorem left_of_not_mem_openLoads {address : Address} {params : List Json}
    (loaded : events[place]? = some (.load address params)) (later : place < n)
    (inside : n ≤ events.length) (closed : place ∉ openLoads (events.take n)) :
    ∃ left address value, left < n ∧ events[left]? = some (.unload address value) ∧
      (openLoads (events.take left)).head? = some place := by
  induction n with
  | zero => omega
  | succ n ih =>
      obtain ⟨event, here⟩ : ∃ event, events[n]? = some event := ⟨_, List.getElem?_eq_getElem inside⟩
      rw [openLoads_take_succ here] at closed
      by_cases same : place = n
      · subst same
        obtain rfl := Option.some.inj (loaded.symm.trans here)
        exact absurd (List.mem_cons_self ..) closed
      · by_cases still : place ∈ openLoads (events.take n)
        · cases event with
          | unload address value =>
              refine ⟨n, address, value, Nat.lt_succ_self n, here, ?_⟩
              generalize openLoads (events.take n) = places at still closed
              cases places with
              | nil => cases still
              | cons first places =>
                  rcases List.mem_cons.1 still with rfl | member
                  · rfl
                  · exact absurd member closed
          | load => exact absurd (List.mem_cons_of_mem _ still) closed
          | _ => exact absurd still closed
        · obtain ⟨left, address, value, before, found⟩ := ih (by omega) (by omega) still
          exact ⟨left, address, value, Nat.lt_succ_of_lt before, found⟩

theorem getElem?_of_some {α : Type} {items more : List α} {a : α} (known : items[n]? = some a) :
    (items ++ more)[n]? = some a := by
  rw [List.getElem?_append_left (List.getElem?_eq_some_iff.1 known).1, known]

theorem Returns.append {back : Nat} (returns : Returns events back call) :
    Returns (events ++ block) back call := by
  cases returns with
  | @intro left _ source target value edge leaves innermost =>
      have inside := (List.getElem?_eq_some_iff.1 leaves).1
      refine .intro (getElem?_of_some edge) (getElem?_of_some leaves) ?_
      rwa [List.take_append_of_le_length (Nat.le_of_lt inside)]

theorem Returns.unique {back call' : Nat} (returns : Returns events back call)
    (returns' : Returns events back call') : call = call' := by
  cases returns with
  | intro edge leaves innermost =>
      cases returns' with
      | intro edge' leaves' innermost' =>
          exact Nat.succ.inj (Option.some.inj (innermost.symm.trans innermost'))

theorem Returns.once {back back' : Nat} (returns : Returns events back call)
    (returns' : Returns events back' call) : back = back' := by
  have apart {left left' : Nat} {address : Address} {value : Json}
      (leaves : events[left]? = some (.unload address value))
      (innermost : (openLoads (events.take left)).head? = some (call + 1))
      (innermost' : (openLoads (events.take left')).head? = some (call + 1)) : left' ≤ left := by
    by_contra later
    exact not_mem_openLoads_of_left leaves innermost (Nat.lt_of_not_le later)
      (List.mem_of_mem_head? innermost')
  cases returns with
  | intro edge leaves innermost =>
      cases returns' with
      | intro edge' leaves' innermost' =>
          exact congrArg (· + 1) (Nat.le_antisymm (apart leaves' innermost' innermost)
            (apart leaves innermost innermost'))

end Places

/-! ## Accounts of edges -/

/--
The edges back in a trace, but for those at the places where others have released the flow, belong
to calls of dependencies, and every such call that was left has its edge back.
-/
structure Balanced (released : Nat → Prop) (events : List Traffic) : Prop where
  inside : ∀ place, released place → place < events.length
  resolved : ∀ {back source target value},
    events[back]? = some (.resolveDependency source target value) → ¬ released back →
      ∃ call params, Returns events back call ∧ 0 < call ∧
        events[call]? = some (.callDependency target source params)
  returned : ∀ {left call address value source target params},
    events[left]? = some (.unload address value) →
    (openLoads (events.take left)).head? = some (call + 1) → 0 < call →
    events[call]? = some (.callDependency source target params) →
      ¬ released (left + 1) ∧ Returns events (left + 1) call
  called : ∀ {call source target params}, 0 < call →
    events[call]? = some (.callDependency source target params) →
      ∃ params, events[call + 1]? = some (.load target params)

variable {released : Nat → Prop} {events block : List Traffic}

theorem balanced_nil : Balanced (fun _ => False) [] where
  inside _ := False.elim
  resolved known := by simp at known
  returned known := by simp at known
  called _ known := by simp at known

theorem Balanced.answered (balanced : Balanced released events) {call n : Nat} {source target : Address}
    {params : List Json} (positive : 0 < call)
    (called : events[call]? = some (.callDependency source target params)) (later : call + 1 < n)
    (inside : n ≤ events.length) (closed : call + 1 ∉ openLoads (events.take n)) :
    ∃ back ≤ n, ¬ released back ∧ Returns events back call := by
  obtain ⟨params', loaded⟩ := balanced.called positive called
  obtain ⟨left, address, value, before, leaves, innermost⟩ :=
    left_of_not_mem_openLoads loaded later inside closed
  exact ⟨left + 1, before, balanced.returned leaves innermost positive called⟩

theorem Balanced.extend (balanced : Balanced released events) {released' : Nat → Prop}
    (same : ∀ place < events.length, released' place ↔ released place)
    (inside : ∀ place, released' place → place < (events ++ block).length)
    (resolved : ∀ {place source target value},
      block[place]? = some (.resolveDependency source target value) →
        ¬ released' (events.length + place) →
        ∃ call params, Returns (events ++ block) (events.length + place) call ∧ 0 < call ∧
          (events ++ block)[call]? = some (.callDependency target source params))
    (returned : ∀ {place call address value source target params},
      block[place]? = some (.unload address value) →
      (openLoads ((events ++ block).take (events.length + place))).head? = some (call + 1) → 0 < call →
      (events ++ block)[call]? = some (.callDependency source target params) →
        ¬ released' (events.length + place + 1) ∧
          Returns (events ++ block) (events.length + place + 1) call)
    (called : ∀ {place source target params},
      block[place]? = some (.callDependency source target params) →
        ∃ params, block[place + 1]? = some (.load target params)) :
    Balanced released' (events ++ block) where
  inside := inside
  resolved {back source target value} known fresh := by
    by_cases old : back < events.length
    · rw [List.getElem?_append_left old] at known
      obtain ⟨call, params, returns, positive, called⟩ :=
        balanced.resolved known fun other => fresh ((same back old).2 other)
      exact ⟨call, params, returns.append, positive, getElem?_of_some called⟩
    · obtain ⟨place, rfl⟩ := Nat.exists_eq_add_of_le (Nat.le_of_not_lt old)
      rw [List.getElem?_append_right (Nat.le_add_right ..), Nat.add_sub_cancel_left] at known
      exact resolved known fresh
  returned {left call address value source target params} known innermost positive caused := by
    by_cases old : left < events.length
    · have before := lt_of_innermost innermost
      rw [List.getElem?_append_left old] at known
      rw [List.take_append_of_le_length (Nat.le_of_lt old)] at innermost
      rw [List.getElem?_append_left (by omega)] at caused
      obtain ⟨fresh, returns⟩ := balanced.returned known innermost positive caused
      -- The edge back stands among the events that were there before, too.
      have edged : left + 1 < events.length := by
        cases returns with
        | intro edge => exact (List.getElem?_eq_some_iff.1 edge).1
      exact ⟨fun other => fresh ((same _ edged).1 other), returns.append⟩
    · obtain ⟨place, rfl⟩ := Nat.exists_eq_add_of_le (Nat.le_of_not_lt old)
      rw [List.getElem?_append_right (Nat.le_add_right ..), Nat.add_sub_cancel_left] at known
      exact returned known innermost positive caused
  called {call source target params} positive known := by
    by_cases old : call < events.length
    · rw [List.getElem?_append_left old] at known
      obtain ⟨params', loaded⟩ := balanced.called positive known
      exact ⟨params', getElem?_of_some loaded⟩
    · obtain ⟨place, rfl⟩ := Nat.exists_eq_add_of_le (Nat.le_of_not_lt old)
      rw [List.getElem?_append_right (Nat.le_add_right ..), Nat.add_sub_cancel_left] at known
      obtain ⟨params', loaded⟩ := called known
      refine ⟨params', ?_⟩
      rwa [Nat.add_assoc, List.getElem?_append_right (Nat.le_add_right ..), Nat.add_sub_cancel_left]

theorem Balanced.append (balanced : Balanced released events)
    (resolved : ∀ {place source target value},
      block[place]? = some (.resolveDependency source target value) →
        ∃ call params, Returns (events ++ block) (events.length + place) call ∧ 0 < call ∧
          (events ++ block)[call]? = some (.callDependency target source params))
    (returned : ∀ {place call address value source target params},
      block[place]? = some (.unload address value) →
      (openLoads ((events ++ block).take (events.length + place))).head? = some (call + 1) → 0 < call →
      (events ++ block)[call]? = some (.callDependency source target params) →
        Returns (events ++ block) (events.length + place + 1) call)
    (called : ∀ {place source target params},
      block[place]? = some (.callDependency source target params) →
        ∃ params, block[place + 1]? = some (.load target params)) :
    Balanced released (events ++ block) := by
  refine balanced.extend (fun _ _ => Iff.rfl) (fun place known => ?_) (fun known _ => resolved known)
    (fun {place _ _ _ _ _ _} known innermost positive caused =>
      ⟨fun other => ?_, returned known innermost positive caused⟩) called
  · rw [List.length_append]
    exact Nat.lt_add_right _ (balanced.inside place known)
  · have := balanced.inside _ other
    omega

def Forward (block : List Traffic) : Prop :=
  ∀ place : Nat, match block[place]? with
    | some (.resolveDependency _ _ _) | some (.unload _ _) => False
    | some (.callDependency _ target _) => ∃ params, block[place + 1]? = some (.load target params)
    | _ => True

theorem Balanced.forward (balanced : Balanced released events) (forward : Forward block) :
    Balanced released (events ++ block) := by
  refine balanced.append (fun {place _ _ _} known => ?_) (fun {place _ _ _ _ _ _} known => ?_)
    fun {place _ _ _} known => ?_
  all_goals
    have here := forward place
    simp only [known] at here
  exact here

theorem forward_one {event : Traffic} (forward : match event with
    | .resolveDependency _ _ _ | .unload _ _ | .callDependency _ _ _ => False
    | _ => True) : Forward [event] := by
  intro place
  cases place with
  | zero => cases event <;> simp_all
  | succ place => simp

theorem Balanced.unload (balanced : Balanced released events) (address : Address) (value : Json)
    (unconsumed : ∀ {edge source target params}, (openLoads events).head? = some (edge + 1) →
      0 < edge → events[edge]? ≠ some (.callDependency source target params)) :
    Balanced released (events ++ [.unload address value]) := by
  apply balanced.append
  · intro place source target value known
    cases place <;> simp at known
  · intro place call address value source target params known innermost positive caused
    obtain rfl : place = 0 := by
      have := (List.getElem?_eq_some_iff.1 known).1
      simpa using this
    rw [Nat.add_zero, List.take_left] at innermost
    have before := lt_of_mem_openLoads (List.mem_of_mem_head? innermost)
    rw [List.getElem?_append_left (by omega)] at caused
    exact absurd caused (unconsumed innermost positive)
  · intro place source target params known
    cases place <;> simp at known

theorem Balanced.resolve (balanced : Balanced released events) {edge : Nat} {address target : Address}
    {params : List Json} (innermost : (openLoads events).head? = some (edge + 1)) (positive : 0 < edge)
    (caused : events[edge]? = some (.callDependency target address params)) (value : Json) :
    Balanced released
      (events ++ [.unload address value, .resolveDependency address target value]) := by
  let block : List Traffic := [.unload address value, .resolveDependency address target value]
  have back : (events ++ block)[events.length + 1]? =
      some (.resolveDependency address target value) := by simp [block]
  have leaves : (events ++ block)[events.length]? = some (.unload address value) := by
    simp [block]
  have returns : Returns (events ++ block) (events.length + 1) edge := by
    apply Returns.intro back leaves
    rwa [List.take_left]
  apply balanced.append
  · intro place source target' value' known
    rcases place with _ | _ | place
    · simp at known
    · obtain ⟨rfl, rfl, rfl⟩ := by simpa using known
      exact ⟨edge, params, returns, positive, getElem?_of_some caused⟩
    · simp at known
  · intro place call _ _ _ _ _ known innermost' _ _
    rcases place with _ | _ | place
    · rw [Nat.add_zero, List.take_left, innermost] at innermost'
      obtain rfl := Nat.succ.inj (Option.some.inj innermost')
      exact returns
    · simp at known
    · simp at known
  · intro place source target' params' known
    rcases place with _ | _ | place <;> simp at known

theorem Balanced.release (balanced : Balanced released events)
    (edges : ∀ event ∈ block, ∃ source target value, event = .resolveDependency source target value) :
    Balanced (fun place => released place ∨ events.length ≤ place ∧ place < events.length + block.length)
      (events ++ block) := by
  have only {place : Nat} {event : Traffic} (known : block[place]? = some event) :
      ∃ source target value, event = .resolveDependency source target value :=
    edges event (List.mem_of_getElem? known)
  refine balanced.extend (fun place old => ?_) (fun place known => ?_) (fun known fresh => ?_)
    (fun known _ _ _ => ?_) fun known => ?_
  · exact or_iff_left fun new => Nat.not_lt_of_le new.1 old
  · rw [List.length_append]
    rcases known with old | new
    · exact Nat.lt_add_right _ (balanced.inside place old)
    · exact new.2
  · have within := (List.getElem?_eq_some_iff.1 known).1
    exact absurd (.inr ⟨Nat.le_add_right .., Nat.add_lt_add_left within _⟩) fresh
  · obtain ⟨_, _, _, same⟩ := only known
    cases same
  · obtain ⟨_, _, _, same⟩ := only known
    cases same

/-! ## Stacks -/

inductive Stands (base : Nat) (events : List Traffic) : List Nat → List OpenCall → Prop
  | closed : Stands base events [] []
  | entered {address : Address} {params : List Json}
      (loaded : events[base]? = some (.load address params)) :
      Stands base events [base] [⟨address, none⟩]
  | called {place : Nat} {places : List Nat} {address source : Address} {params : List Json}
      {isDependency : Bool} {consumer : Option Address} {calls : List OpenCall}
      (positive : 0 < place)
      (edge : events[place]? = some (.call source address params isDependency))
      (loaded : events[place + 1]? = some (.load address params))
      (stands : Stands base events places (⟨source, consumer⟩ :: calls)) :
      Stands base events ((place + 1) :: places)
        (⟨address, if isDependency then some source else none⟩ :: ⟨source, consumer⟩ :: calls)

namespace Stands

variable {events block : List Traffic} {base : Nat} {places : List Nat} {calls : List OpenCall}
  {call : OpenCall}

theorem append (stands : Stands base events places calls) (block : List Traffic) :
    Stands base (events ++ block) places calls := by
  induction stands with
  | closed => exact .closed
  | entered loaded => exact .entered (getElem?_of_some loaded)
  | called positive edge loaded stands ih =>
      exact .called positive (getElem?_of_some edge) (getElem?_of_some loaded) ih

theorem tail (stands : Stands base events places calls) :
    Stands base events places.tail calls.tail := by
  cases stands with
  | closed => exact .closed
  | entered => exact .closed
  | called positive edge loaded stands => exact stands

theorem nonempty (stands : Stands base events places (call :: calls)) : 0 < events.length := by
  cases stands with
  | entered loaded => exact Nat.zero_lt_of_lt (List.getElem?_eq_some_iff.1 loaded).1
  | called positive edge => exact Nat.zero_lt_of_lt (List.getElem?_eq_some_iff.1 edge).1

theorem consumed {address target : Address}
    (stands : Stands base events places (⟨address, some target⟩ :: calls)) :
    ∃ edge, places.head? = some (edge + 1) ∧ 0 < edge ∧
      ∃ params, events[edge]? = some (.callDependency target address params) := by
  generalize opened : OpenCall.mk address (some target) :: calls = all at stands
  cases stands with
  | closed => cases opened
  | entered => cases opened
  | @called place places address source params isDependency consumer calls positive edge =>
      cases isDependency with
      | false => cases opened
      | true =>
          obtain ⟨⟨rfl, rfl⟩, -⟩ := by simpa using opened
          exact ⟨place, rfl, positive, params, edge⟩

theorem unconsumed {address : Address}
    (stands : Stands base events places (⟨address, none⟩ :: calls)) (first : base ≤ 1) {edge : Nat}
    (innermost : places.head? = some (edge + 1)) (positive : 0 < edge) {source target : Address}
    {params : List Json} : events[edge]? ≠ some (.callDependency source target params) := by
  generalize opened : OpenCall.mk address none :: calls = all at stands
  cases stands with
  | closed => cases opened
  | entered =>
      obtain rfl := Option.some.inj innermost
      omega
  | @called place places address source params isDependency consumer calls positive caused =>
      obtain rfl := Nat.succ.inj (Option.some.inj innermost)
      cases isDependency with
      | false => simp [caused, Traffic.call]
      | true => cases opened

theorem outermost (stands : Stands base events places [call]) :
    ∃ params, events[base]? = some (.load call.address params) := by
  cases stands with
  | entered loaded => exact ⟨_, loaded⟩

end Stands

structure Recounts (base : Nat) (events : List Traffic) (records : List Record) : Prop where
  entered : Stack.calls records ≠ []
  opened : ∃ places, Stands base events places (Stack.calls records) ∧
    openLoads events = if records.head?.any Stack.isLeaving then places.tail else places

namespace Recounts

open Stack (Shape Idle calls standing isLeaving)

variable {released : Nat → Prop} {events block : List Traffic} {base : Nat}
  {records below later : List Record} {top : Record}

theorem standing (recounts : Recounts base events records) (shape : Shape records) :
    Stands base events (openLoads events) (calls (Stack.standing records)) := by
  obtain ⟨-, places, stands, opened⟩ := recounts
  obtain ⟨top, below, rfl⟩ := shape.exists_cons
  rw [opened]
  unfold Stack.standing
  cases leaving : isLeaving top with
  | false => simpa [leaving] using stands
  | true =>
      have framed : top.frame?.isSome = true := by
        cases shape with
        | entry place pending => rcases pending with idle | params <;> simp_all [isLeaving]
        | frame place => exact place
      obtain ⟨address, framed⟩ := Option.isSome_iff_exists.1 framed
      rw [Stack.calls_of_frame framed] at stands
      simpa [leaving] using stands.tail

theorem idle (stands : Stands base events (openLoads events) (calls records)) (idle : Idle records)
    (entered : calls records ≠ []) : Recounts base events records := by
  refine ⟨entered, openLoads events, stands, ?_⟩
  obtain ⟨top, below, rfl⟩ := idle.shape.exists_cons
  simp [Stack.not_isLeaving (idle.idle top (List.mem_cons_self ..))]

theorem release (recounts : Recounts base events records)
    (edges : ∀ event ∈ block, ∃ source target value, event = .resolveDependency source target value) :
    Recounts base (events ++ block) records := by
  obtain ⟨entered, places, stands, opened⟩ := recounts
  refine ⟨entered, places, stands.append block, ?_⟩
  rw [← opened]
  clear opened stands entered
  induction block generalizing events with
  | nil => rw [List.append_nil]
  | cons event block ih =>
      obtain ⟨⟨source, target, value, rfl⟩, rest⟩ := List.forall_mem_cons.1 edges
      rw [List.append_cons, ih rest, openLoads_concat]
      rfl

theorem forward_load (address : Address) (params : List Json) : Forward [.load address params] := by
  intro place
  rcases place with _ | place <;> simp

theorem forward_call (source address : Address) (params : List Json) (isDependency : Bool) :
    Forward [.call source address params isDependency, .load address params] := by
  intro place
  rcases place with _ | _ | place <;> cases isDependency <;> simp [Traffic.call]

theorem openLoads_pair (events : List Traffic) (first second : Traffic) :
    openLoads (events ++ [first, second]) =
      second.nest (events.length + 1) (first.nest events.length (openLoads events)) := by
  rw [List.append_cons, openLoads_concat, openLoads_concat, List.length_append,
    List.length_singleton]

theorem leave {caller : Record} {address : Address} (framed : top.frame? = some address)
    (stands : Stands base events (openLoads events) (calls (top :: caller :: below))) (value : Json)
    (opened : openLoads (events ++ block) = (openLoads events).tail) :
    Recounts base (events ++ block) (top.leave value :: caller :: below) := by
  refine ⟨?_, openLoads events, ?_, ?_⟩
  · have left : (top.leave value).frame? = some address := framed
    simp [Stack.calls_of_frame left]
  · rw [Stack.calls_of_frame framed] at stands
    have left : (top.leave value).frame? = some address := framed
    rw [Stack.calls_of_frame left]
    exact stands.append block
  · simp [opened, isLeaving, Record.leave, Record.push]

theorem still {event : Traffic} (quiet : ∀ place places, event.nest place places = places)
    (forward : Forward [event]) (stands : Stands base events (openLoads events) (calls records))
    (idle : Idle records) (entered : calls records ≠ []) (balanced : Balanced released events) :
    Balanced released (events ++ [event]) ∧ Recounts base (events ++ [event]) records := by
  refine ⟨balanced.forward forward, .idle ?_ idle entered⟩
  rw [openLoads_concat, quiet]
  exact stands.append _

theorem emits (stands : Stands base events (openLoads events) (calls records)) (idle : Idle records)
    (first : base ≤ 1) (entered : calls records ≠ []) (balanced : Balanced released events)
    (emits : Flow.Emits records block later) :
    Balanced released (events ++ block) ∧ Recounts base (events ++ block) later := by
  have shape := idle.shape
  cases emits with
  | silent =>
      rw [List.append_nil]
      exact ⟨balanced, .idle stands idle entered⟩
  -- Over the entry record no call is open, but some are by assumption.
  | enter place address params =>
      cases shape with
      | entry => exact absurd (Stack.calls_of_entry place) entered
      | frame framed => simp [place] at framed
  | @call top below source framed address params isDependency =>
      refine ⟨balanced.forward (forward_call source address params isDependency),
        by simp [Stack.calls_frame], (events.length + 1) :: openLoads events, ?_, ?_⟩
      · rw [Stack.calls_of_frame framed] at stands
        rw [Stack.calls_frame, Stack.calls_of_frame framed, List.head?_cons, Option.bind_some, framed]
        let block : List Traffic := [.call source address params isDependency, .load address params]
        have edge : (events ++ block)[events.length]? =
            some (.call source address params isDependency) := by simp [block]
        have loaded : (events ++ block)[events.length + 1]? = some (.load address params) := by
          simp [block]
        exact .called stands.nonempty edge loaded (stands.append block)
      · have standing : isLeaving (Record.frame address params isDependency) = false := rfl
        rw [openLoads_pair]
        cases isDependency <;> simp [Traffic.nest, Traffic.call, standing]
  | log framed entries =>
      exact still (fun _ _ => rfl) (forward_one (by simp)) stands idle entered balanced
  | halt framed covered total =>
      exact still (fun _ _ => rfl) (forward_one (by simp)) stands idle entered balanced
  | @leave top caller below address framed unused value =>
      refine ⟨balanced.unload address value fun innermost positive => ?_,
        leave framed stands value (openLoads_concat events _)⟩
      have unconsumed : (if top.isDependency then caller.frame? else none) = none := by
        rcases unused with unused | unused <;> simp [unused]
      rw [Stack.calls_of_frame framed, List.head?_cons, Option.bind_some, unconsumed] at stands
      exact stands.unconsumed first innermost positive
  | @resolve top caller below address target framed used framed' value =>
      have consumer := stands
      rw [Stack.calls_of_frame framed, List.head?_cons, Option.bind_some, framed', used, if_pos rfl]
        at consumer
      obtain ⟨edge, innermost, positive, params, caused⟩ := consumer.consumed
      exact ⟨balanced.resolve innermost positive caused value,
        leave framed stands value (openLoads_pair events _ _)⟩

end Recounts

end Cadence
