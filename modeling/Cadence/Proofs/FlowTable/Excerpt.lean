import Cadence.Proofs.Flow.Renumbering
import Cadence.Proofs.FlowTable.Boundary
import Mathlib.Data.Nat.Count
/-!
Excerpts of a table. An excerpt holds the flows that were kept of those after a certain one, in
their order, and thus under other ids.
-/

namespace Cadence

/-- Which of the flows after `base` are kept. -/
structure Selection where
  base : Nat
  kept : FlowId → Bool
  above : ∀ id : Nat, kept id = true → base < id

namespace Selection

variable {s : Selection} {a b n : Nat}

def number (s : Selection) (id : Nat) : Nat :=
  s.base + Nat.count (s.kept · = true) (id + 1)

theorem number_succ (s : Selection) (n : Nat) :
    s.number (n + 1) = if s.kept (n + 1) = true then s.number n + 1 else s.number n := by
  simp only [number, Nat.count_succ (s.kept · = true) (n + 1)]
  split <;> omega

theorem number_mono (s : Selection) (less : a ≤ b) : s.number a ≤ s.number b :=
  Nat.add_le_add_left (Nat.count_monotone _ (Nat.succ_le_succ less)) _

theorem number_lt_number (kept : s.kept b = true) (less : a < b) : s.number a < s.number b := by
  obtain ⟨n, rfl⟩ : ∃ n, b = n + 1 := ⟨b - 1, by omega⟩
  rw [number_succ, if_pos kept]
  exact Nat.lt_succ_of_le (s.number_mono (by omega))

theorem number_inj (kept : s.kept a = true) (kept' : s.kept b = true)
    (same : s.number a = s.number b) : a = b := by
  rcases Nat.lt_trichotomy a b with less | equal | greater
  · exact absurd same (Nat.ne_of_lt (number_lt_number kept' less))
  · exact equal
  · exact absurd same.symm (Nat.ne_of_lt (number_lt_number kept greater))

theorem number_of_le (small : n ≤ s.base) : s.number n = s.base := by
  have none : ∀ k < n + 1, ¬ s.kept k = true := fun k less kept => by
    have above := s.above k kept
    omega
  rw [number, Nat.count_of_forall_not none, Nat.add_zero]

theorem base_le_number (s : Selection) (n : Nat) : s.base ≤ s.number n :=
  Nat.le_add_right ..

theorem base_lt_number (kept : s.kept a = true) : s.base < s.number a := by
  rw [← number_of_le (Nat.zero_le s.base)]
  exact number_lt_number kept (Nat.lt_of_le_of_lt (Nat.zero_le _) (s.above a kept))

theorem map_number (s : Selection) (n : Nat) :
    ((List.range' 1 n).filter s.kept).map s.number =
      List.range' (s.base + 1) (s.number n - s.base) := by
  induction n with
  | zero => simp [number_of_le (Nat.zero_le s.base)]
  | succ n ih =>
      have low := s.base_le_number n
      rw [List.range'_1_concat, List.filter_append, List.map_append, ih, number_succ, Nat.add_comm 1 n]
      cases kept : s.kept (n + 1) with
      | false => simp [kept]
      | true =>
          have next : s.number (n + 1) = s.base + 1 + (s.number n - s.base) := by
            rw [number_succ, if_pos kept]
            omega
          simp only [List.filter_cons, kept, List.filter_nil, if_true, List.map_cons, List.map_nil, next]
          rw [← List.range'_1_concat]
          congr 1
          omega

theorem exists_number {size id : Nat} (above : s.base < id)
    (within : id ≤ s.number size) : ∃ old : Nat, s.kept old = true ∧ s.number old = id := by
  have member : id ∈ ((List.range' 1 size).filter s.kept).map s.number := by
    rw [s.map_number, List.mem_range'_1]
    omega
  obtain ⟨old, listed, same⟩ := List.mem_map.1 member
  exact ⟨old, (List.mem_filter.1 listed).2, same⟩

end Selection

namespace FlowTable

variable {σ : Type}

/-- The flows of `part` after the base are those flows of `whole` that were kept. -/
structure Excerpt (s : Selection) (whole part : FlowTable σ) : Prop where
  size : part.phases.size = s.number whole.phases.size
  phases : ∀ id, s.kept id = true →
    Option.Rel (Phase.Like s.number) (whole.find? id) (part.find? (s.number id))
  past : ∀ id : Nat, id ≤ s.base → part.isLive id = false

variable {s : Selection} {whole part whole' part' : FlowTable σ} {id : Nat} {flow : Flow σ} {wait : Wait}

namespace Excerpt

theorem find?_eq_some (excerpt : Excerpt s whole part) (kept : s.kept id = true) {phase : Phase σ}
    (found : whole.find? id = some phase) :
    ∃ phase', part.find? (s.number id) = some phase' ∧ phase.Like s.number phase' := by
  have related := excerpt.phases id kept
  rw [found] at related
  generalize part.find? (s.number id) = other at related
  cases related with | some like => exact ⟨_, rfl, like⟩

theorem find?_eq_none (excerpt : Excerpt s whole part) (kept : s.kept id = true)
    (missing : whole.find? id = none) : part.find? (s.number id) = none := by
  have related := excerpt.phases id kept
  rw [missing] at related
  generalize part.find? (s.number id) = other at related
  cases related with | none => rfl

theorem find?_cases (excerpt : Excerpt s whole part) (kept : s.kept id = true) :
    whole.find? id = none ∧ part.find? (s.number id) = none ∨
      ∃ phase phase', whole.find? id = some phase ∧ part.find? (s.number id) = some phase' ∧
        phase.Like s.number phase' := by
  cases found : whole.find? id with
  | none => exact .inl ⟨rfl, excerpt.find?_eq_none kept found⟩
  | some phase =>
      obtain ⟨phase', known, like⟩ := excerpt.find?_eq_some kept found
      exact .inr ⟨phase, phase', rfl, known, like⟩

theorem active (excerpt : Excerpt s whole part) (kept : s.kept id = true)
    (found : whole.find? id = some (.active flow)) :
    part.find? (s.number id) = some (.active (flow.renumber s.number)) := by
  obtain ⟨phase, known, like⟩ := excerpt.find?_eq_some kept found
  cases like with | active => exact known

theorem suspended (excerpt : Excerpt s whole part) (kept : s.kept id = true)
    (found : whole.find? id = some (.suspended flow wait)) :
    part.find? (s.number id) =
      some (.suspended (flow.renumber s.number) (wait.renumber s.number)) := by
  obtain ⟨phase, known, like⟩ := excerpt.find?_eq_some kept found
  cases like with | suspended => exact known

theorem suspended? (excerpt : Excerpt s whole part) (kept : s.kept id = true) :
    part.suspended? (s.number id) =
      (whole.suspended? id).map fun (flow, wait) => (flow.renumber s.number, wait.renumber s.number) := by
  unfold FlowTable.suspended?
  obtain ⟨found, known⟩ | ⟨phase, phase', found, known, like⟩ := excerpt.find?_cases kept
  · rw [found, known]
    rfl
  · rw [found, known]
    cases like <;> rfl

theorem live? (excerpt : Excerpt s whole part) (kept : s.kept id = true) :
    part.live? (s.number id) = (whole.live? id).map (Flow.renumber s.number) := by
  unfold FlowTable.live?
  obtain ⟨found, known⟩ | ⟨phase, phase', found, known, like⟩ := excerpt.find?_cases kept
  · rw [found, known]
    rfl
  · rw [found, known]
    cases like <;> rfl

theorem active? (excerpt : Excerpt s whole part) (kept : s.kept id = true) :
    part.active? (s.number id) = (whole.active? id).map (Flow.renumber s.number) := by
  unfold FlowTable.active?
  obtain ⟨found, known⟩ | ⟨phase, phase', found, known, like⟩ := excerpt.find?_cases kept
  · rw [found, known]
    rfl
  · rw [found, known]
    cases like <;> rfl

theorem isLive (excerpt : Excerpt s whole part) (kept : s.kept id = true) :
    part.isLive (s.number id) = whole.isLive id := by
  simp [FlowTable.isLive, excerpt.live? kept]

theorem dependencies (excerpt : Excerpt s whole part) (kept : s.kept id = true) :
    part.dependencies (s.number id) = (whole.dependencies id).map s.number := by
  unfold FlowTable.dependencies
  rw [excerpt.suspended? kept]
  cases whole.suspended? id <;> rfl

theorem completed? (excerpt : Excerpt s whole part) (kept : s.kept id = true) :
    Option.Rel (fun done done' => done' = { done.renumber s.number with order := done'.order })
      (whole.completed? id) (part.completed? (s.number id)) := by
  unfold FlowTable.completed?
  obtain ⟨found, known⟩ | ⟨phase, phase', found, known, like⟩ := excerpt.find?_cases kept
  · rw [found, known]
    exact .none
  · rw [found, known]
    cases like with
    | active => exact .none
    | suspended => exact .none
    | completed => exact .some rfl
    | cancelled => exact .none

theorem released? (excerpt : Excerpt s whole part) (kept : s.kept id = true) :
    part.released? (s.number id) = (whole.released? id).map (Released.renumber s.number) := by
  unfold FlowTable.released?
  have related := excerpt.completed? kept
  cases finished : whole.completed? id with
  | none =>
      rw [finished] at related
      generalize part.completed? (s.number id) = other at related
      cases related with | none => rfl
  | some done =>
      rw [finished] at related
      generalize part.completed? (s.number id) = other at related
      cases related with
      | some same =>
          rw [same]
          rfl

theorem collect {α β : Type} (excerpt : Excerpt s whole part) {view : FlowId → Phase σ → Option α}
    {view' : FlowId → Phase σ → Option β} {keep : α → Bool} {g : α → β}
    (seen : ∀ id phase phase', s.kept id = true → whole.find? id = some phase →
      phase.Like s.number phase' → view' (s.number id) phase' = (view id phase).map g)
    (keeps : ∀ id phase a, view id phase = some a → keep a = s.kept id)
    (past : ∀ id phase, part.find? id = some phase → part.isLive id = false → view' id phase = none) :
    part.collect view' = ((whole.collect view).filter keep).map g := by
  -- The flows up to the base have ended in the excerpt and show nothing there.
  have low : (List.range' 1 s.base).filterMap (fun id => (part.find? id).bind (view' id)) = [] := by
    refine List.filterMap_eq_nil_iff.2 fun id member => ?_
    rw [Option.bind_eq_none_iff]
    intro phase found
    rw [List.mem_range'_1] at member
    exact past id phase found (excerpt.past id (by omega))
  have split : List.range' 1 (s.number whole.phases.size) = List.range' 1 s.base ++
      ((List.range' 1 whole.phases.size).filter s.kept).map s.number := by
    rw [s.map_number, Nat.add_comm s.base 1]
    have low := s.base_le_number whole.phases.size
    rw [List.range'_append_1]
    congr 1
    omega
  rw [collect_eq, collect_eq, excerpt.size, split, List.filterMap_append, low, List.nil_append,
    List.filterMap_map]
  induction List.range' 1 whole.phases.size with
  | nil => rfl
  | cons id ids ih =>
      rw [List.filter_cons]
      cases kept : s.kept id with
      | false =>
          simp only [Bool.false_eq_true, if_false, ih, List.filterMap_cons]
          cases known : (whole.find? id).bind (view id) with
          | none => rfl
          | some a =>
              obtain ⟨phase, -, known⟩ := Option.bind_eq_some_iff.1 known
              simp [keeps id phase a known, kept]
      | true =>
          have here : ((fun id => (part.find? id).bind (view' id)) ∘ s.number) id =
              ((whole.find? id).bind (view id)).map g := by
            rw [Function.comp_apply]
            obtain ⟨found, known⟩ | ⟨phase, phase', found, known, like⟩ := excerpt.find?_cases kept
            · rw [found, known]
              rfl
            · rw [found, known]
              exact seen id phase phase' kept found like
          simp only [if_true, List.filterMap_cons, here, ih]
          cases known : (whole.find? id).bind (view id) with
          | none => rfl
          | some a =>
              obtain ⟨phase, -, known⟩ := Option.bind_eq_some_iff.1 known
              simp [keeps id phase a known, kept]

theorem activations (excerpt : Excerpt s whole part) : part.activations =
    (whole.activations.filter fun key => s.kept key.1).map fun key => (s.number key.1, key.2) := by
  refine excerpt.collect (fun id phase phase' _ _ like => ?_) (fun id phase key seen => ?_)
    fun id phase found dead => ?_
  · cases like <;> rfl
  · cases phase with
    | active flow =>
        obtain rfl := Option.some.inj seen
        rfl
    | suspended => cases seen
    | completed => cases seen
    | cancelled => cases seen
  · cases phase with
    | active flow => simp [isLive_of_active found] at dead
    | suspended => rfl
    | completed => rfl
    | cancelled => rfl

theorem outside (excerpt : Excerpt s whole part) (grows : whole.phases.size ≤ whole'.phases.size)
    (same : ∀ id, s.kept id = true → whole'.find? id = whole.find? id)
    (others : ∀ id : Nat, whole.phases.size < id → id ≤ whole'.phases.size → s.kept id = false) :
    Excerpt s whole' part where
  size := by
    rw [excerpt.size]
    generalize whole'.phases.size = size at grows others
    induction size, grows using Nat.le_induction with
    | base => rfl
    | succ n grows ih =>
        rw [s.number_succ, if_neg (by simp [others (n + 1) (by omega) (Nat.le_refl _)])]
        exact ih fun id above within => others id above (by omega)
  phases id kept := by
    rw [same id kept]
    exact excerpt.phases id kept
  past := excerpt.past

theorem put (excerpt : Excerpt s whole part) (kept : s.kept id = true) {old phase phase' : Phase σ}
    (found : whole.find? id = some old) (like : phase.Like s.number phase') :
    Excerpt s (whole.put id (some phase)) (part.put (s.number id) (some phase')) where
  size := by
    rw [size_put, size_put]
    exact excerpt.size
  phases other kept' := by
    obtain ⟨old', found', -⟩ := excerpt.find?_eq_some kept found
    rw [find?_put found, find?_put found']
    by_cases same : other = id
    · rw [if_pos same, if_pos (by rw [same])]
      exact .some like
    · rw [if_neg same, if_neg fun again => same (Selection.number_inj kept' kept again)]
      exact excerpt.phases other kept'
  past other low := by
    have distinct : other ≠ s.number id := by
      have high := Selection.base_lt_number kept
      omega
    simpa only [FlowTable.isLive, FlowTable.live?, find?_put_of_ne part _ distinct] using
      excerpt.past other low

theorem create (excerpt : Excerpt s whole part) (kept : s.kept (whole.phases.size + 1) = true)
    (recipe : Recipe σ) (caller : Option Address) (isDependency : Bool) (tick : Tick) :
    part.phases.size + 1 = s.number (whole.phases.size + 1) ∧
      Excerpt s (whole.create recipe caller isDependency tick).2
        (part.create recipe caller isDependency tick).2 := by
  have next : s.number (whole.phases.size + 1) = part.phases.size + 1 := by
    rw [s.number_succ, if_pos kept, excerpt.size]
  refine ⟨next.symm, ?_, fun id kept' => ?_, fun id low => ?_⟩
  · simp [FlowTable.create, next]
  · rw [find?_create, find?_create, ← next]
    by_cases new : id = whole.phases.size + 1
    · rw [if_pos new, if_pos (by rw [new]), ← Flow.renumber_ofRecipe]
      exact .some (.active _)
    · rw [if_neg new, if_neg fun again => new (Selection.number_inj kept' kept again)]
      exact excerpt.phases id kept'
  · have old : id ≠ part.phases.size + 1 := by
      have high := Selection.base_lt_number kept
      rw [next] at high
      omega
    simpa only [FlowTable.isLive, FlowTable.live?, find?_create, if_neg old] using
      excerpt.past id low

theorem createAll (excerpt : Excerpt s whole part) (caller : Option Address) (isDependency : Bool)
    (tick : Tick) (recipes : List (Recipe σ)) (kept : ∀ id : Nat, whole.phases.size < id →
      id ≤ whole.phases.size + recipes.length → s.kept id = true) :
    (FlowTable.createAll caller isDependency tick recipes part).1 =
        (FlowTable.createAll caller isDependency tick recipes whole).1.map s.number ∧
      Excerpt s (FlowTable.createAll caller isDependency tick recipes whole).2
        (FlowTable.createAll caller isDependency tick recipes part).2 := by
  induction recipes generalizing whole part with
  | nil => exact ⟨rfl, excerpt⟩
  | cons recipe recipes ih =>
      have grown : (whole.create recipe caller isDependency tick).2.phases.size =
          whole.phases.size + 1 := by simp [FlowTable.create]
      obtain ⟨next, made⟩ := excerpt.create (kept _ (by omega) (by simp)) recipe caller isDependency tick
      obtain ⟨ids, made⟩ := ih made fun id above within =>
        kept id (by omega) (by simp only [List.length_cons]; omega)
      exact ⟨List.cons_eq_cons.2 ⟨next, ids⟩, made⟩

end Excerpt

end FlowTable

end Cadence
