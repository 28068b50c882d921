import Cadence.Proofs.FlowTable.Breakdown
/-!
Cancelling a flow cascades to what it waits for, on any graph: the flows may share what they wait
for, wait in circles or for themselves, and for flows that have ended or that do not exist.
-/

namespace Cadence.FlowTable

open Relation

variable {σ : Type} {table : FlowTable σ} {root id x y : Nat} {parent : FlowId}
  {caller : Option Address} {tick : Tick} {ids queue found result visited : List FlowId}

theorem unseen_eq (graph : AwaitGraph) (seen ids : List FlowId) :
    graph.unseen seen ids =
      (ids.filter fun id => decide (graph.isLive id = true ∧ id ∉ seen)).eraseDups := by
  induction ids generalizing seen with
  | nil => rfl
  | cons id ids ih =>
      unfold AwaitGraph.unseen
      by_cases fresh : graph.isLive id = true ∧ id ∉ seen
      · rw [if_pos fresh, ih, List.filter_cons_of_pos (by simpa using fresh), List.eraseDups_cons,
          List.filter_filter]
        congr 2
        apply List.filter_congr
        intro other _
        by_cases same : other = id <;> simp [same]
      · rw [if_neg fresh, ih, List.filter_cons_of_neg (by simpa using fresh)]

theorem unseen_congr {graph : AwaitGraph} {seen seen' : List FlowId} (same : ∀ x, x ∈ seen ↔ x ∈ seen')
    (ids : List FlowId) : graph.unseen seen ids = graph.unseen seen' ids := by
  simp only [unseen_eq, same]

theorem unseen_append (graph : AwaitGraph) (seen ids ids' : List FlowId) :
    graph.unseen seen (ids ++ ids') =
      graph.unseen seen ids ++
        graph.unseen (seen ++ graph.unseen seen ids) ids' := by
  induction ids generalizing seen with
  | nil => rw [AwaitGraph.unseen, List.append_nil, List.nil_append, List.nil_append]
  | cons id ids ih =>
      by_cases fresh : graph.isLive id = true ∧ id ∉ seen
      · have here (rest : List FlowId) :
            graph.unseen seen (id :: rest) = id :: graph.unseen (id :: seen) rest := by
          rw [AwaitGraph.unseen, if_pos fresh]
        rw [List.cons_append, here, here, ih, List.cons_append]
        congr 2
        apply unseen_congr
        intro other
        simp only [List.mem_append, List.mem_cons]
        tauto
      · have here (rest : List FlowId) :
            graph.unseen seen (id :: rest) = graph.unseen seen rest := by
          rw [AwaitGraph.unseen, if_neg fresh]
        rw [List.cons_append, here, here, ih]

/-- The search as a loop without a bound, which goes on until there is nothing left to look at. -/
inductive Explores (table : FlowTable σ) (root : FlowId) :
    List FlowId → List FlowId → List FlowId → Prop
  | done (found : List FlowId) : Explores table root [] found found
  | next {id : FlowId} {queue found result : List FlowId}
      (rest : Explores table root
        (queue ++ table.graph.unseen (root :: found) (table.dependencies id))
        (found ++ table.graph.unseen (root :: found) (table.dependencies id)) result) :
      Explores table root (id :: queue) found result

theorem Search.explores {fuel : Nat} (search : table.Search root queue found)
    (enough : queue.length + table.phases.size ≤ fuel + found.length) :
    table.Explores root queue found (table.graph.explore root fuel queue found) := by
  induction fuel generalizing queue found with
  | zero =>
      have bound := search.length_le
      have empty : queue = [] := List.eq_nil_of_length_eq_zero (by omega)
      rw [empty]
      exact .done found
  | succ fuel ih =>
      cases queue with
      | nil => exact .done found
      | cons id queue =>
          apply Explores.next
          apply ih search.step
          simp only [List.length_append, List.length_cons] at enough ⊢
          omega

structure Sweeps (table : FlowTable σ) (root : FlowId) (visited queue found : List FlowId) : Prop where
  order : root :: found = visited ++ queue
  drawn : found = table.graph.unseen [root] (visited.flatMap table.dependencies)

theorem Sweeps.step (sweeps : table.Sweeps root visited (id :: queue) found) :
    table.Sweeps root (visited ++ [id])
      (queue ++ table.graph.unseen (root :: found) (table.dependencies id))
      (found ++ table.graph.unseen (root :: found) (table.dependencies id)) where
  order := by
    rw [← List.cons_append, sweeps.order]
    simp
  drawn := by
    rw [List.flatMap_append, unseen_append, ← sweeps.drawn]
    simp

theorem Explores.sweeps (explores : table.Explores root queue found result)
    (sweeps : table.Sweeps root visited queue found) :
    table.Sweeps root (root :: result) [] result := by
  induction explores generalizing visited with
  | done found =>
      have all : root :: found = visited := by simpa using sweeps.order
      exact ⟨by simp, all ▸ sweeps.drawn⟩
  | next rest ih => exact ih sweeps.step

theorem explores_liveDescendants (table : FlowTable σ) (root : FlowId) :
    table.Explores root [root] [] (table.liveDescendants root) :=
  (Search.start table root).explores (by simp; omega)

theorem liveDescendants_eq (table : FlowTable σ) (root : FlowId) :
    table.liveDescendants root =
      table.graph.unseen [root] ((root :: table.liveDescendants root).flatMap table.dependencies) := by
  have start : table.Sweeps root [] [root] [] := ⟨rfl, rfl⟩
  exact ((explores_liveDescendants table root).sweeps start).drawn

inductive Leads (table : FlowTable σ) : Nat → FlowId → FlowId → Prop
  | start (id : FlowId) : Leads table 0 id id
  | step {n : Nat} {a b c : FlowId} (path : Leads table n a b) (awaits : table.Awaits b c) :
      Leads table (n + 1) a c

theorem Leads.reached {n : Nat} (leads : table.Leads n root x) :
    x ∈ root :: table.liveDescendants root := by
  rw [mem_tree_iff]
  induction leads with
  | start => exact .refl
  | step path awaits ih => exact ih.tail awaits

theorem mem_of_sublist_append {α : Type} {x y : α} {front back : List α}
    (ordered : List.Sublist [x, y] (front ++ back)) (nodup : (front ++ back).Nodup)
    (member : y ∈ front) : x ∈ front := by
  have apart : y ∉ back := fun again => (List.nodup_append.1 nodup).2.2 y member y again rfl
  obtain ⟨first, last, split, inFront, inBack⟩ := List.sublist_append_iff.1 ordered
  cases first with
  | nil =>
      have whole : last = [x, y] := split.symm
      exact absurd (inBack.subset (by simp [whole])) apart
  | cons a rest =>
      obtain ⟨rfl, -⟩ := List.cons.inj split
      exact inFront.subset (List.mem_cons_self ..)

theorem awaits_before {z : Nat} (ordered : List.Sublist [x, y] (table.liveDescendants root))
    (member : z ∈ root :: table.liveDescendants root) (awaits : table.Awaits z y) :
    ∃ w, (w = z ∨ List.Sublist [w, z] (root :: table.liveDescendants root)) ∧
      table.Awaits w x := by
  obtain ⟨front, back, split⟩ := List.append_of_mem member
  -- What is found once `z` has been looked at is a first part of all that is found.
  have found : table.liveDescendants root =
      table.graph.unseen [root] ((front ++ [z]).flatMap table.dependencies) ++
        table.graph.unseen ([root] ++ table.graph.unseen [root] ((front ++ [z]).flatMap table.dependencies))
          (back.flatMap table.dependencies) := by
    rw [← unseen_append, ← List.flatMap_append, List.append_assoc, List.singleton_append, ← split]
    exact liveDescendants_eq table root
  have other : y ∉ [root] := by
    have known : y ∈ table.liveDescendants root := ordered.subset (by simp)
    simpa using (mem_liveDescendants.1 known).1
  have early : y ∈ table.graph.unseen [root] ((front ++ [z]).flatMap table.dependencies) := by
    apply mem_unseen.2
    exact ⟨List.mem_flatMap.2 ⟨z, by simp, awaits.1⟩, awaits.2, other⟩
  have nodup := nodup_liveDescendants table root
  rw [found] at ordered nodup
  obtain ⟨listed, live, -⟩ := mem_unseen.1 (mem_of_sublist_append ordered nodup early)
  obtain ⟨w, inside, listed⟩ := List.mem_flatMap.1 listed
  refine ⟨w, ?_, listed, live⟩
  rcases List.mem_append.1 inside with before | here
  · right
    rw [split]
    have first : List.Sublist [w] front := List.singleton_sublist.2 before
    exact first.append (List.singleton_sublist.2 (List.mem_cons_self ..))
  · exact .inl (List.mem_singleton.1 here)

theorem leads_before {n : Nat}
    (ordered : List.Sublist [x, y] (root :: table.liveDescendants root))
    (leads : table.Leads n root y) : ∃ m, m ≤ n ∧ table.Leads m root x := by
  induction n generalizing x y with
  | zero =>
      cases leads with
      | start =>
          have fresh := (search_liveDescendants table root).fresh
          cases ordered with
          | cons _ later => exact absurd (later.subset (by simp)) fresh
          | cons_cons _ later => exact absurd (later.subset (by simp)) fresh
  | succ n ih =>
      cases ordered with
      | cons_cons _ later => exact ⟨0, Nat.zero_le _, .start root⟩
      | cons _ later =>
          cases leads with
          | step path awaits =>
              obtain ⟨w, rfl | earlier, awaits'⟩ := awaits_before later path.reached awaits
              · exact ⟨n + 1, Nat.le_refl _, path.step awaits'⟩
              · obtain ⟨m, less, path'⟩ := ih earlier path
                exact ⟨m + 1, by omega, path'.step awaits'⟩

/-- A list of flows is what breadth-first search through the await graph finds. -/
structure BreadthFirst (table : FlowTable σ) (root : FlowId) (found : List FlowId) : Prop where
  ends : table.Explores root [root] [] found
  nodup : found.Nodup
  exact : ∀ id, id ∈ found ↔ id ≠ root ∧ TransGen table.Awaits root id
  nearer : (root :: found).Pairwise fun x y =>
    ∀ n, table.Leads n root y → ∃ m, m ≤ n ∧ table.Leads m root x
  listed : found = (((root :: found).flatMap table.dependencies).filter fun id =>
    decide (table.isLive id = true ∧ id ≠ root)).eraseDups

theorem breadthFirst_liveDescendants (table : FlowTable σ) (root : FlowId) :
    table.BreadthFirst root (table.liveDescendants root) where
  ends := explores_liveDescendants table root
  nodup := nodup_liveDescendants table root
  exact _ := mem_liveDescendants
  nearer := List.pairwise_iff_forall_sublist.2 fun ordered _ => leads_before ordered
  listed := by
    have found := liveDescendants_eq table root
    rw [unseen_eq] at found
    simpa using found

theorem fst_tearDown (parent : FlowId) (caller : Option Address) (tick : Tick)
    (nodup : ids.Nodup) (table : FlowTable σ) :
    (tearDown parent caller tick ids table).1 =
      ids.filterMap fun id => (table.live? id).map (·.cancellation parent caller tick) := by
  induction ids generalizing table with
  | nil => rfl
  | cons id ids ih =>
      obtain ⟨new, nodup⟩ := List.nodup_cons.1 nodup
      unfold tearDown
      cases live : table.live? id with
      | none =>
          rw [List.filterMap_cons_none (by simp [live])]
          exact ih nodup table
      | some flow =>
          rw [List.filterMap_cons_some (b := flow.cancellation parent caller tick) (by simp [live])]
          show flow.cancellation parent caller tick :: (tearDown parent caller tick ids _).1 = _
          rw [ih nodup]
          congr 1
          apply List.filterMap_congr
          intro other member
          have distinct : other ≠ id := fun same => new (same ▸ member)
          simp only [live?, find?_put_of_ne table _ distinct]

structure Cascades (before : FlowTable σ) (id parent : FlowId) (caller : Option Address)
    (tick : Tick) (gone : List Cancellation) (after : FlowTable σ) : Prop where
  order : gone.map Cancellation.id = id :: before.liveDescendants id
  records : ∀ entry ∈ gone, after.find? entry.id = some (.cancelled entry) ∧
    ∃ flow, before.live? entry.id = some flow ∧ entry =
      { id := entry.id, name := flow.name, parent, caller, spawnedAt := flow.spawnedAt,
        rootCaller := flow.stack.records.getLast?.bind Record.address?,
        openFrames := flow.stack.openFrames, cancelledAt := tick }
  others : ∀ x, x ∉ gone.map Cancellation.id → after.find? x = before.find? x
  instructions : ∀ x, after.suspended? x =
    if x ∈ gone.map Cancellation.id then none else before.suspended? x
  completed : ∀ x, after.completed? x = before.completed? x
  size : after.phases.size = before.phases.size
  completions : after.completions = before.completions

theorem nodup_tree (table : FlowTable σ) (root : FlowId) :
    (root :: table.liveDescendants root).Nodup :=
  List.nodup_cons.2 ⟨(search_liveDescendants table root).fresh, nodup_liveDescendants table root⟩

theorem exists_live_of_mem_tree (live : table.isLive root = true)
    (member : x ∈ root :: table.liveDescendants root) : ∃ flow, table.live? x = some flow := by
  rcases List.mem_cons.1 member with rfl | found
  · exact isLive_iff.1 live
  · exact isLive_iff.1 (isLive_of_mem_liveDescendants found)

theorem fst_cancelTree (table : FlowTable σ) (root parent : FlowId) (caller : Option Address)
    (tick : Tick) : (table.cancelTree root parent caller tick).1 =
      (root :: table.liveDescendants root).filterMap fun id =>
        (table.live? id).map (·.cancellation parent caller tick) :=
  fst_tearDown parent caller tick (nodup_tree table root) table

theorem order_cancelTree (named : table.Named) (live : table.isLive root = true) (parent : FlowId)
    (caller : Option Address) (tick : Tick) :
    (table.cancelTree root parent caller tick).1.map Cancellation.id =
      root :: table.liveDescendants root := by
  have each : ∀ x ∈ root :: table.liveDescendants root,
      ((table.live? x).map (·.cancellation parent caller tick)).map Cancellation.id = some x := by
    intro x member
    obtain ⟨flow, lives⟩ := exists_live_of_mem_tree live member
    rw [lives]
    exact congrArg some (named x flow lives)
  rw [fst_cancelTree, List.map_filterMap, List.filterMap_congr each, List.filterMap_some]

theorem cancelTree_cases (live : table.isLive root = true) (parent : FlowId)
    (caller : Option Address) (tick : Tick) (x : Nat) :
    (x ∈ root :: table.liveDescendants root ∧ ∃ flow, table.live? x = some flow ∧
      (table.cancelTree root parent caller tick).2.find? x =
        some (.cancelled (flow.cancellation parent caller tick))) ∨
    (x ∉ root :: table.liveDescendants root ∧
      (table.cancelTree root parent caller tick).2.find? x = table.find? x) := by
  by_cases member : x ∈ root :: table.liveDescendants root
  · obtain ⟨flow, lives⟩ := exists_live_of_mem_tree live member
    exact .inl ⟨member, flow, lives, find?_cancelTree_of_reached (mem_tree_iff.1 member) lives⟩
  · exact .inr ⟨member, find?_cancelTree_of_unreached fun path => member (mem_tree_iff.2 path)⟩

theorem cascades_cancelTree (named : table.Named) (live : table.isLive id = true)
    (parent : FlowId) (caller : Option Address) (tick : Tick) :
    table.Cascades id parent caller tick (table.cancelTree id parent caller tick).1
      (table.cancelTree id parent caller tick).2 := by
  have order := order_cancelTree named live parent caller tick
  have phases := cancelTree_cases live parent caller tick
  constructor
  case order => exact order
  case records =>
    intro entry member
    rw [fst_cancelTree] at member
    obtain ⟨x, inside, made⟩ := List.mem_filterMap.1 member
    obtain ⟨flow, lives, rfl⟩ := Option.map_eq_some_iff.1 made
    have own : (flow.cancellation parent caller tick).id = x := named x flow lives
    rw [own]
    refine ⟨find?_cancelTree_of_reached (mem_tree_iff.1 inside) lives, flow, lives, ?_⟩
    rw [← own]
    rfl
  case others =>
    intro x apart
    rw [order] at apart
    exact ((phases x).resolve_left fun reached => apart reached.1).2
  case instructions =>
    intro x
    rw [order]
    rcases phases x with ⟨member, flow, -, cancelled⟩ | ⟨apart, same⟩
    · rw [if_pos member, suspended?, cancelled]
    · rw [if_neg apart, suspended?, suspended?, same]
  case completed =>
    intro x
    rcases phases x with ⟨-, flow, lives, cancelled⟩ | ⟨-, same⟩
    · rw [FlowTable.completed?, FlowTable.completed?, cancelled]
      rcases live?_eq_some.1 lives with found | ⟨wait, found⟩
      · rw [found]
      · rw [found]
    · rw [FlowTable.completed?, FlowTable.completed?, same]
  case size => exact size_tearDown ..
  case completions => exact completions_tearDown ..

/--
Cancelling cascades exactly. Whatever operations a table has gone through, the search from a flow is
breadth-first, and cancelling a flow either fails and changes nothing, if the flow is not live, or it
cancels the flow and what the search from it finds, in this order, and nothing else.
-/
theorem cancelling_cascades (changes : List (Change σ)) (id parent : FlowId)
    (caller : Option Address) (tick : Tick) :
    (∀ root, (ledger changes).table.BreadthFirst root ((ledger changes).table.liveDescendants root)) ∧
      match cancel id parent caller tick (ledger changes).table with
      | .ok gone after => (ledger changes).table.isLive id = true ∧
          (ledger changes).table.Cascades id parent caller tick gone after
      | .error e after => (ledger changes).table.isLive id = false ∧ e = .cancelNotAlive id ∧
          after = (ledger changes).table := by
  constructor
  · exact breadthFirst_liveDescendants (ledger changes).table
  · unfold cancel
    by_cases live : (ledger changes).table.isLive id = true
    · rw [if_pos live]
      exact ⟨live, cascades_cancelTree (named_ledger changes) live parent caller tick⟩
    · rw [if_neg live]
      exact ⟨Bool.eq_false_iff.2 live, rfl, rfl⟩

/--
Flows 1 and 3 wait for each other. Both wait for flow 2, which waits for itself, for flow 5 and for a
flow that does not exist. Flow 3 also waits for flow 4, which has completed.
-/
def knot : List (Change Unit) :=
  let start : Change Unit := .create ⟨"flow", [], ()⟩ none false 0
  let on (ids : List FlowId) : Wait := ⟨.all, ⟨"object", 0⟩, true, ids, 0⟩
  [start, start, start, start, start, start, .suspend 1 (on [3, 2, 3]) 0, .suspend 2 (on [2, 9, 5]) 0,
    .complete 4 .null none 0, .suspend 3 (on [1, 4, 2]) 0, .suspend 6 (on [1]) 0]

example : (ledger knot).table.liveDescendants 1 = [3, 2, 5] := by decide

end Cadence.FlowTable
