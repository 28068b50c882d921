import Cadence.Effect
import Mathlib.Data.Finset.Card
import Mathlib.Data.List.Induction
/-!
# Smallest enclosing effects

A node is looked for by halving, which finds it exactly where it is listed, as the nodes of an effect
are kept in order. So after any registrations a node is affected by the smallest of the effects that
list it, and of equally small ones by the one whose id came first.
-/

namespace Cadence

namespace Nodes

variable {nodes : Array String} {node other : String} {place later : Nat}

theorem lt_of_places (increasing : nodes.toList.Pairwise (· < ·)) (ahead : place < later)
    (here : nodes[place]? = some node) (there : nodes[later]? = some other) : node < other := by
  obtain ⟨inside, rfl⟩ := Array.getElem?_eq_some_iff.1 here
  obtain ⟨inside', rfl⟩ := Array.getElem?_eq_some_iff.1 there
  exact List.pairwise_iff_getElem.1 increasing place later inside inside' ahead

theorem search_iff (increasing : nodes.toList.Pairwise (· < ·)) (node : String) {low high : Nat}
    (within : high ≤ nodes.size) : search nodes node low high = true ↔
      ∃ place, low ≤ place ∧ place < high ∧ nodes[place]? = some node := by
  fun_induction search nodes node low high with
  | case1 low high some middle missing =>
      have inside : middle < nodes.size := by omega
      simp [inside] at missing
  | case2 low high some middle found =>
      exact iff_of_true rfl ⟨middle, by omega, by omega, found⟩
  | case3 low high some middle there found apart before ih =>
      rw [ih within]
      constructor
      · rintro ⟨place, above, below, here⟩
        exact ⟨place, by omega, below, here⟩
      · rintro ⟨place, above, below, here⟩
        refine ⟨place, ?_, below, here⟩
        by_contra early
        rcases Nat.lt_or_eq_of_le (by omega : place ≤ middle) with ahead | same
        · exact String.lt_asymm before (lt_of_places increasing ahead here found)
        · rw [same, found] at here
          exact apart (Option.some.inj here)
  | case4 low high some middle there found apart after ih =>
      rw [ih (by omega)]
      constructor
      · rintro ⟨place, above, below, here⟩
        exact ⟨place, above, by omega, here⟩
      · rintro ⟨place, above, below, here⟩
        refine ⟨place, above, ?_, here⟩
        by_contra late
        rcases Nat.lt_or_eq_of_le (by omega : middle ≤ place) with behind | same
        · exact after (lt_of_places increasing behind found here)
        · rw [← same, found] at here
          exact apart (Option.some.inj here)
  | case5 low high none =>
      simp only [Bool.false_eq_true, false_iff]
      rintro ⟨place, above, below, -⟩
      omega

theorem mem_ofList {nodes : List String} : node ∈ ofList nodes ↔ node ∈ nodes := by
  rw [ofList, List.mem_toArray]
  induction nodes with
  | nil => rfl
  | cons first rest ih => rw [List.foldr_cons, mem_insert, ih, List.mem_cons]

theorem size_ofList (nodes : List String) : (ofList nodes).size = nodes.toFinset.card := by
  have once : (ofList nodes).toList.Nodup := by
    apply (increasing_ofList nodes).imp
    intro node other ahead same
    exact String.lt_irrefl other (same ▸ ahead)
  have same : (ofList nodes).toList.toFinset = nodes.toFinset := by
    ext node
    rw [List.mem_toFinset, Array.mem_toList_iff, mem_ofList, List.mem_toFinset]
  rw [← same, List.toFinset_card_of_nodup once]
  rfl

end Nodes

theorem Effect.lists_iff {effect : Effect} {node : String} :
    effect.lists node = true ↔ node ∈ effect.nodes := by
  rw [lists, Nodes.search_iff effect.increasing node le_rfl, Array.mem_iff_getElem?]
  constructor
  · rintro ⟨place, -, -, here⟩
    exact ⟨place, here⟩
  · rintro ⟨place, here⟩
    obtain ⟨inside, -⟩ := Array.getElem?_eq_some_iff.1 here
    exact ⟨place, Nat.zero_le place, inside, here⟩

theorem Effect.lists_ofNodes {id node : String} {nodes : List String} :
    (ofNodes id nodes).lists node = true ↔ node ∈ nodes :=
  lists_iff.trans Nodes.mem_ofList

namespace EffectTable

variable {effects : List Effect} {effect : Effect}

theorem smallest?_eq_none : smallest? effects = none ↔ effects = [] := by
  cases effects with
  | nil => simp [smallest?]
  | cons first rest =>
      unfold smallest?
      cases smallest? rest with
      | none => simp
      | some other => by_cases smaller : other.nodes.size < first.nodes.size <;> simp [smaller]

theorem smallest?_eq_some (found : smallest? effects = some effect) :
    ∃ before after, effects = before ++ effect :: after ∧
      (∀ other ∈ before, effect.nodes.size < other.nodes.size) ∧
      ∀ other ∈ after, effect.nodes.size ≤ other.nodes.size := by
  induction effects generalizing effect with
  | nil => cases found
  | cons first rest ih =>
      unfold smallest? at found
      cases least : smallest? rest with
      | none =>
          rw [least] at found
          obtain rfl := Option.some.inj found
          exact ⟨[], rest, rfl, by simp, by simp [smallest?_eq_none.1 least]⟩
      | some other =>
          obtain ⟨before, after, rfl, larger, noSmaller⟩ := ih least
          simp only [least] at found
          split at found
          next smaller =>
            obtain rfl := Option.some.inj found
            exact ⟨first :: before, after, rfl, List.forall_mem_cons.2 ⟨smaller, larger⟩, noSmaller⟩
          next notSmaller =>
            obtain rfl := Option.some.inj found
            have bound : first.nodes.size ≤ other.nodes.size := Nat.le_of_not_lt notSmaller
            refine ⟨[], _, rfl, by simp, fun one member => ?_⟩
            rcases List.mem_append.1 member with front | back
            · exact bound.trans (larger one front).le
            · rcases List.mem_cons.1 back with rfl | behind
              · exact bound
              · exact bound.trans (noSmaller one behind)

structure Registration where
  id : String
  nodes : List String

def registered (registrations : List Registration) : EffectTable :=
  registrations.foldl (fun table made => table.register made.id made.nodes) empty

def latest? (registrations : List Registration) (id : String) : Option (List String) :=
  (registrations.reverse.find? (·.id = id)).map Registration.nodes

def Lists (registrations : List Registration) (id node : String) : Prop :=
  ∃ nodes, latest? registrations id = some nodes ∧ node ∈ nodes

def extent (registrations : List Registration) (id : String) : Nat :=
  ((latest? registrations id).getD []).toFinset.card

def rank (registrations : List Registration) (id : String) : Nat :=
  (registrations.map Registration.id).idxOf id

structure Reflects (registrations : List Registration) (table : EffectTable) : Prop where
  complete : ∀ id nodes, latest? registrations id = some nodes →
    Effect.ofNodes id nodes ∈ table.effects
  latest : ∀ effect ∈ table.effects, ∃ nodes, latest? registrations effect.id = some nodes ∧
    effect = Effect.ofNodes effect.id nodes
  ordered : table.effects.Pairwise fun effect other =>
    rank registrations effect.id < rank registrations other.id

variable {registrations : List Registration} {table : EffectTable} {id node : String}

theorem latest?_concat (made : Registration) (id : String) :
    latest? (registrations ++ [made]) id =
      if made.id = id then some made.nodes else latest? registrations id := by
  by_cases same : made.id = id <;> simp [latest?, same]

theorem exists_latest? : (∃ nodes, latest? registrations id = some nodes) ↔
    id ∈ registrations.map Registration.id := by
  rw [← Option.isSome_iff_exists, latest?, Option.isSome_map, List.find?_isSome]
  simp

theorem rank_concat {made : Registration} (known : id ∈ registrations.map Registration.id) :
    rank (registrations ++ [made]) id = rank registrations id := by
  rw [rank, List.map_append, List.idxOf_append_of_mem known]
  rfl

theorem rank_lt_concat {made : Registration} (known : id ∈ registrations.map Registration.id)
    (fresh : made.id ∉ registrations.map Registration.id) :
    rank registrations id < rank (registrations ++ [made]) made.id := by
  rw [rank, rank, List.map_append, List.idxOf_append_of_notMem fresh]
  exact Nat.lt_add_right _ (List.idxOf_lt_length_iff.2 known)

theorem Reflects.ranked (reflects : Reflects registrations table) {effect : Effect}
    (member : effect ∈ table.effects) : effect.id ∈ registrations.map Registration.id := by
  obtain ⟨nodes, known, -⟩ := reflects.latest effect member
  exact exists_latest?.1 ⟨nodes, known⟩

theorem reflects_nil : Reflects [] empty where
  complete id nodes known := by cases known
  latest effect member := by cases member
  ordered := .nil

theorem Reflects.renew (reflects : Reflects registrations table) {made : Registration}
    (again : table.effects.any (·.id = made.id) = true) :
    Reflects (registrations ++ [made]) (table.register made.id made.nodes) := by
  let fresh := Effect.ofNodes made.id made.nodes
  have renewed : (table.register made.id made.nodes).effects =
      table.effects.map fun old => if old.id = made.id then fresh else old := by
    simp only [EffectTable.register, if_pos again]
    rfl
  have same (old : Effect) : (if old.id = made.id then fresh else old).id = old.id := by
    split
    next own => exact own.symm
    next => rfl
  constructor
  · intro id nodes known
    rw [renewed, List.mem_map]
    rw [latest?_concat] at known
    split at known
    next own =>
      subst own
      obtain rfl := Option.some.inj known
      obtain ⟨old, member, own⟩ := List.any_eq_true.1 again
      exact ⟨old, member, if_pos (by simpa using own)⟩
    next other => exact ⟨_, reflects.complete id nodes known, if_neg (Ne.symm other)⟩
  · intro effect member
    rw [renewed, List.mem_map] at member
    obtain ⟨old, member, rfl⟩ := member
    rw [same, latest?_concat]
    by_cases own : old.id = made.id
    · exact ⟨made.nodes, if_pos own.symm, by rw [if_pos own, own]⟩
    · rw [if_neg own, if_neg (Ne.symm own)]
      exact reflects.latest old member
  · rw [renewed, List.pairwise_map]
    apply reflects.ordered.imp_of_mem
    intro effect other member member' ahead
    rwa [same, same, rank_concat (reflects.ranked member), rank_concat (reflects.ranked member')]

theorem Reflects.add (reflects : Reflects registrations table) {made : Registration}
    (new : ¬ table.effects.any (·.id = made.id) = true) :
    Reflects (registrations ++ [made]) (table.register made.id made.nodes) := by
  have longer : (table.register made.id made.nodes).effects =
      table.effects ++ [Effect.ofNodes made.id made.nodes] := by
    simp only [EffectTable.register, if_neg new]
  have apart : ∀ old ∈ table.effects, old.id ≠ made.id := by simpa using new
  have unknown : made.id ∉ registrations.map Registration.id := by
    intro known
    obtain ⟨nodes, latest⟩ := exists_latest?.2 known
    exact apart _ (reflects.complete _ nodes latest) rfl
  constructor
  · intro id nodes known
    rw [longer, List.mem_append, List.mem_singleton]
    rw [latest?_concat] at known
    split at known
    next own =>
      obtain rfl := Option.some.inj known
      exact .inr (by rw [own])
    next => exact .inl (reflects.complete id nodes known)
  · intro effect member
    rw [longer, List.mem_append, List.mem_singleton] at member
    rw [latest?_concat]
    cases member with
    | inl old =>
        rw [if_neg (Ne.symm (apart effect old))]
        exact reflects.latest effect old
    | inr last =>
        subst last
        exact ⟨made.nodes, if_pos rfl, rfl⟩
  · rw [longer, List.pairwise_append]
    refine ⟨?_, List.pairwise_singleton .., fun effect old last behind => ?_⟩
    · apply reflects.ordered.imp_of_mem
      intro effect other member member' ahead
      rwa [rank_concat (reflects.ranked member), rank_concat (reflects.ranked member')]
    · obtain rfl := List.mem_singleton.1 behind
      rw [rank_concat (reflects.ranked old)]
      exact rank_lt_concat (reflects.ranked old) unknown

theorem reflects_registered (registrations : List Registration) :
    Reflects registrations (registered registrations) := by
  induction registrations using List.reverseRecOn with
  | nil => exact reflects_nil
  | append_singleton registrations made ih =>
      have last : registered (registrations ++ [made]) =
          (registered registrations).register made.id made.nodes := by
        simp [registered]
      rw [last]
      by_cases again : (registered registrations).effects.any (·.id = made.id) = true
      · exact ih.renew again
      · exact ih.add again

/-- The first one encloses less than the second one or, of the same extent, came first. -/
def Closer (registrations : List Registration) (id other : String) : Prop :=
  extent registrations id < extent registrations other ∨
    extent registrations id = extent registrations other ∧
      rank registrations id < rank registrations other

theorem Closer.asymm {other : String} (closer : Closer registrations id other) :
    ¬ Closer registrations other id := by
  unfold Closer at *
  omega

theorem Reflects.extent (reflects : Reflects registrations table) {effect : Effect}
    (member : effect ∈ table.effects) :
    EffectTable.extent registrations effect.id = effect.nodes.size := by
  obtain ⟨nodes, known, same⟩ := reflects.latest effect member
  rw [EffectTable.extent, known, same]
  exact (Nodes.size_ofList nodes).symm

theorem Reflects.lists_iff (reflects : Reflects registrations table) :
    Lists registrations id node ↔
      ∃ effect ∈ table.effects.filter (·.lists node), effect.id = id := by
  simp only [List.mem_filter, and_assoc]
  constructor
  · rintro ⟨nodes, known, listed⟩
    exact ⟨_, reflects.complete id nodes known, Effect.lists_ofNodes.2 listed, rfl⟩
  · rintro ⟨effect, member, listed, rfl⟩
    obtain ⟨nodes, known, same⟩ := reflects.latest effect member
    rw [same, Effect.lists_ofNodes] at listed
    exact ⟨nodes, known, listed⟩

theorem Reflects.affecting?_eq_none (reflects : Reflects registrations table) :
    table.affecting? node = none ↔ ∀ id, ¬ Lists registrations id node := by
  rw [affecting?, Option.map_eq_none_iff, smallest?_eq_none, List.eq_nil_iff_forall_not_mem]
  constructor
  · intro none id listed
    obtain ⟨effect, member, -⟩ := reflects.lists_iff.1 listed
    exact none effect member
  · intro none effect member
    exact none effect.id (reflects.lists_iff.2 ⟨effect, member, rfl⟩)

theorem Reflects.closest (reflects : Reflects registrations table)
    (affects : table.affecting? node = some id) : Lists registrations id node ∧
      ∀ other, Lists registrations other node → other ≠ id → Closer registrations id other := by
  obtain ⟨effect, least, rfl⟩ := Option.map_eq_some_iff.1 affects
  obtain ⟨before, after, split, larger, noSmaller⟩ := smallest?_eq_some least
  have inside : ∀ one ∈ before ++ effect :: after, one ∈ table.effects := fun one member =>
    List.mem_of_mem_filter (split ▸ member)
  have ordered := reflects.ordered.filter (·.lists node)
  rw [split] at ordered
  constructor
  · exact reflects.lists_iff.2 ⟨effect, by simp [split], rfl⟩
  · intro other listed apart
    obtain ⟨one, member, rfl⟩ := reflects.lists_iff.1 listed
    rw [split] at member
    unfold Closer
    rw [reflects.extent (inside effect (by simp)), reflects.extent (inside one member)]
    rcases List.mem_append.1 member with front | back
    · exact .inl (larger one front)
    · rcases List.mem_cons.1 back with rfl | behind
      · exact absurd rfl apart
      · have first := List.rel_of_pairwise_cons (List.pairwise_append.1 ordered).2.1 behind
        exact (Nat.lt_or_eq_of_le (noSmaller one behind)).imp_right fun same => ⟨same, first⟩

/-- A node is affected by no effect where none lists it, and else by the one of the smallest extent
that does. Of several the one whose id was registered first takes precedence. -/
theorem smallest_effect_takes_precedence (registrations : List Registration) (node : String) :
    ((registered registrations).affecting? node = none ↔ ∀ id, ¬ Lists registrations id node) ∧
    ∀ id, (registered registrations).affecting? node = some id ↔ Lists registrations id node ∧
      ∀ other, Lists registrations other node → other ≠ id → Closer registrations id other := by
  have reflects := reflects_registered registrations
  refine ⟨reflects.affecting?_eq_none, fun id => ⟨reflects.closest, fun ⟨listed, closest⟩ => ?_⟩⟩
  cases affecting : (registered registrations).affecting? node with
  | none => exact absurd listed (reflects.affecting?_eq_none.1 affecting id)
  | some other =>
      obtain ⟨listed', closest'⟩ := reflects.closest affecting
      by_contra differs
      have apart : other ≠ id := fun same => differs (congrArg _ same)
      exact (closest other listed' apart).asymm (closest' id listed (Ne.symm apart))

example : (registered [⟨"outer", ["a", "b", "c"]⟩, ⟨"first", ["x"]⟩, ⟨"second", ["c", "a", "c"]⟩,
    ⟨"first", ["b", "a", "b"]⟩]).affecting? "a" = some "first" := by decide +kernel

end EffectTable

end Cadence
