import Cadence.Traffic
/-!
Collapsed effects. An effect is a named set of nodes; traffic whose addresses all belong to one
effect is held back in a store until it is asked for.
-/

namespace Cadence

namespace Nodes

def insert (node : String) : List String → List String
  | [] => [node]
  | first :: rest =>
    if node = first then first :: rest
    else if node < first then node :: first :: rest
    else first :: insert node rest

def ofList (nodes : List String) : Array String :=
  (nodes.foldr insert []).toArray

def search (nodes : Array String) (node : String) (low high : Nat) : Bool :=
  if low < high then
    let middle := low + (high - low) / 2
    match nodes[middle]? with
    | none => false
    | some there =>
      if there = node then true
      else if there < node then search nodes node (middle + 1) high
      else search nodes node low middle
  else false
termination_by high - low

theorem mem_insert {node other : String} {nodes : List String} :
    other ∈ insert node nodes ↔ other = node ∨ other ∈ nodes := by
  induction nodes with
  | nil => simp [insert]
  | cons first rest ih =>
    by_cases same : node = first
    · simp [insert, same]
    · by_cases before : node < first
      · simp [insert, same, before]
      · simp only [insert, if_neg same, if_neg before, List.mem_cons, ih]
        exact or_left_comm

theorem increasing_insert {nodes : List String} (increasing : nodes.Pairwise (· < ·))
    (node : String) : (insert node nodes).Pairwise (· < ·) := by
  induction nodes with
  | nil => exact List.pairwise_singleton ..
  | cons first rest ih =>
    obtain ⟨ahead, later⟩ := List.pairwise_cons.1 increasing
    by_cases same : node = first
    · simpa [insert, same] using increasing
    · by_cases before : node < first
      · rw [insert, if_neg same, if_pos before]
        apply List.pairwise_cons.2 ⟨_, increasing⟩
        intro other member
        cases List.mem_cons.1 member with
        | inl here => exact here ▸ before
        | inr behind => exact String.lt_trans before (ahead other behind)
      · have after : first < node := Std.lt_of_le_of_ne (String.not_lt.1 before) (Ne.symm same)
        rw [insert, if_neg same, if_neg before]
        apply List.pairwise_cons.2 ⟨_, ih later⟩
        intro other member
        cases mem_insert.1 member with
        | inl new => exact new ▸ after
        | inr behind => exact ahead other behind

theorem increasing_ofList (nodes : List String) : (ofList nodes).toList.Pairwise (· < ·) := by
  unfold ofList
  induction nodes with
  | nil => exact .nil
  | cons node nodes ih => exact increasing_insert ih node

end Nodes

structure Effect where
  id : String
  nodes : Array String
  increasing : nodes.toList.Pairwise (· < ·)

namespace Effect

def ofNodes (id : String) (nodes : List String) : Effect :=
  ⟨id, Nodes.ofList nodes, Nodes.increasing_ofList nodes⟩

def lists (effect : Effect) (node : String) : Bool :=
  Nodes.search effect.nodes node 0 effect.nodes.size

end Effect

structure EffectTable where
  effects : List Effect := []

namespace EffectTable

def empty : EffectTable := {}

def isEmpty (table : EffectTable) : Bool :=
  table.effects.isEmpty

/-- Registers an effect; a later registration under the same id takes the place of the first. -/
def register (table : EffectTable) (id : String) (nodes : List String) : EffectTable :=
  let effect := Effect.ofNodes id nodes
  if table.effects.any (·.id = id) then
    { effects := table.effects.map fun old => if old.id = id then effect else old }
  else { effects := table.effects ++ [effect] }

def smallest? : List Effect → Option Effect
  | [] => none
  | effect :: rest =>
    match smallest? rest with
    | none => some effect
    | some other => if other.nodes.size < effect.nodes.size then some other else some effect

/-- The smallest effect that lists a node, of equally small ones the first registered. -/
def affecting? (table : EffectTable) (node : String) : Option String :=
  (smallest? (table.effects.filter (·.lists node))).map Effect.id

/-- Whether all addresses are affected by one effect, which is `shared` if that is known. -/
def encloses (table : EffectTable) (heap : Heap) (shared : Option String) :
    List Address → Except EngineError Bool
  | [] => .ok shared.isSome
  | address :: rest => do
    let node ← heap.nodeAt address
    match table.affecting? node with
    | none => return false
    | some effect =>
      if shared.any (· ≠ effect) then return false
      else encloses table heap (some effect) rest

def isInternal (table : EffectTable) (heap : Heap) (responses : List Response) :
    Except EngineError Bool :=
  if table.isEmpty ∨ responses.isEmpty then .ok false
  else table.encloses heap none (responses.flatMap fun response => response.traffic.addresses)

end EffectTable

/-- The results held back so far, one report per tick, the oldest first. -/
structure ReplayStore where
  held : List TickReport := []

namespace ReplayStore

def empty : ReplayStore := {}

def mark (report : TickReport) : TickReport :=
  { report with reports := report.reports.map Report.markAutoPop }

def hold (store : ReplayStore) (tick : Tick) (result : Report) : ReplayStore :=
  match store.held.getLast? with
  | some last =>
    if last.tick = tick then
      { held := store.held.dropLast ++ [mark { last with reports := last.reports ++ [result] }] }
    else { held := store.held ++ [mark { tick, reports := [result] }] }
  | none => { held := [mark { tick, reports := [result] }] }

end ReplayStore

end Cadence
