import Cadence.Yaml.Node
/-!
Following the aliases of a document. An alias may stand inside the node that it leads to, and so
lead in a circle; therefore only a bounded number of aliases is followed.
-/

namespace Cadence.Yaml

namespace Node

mutual

def targets : Node → List (Nat × Node)
  | scalar _ _ | aliasOf _ => []
  | seq items => targetsOfItems items
  | map entries => targetsOfEntries entries
  | tagged _ node => targets node
  | anchored number node => (number, node) :: targets node

def targetsOfItems : List Node → List (Nat × Node)
  | [] => []
  | item :: items => targets item ++ targetsOfItems items

def targetsOfEntries : List (Node × Node) → List (Nat × Node)
  | [] => []
  | (key, value) :: entries => targets key ++ targets value ++ targetsOfEntries entries

end

mutual

def size : Node → Nat
  | scalar _ _ | aliasOf _ => 1
  | seq items => sizeOfItems items + 2
  | map entries => sizeOfEntries entries + 2
  | tagged _ node | anchored _ node => size node

def sizeOfItems : List Node → Nat
  | [] => 0
  | item :: items => size item + sizeOfItems items

def sizeOfEntries : List (Node × Node) → Nat
  | [] => 0
  | (key, value) :: entries => size key + size value + sizeOfEntries entries

end

def content : Node → Option Tag × Node
  | anchored _ node => node.content
  | tagged tag node => (some tag, node)
  | node => (none, node)

end Node

/-- Visiting a document; the state is how many aliases may still be followed. -/
abbrev Visit := StateT Nat Option

def Node.visit (targets : List (Nat × Node)) (node : Node) : Visit (Option Tag × Node) := do
  match node with
  | .aliasOf number =>
    let left ← get
    if left = 0 then failure
    set (left - 1)
    return (← targets.lookup number).content
  | _ => return node.content

end Cadence.Yaml
