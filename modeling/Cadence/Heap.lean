import Cadence.Json.Text
import Cadence.Digest.Md5
import Cadence.Error
/-!
The heap of simulated objects. An object's address is the hash of its content followed by a salt,
which counts the allocations with that hash, so equal objects get distinct and reproducible
addresses. Beside the objects the heap keeps a table from method locations to node ids.
-/

namespace Cadence

structure Address where
  object : String
  offset : Nat
  deriving DecidableEq

def Address.location (address : Address) : String :=
  address.object ++ "." ++ toString address.offset

structure Object where
  className : String
  fields : Fields Json

namespace Object

/-- The text that is hashed: the class name and, right behind it, the fields as compact JSON. -/
def hashedText (object : Object) : String :=
  object.className ++ (Json.obj object.fields).compact

def contentHash (object : Object) : String :=
  Md5.hex object.hashedText.toUTF8.toList

end Object

/-- The registered objects, the latest first, the allocations per hash, and the node ids. -/
structure Heap where
  objects : List (String × Object) := []
  salts : Fields Nat := []
  nodes : Fields String := []

namespace Heap

def empty : Heap := {}

def allocateHash (heap : Heap) (hash : String) : String × Heap :=
  let salt := (heap.salts.find? hash).getD 0 + 1
  (hash ++ "_" ++ toString salt, { heap with salts := heap.salts.insert hash salt })

def allocateBy (hash : Object → String) (heap : Heap) (object : Object) : String × Heap :=
  heap.allocateHash (hash object)

def registerBy (hash : Object → String) (heap : Heap) (object : Object) : String × Heap :=
  let (address, heap) := heap.allocateBy hash object
  (address, { heap with objects := (address, object) :: heap.objects })

def allocate (heap : Heap) (object : Object) : String × Heap :=
  heap.allocateBy Object.contentHash object

def register (heap : Heap) (object : Object) : String × Heap :=
  heap.registerBy Object.contentHash object

def get? (heap : Heap) (address : String) : Option Object :=
  heap.objects.lookup address

def toList (heap : Heap) : List (String × Object) :=
  heap.objects.reverse

def size (heap : Heap) : Nat :=
  heap.objects.length

/-- The node id of a method location; a location that was never registered is a page fault. -/
def nodeAt (heap : Heap) (address : Address) : Except EngineError String :=
  match heap.nodes.find? address.location with
  | some node => .ok node
  | none => .error (.pageFault address.location)

def hasNode (heap : Heap) (address : Address) : Bool :=
  (heap.nodes.find? address.location).isSome

def setNode (heap : Heap) (address : Address) (node : String) : Heap :=
  { heap with nodes := heap.nodes.insert address.location node }

def reset (heap : Heap) : Heap :=
  { heap with objects := [], salts := [], nodes := [] }

@[simp] theorem reset_eq (heap : Heap) : heap.reset = empty := rfl

end Heap

end Cadence
