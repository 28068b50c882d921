import Cadence.Flow.Stack
/-!
What changing the top record of a stack leaves as it was.
-/

namespace Cadence

@[simp] theorem Record.frame?_push (record : Record) (operation : Operation) :
    (record.push operation).frame? = record.frame? := rfl

@[simp] theorem Record.address?_push (record : Record) (operation : Operation) :
    (record.push operation).address? = record.address? := rfl

theorem Record.address?_of_frame? {record : Record} {address : Address}
    (framed : record.frame? = some address) : record.address? = some address := by
  unfold frame? at framed
  unfold address?
  cases place : record.place with
  | entry caller => simp [place] at framed
  | frame current => simpa [place] using framed

namespace Stack

theorem modify_top {stack : Stack} {top : Record} {below : List Record}
    (records : stack.records = top :: below) (change : Record → Record) :
    stack.modify 0 change = .ok { stack with records := change top :: below } := by
  simp [modify, records]

theorem modify_top_ok {stack changed : Stack} {change : Record → Record}
    (done : stack.modify 0 change = .ok changed) :
    ∃ top below, stack.records = top :: below ∧
      changed = { stack with records := change top :: below } := by
  cases records : stack.records with
  | nil => simp [modify, records] at done
  | cons top below =>
      rw [modify_top records] at done
      exact ⟨top, below, rfl, (Except.ok.inj done).symm⟩

end Stack

end Cadence
