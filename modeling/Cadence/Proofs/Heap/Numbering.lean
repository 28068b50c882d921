import Cadence.Heap
import Mathlib.Data.List.Basic
/-!
# Numbered names

Addresses and method locations end in a number behind a separator. No separator is a digit, so
both parts of such a name can be read back, whatever the text in front of it looks like.
-/

namespace Cadence

theorem isDigit_of_mem_toString {n : Nat} {c : Char} (member : c ∈ (toString n).toList) :
    c.isDigit = true := by
  rw [Nat.toString_eq_repr, Nat.toList_repr] at member
  exact Nat.isDigit_of_mem_toDigits (by decide) (by decide) member

theorem append_cons_inj {α : Type} {front front' back back' : List α} {separator : α}
    (last : separator ∉ back) (last' : separator ∉ back')
    (same : front ++ separator :: back = front' ++ separator :: back') :
    front = front' ∧ back = back' := by
  rcases List.append_eq_append_iff.1 same with ⟨between, rfl, rest⟩ | ⟨between, rfl, rest⟩
  · cases between with
    | nil => simpa using rest
    | cons first between =>
        obtain ⟨-, rfl⟩ := List.cons.inj rest
        simp at last
  · cases between with
    | nil => simpa [eq_comm] using rest
    | cons first between =>
        obtain ⟨-, rfl⟩ := List.cons.inj rest
        simp at last'

theorem toString_inj {n n' : Nat} (same : toString n = toString n') : n = n' := by
  have digits := congrArg String.toList same
  simp only [Nat.toString_eq_repr, Nat.toList_repr] at digits
  simpa using congrArg (Nat.ofDigitChars 10 · 0) digits

theorem numbered_inj {front front' separator : String} {n n' : Nat} {c : Char}
    (single : separator.toList = [c]) (plain : c.isDigit = false)
    (same : front ++ separator ++ toString n = front' ++ separator ++ toString n') :
    front = front' ∧ n = n' := by
  have last (k : Nat) : c ∉ (toString k).toList := fun member => by
    simp [isDigit_of_mem_toString member] at plain
  have same := congrArg String.toList same
  simp only [String.toList_append, single, List.append_assoc, List.singleton_append] at same
  obtain ⟨fronts, numbers⟩ := append_cons_inj (last n) (last n') same
  exact ⟨String.toList_inj.1 fronts, toString_inj (String.toList_inj.1 numbers)⟩

theorem Address.location_inj {address other : Address} :
    address.location = other.location ↔ address = other := by
  constructor
  · intro same
    obtain ⟨object, offset⟩ := numbered_inj (c := '.') rfl rfl same
    cases address
    cases other
    simp_all
  · exact congrArg location

end Cadence
