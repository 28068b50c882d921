import Cadence.Fields
import Mathlib.Data.String.Basic
import Mathlib.Tactic.Tauto
/-!
Fields in the order of their keys: what is found in them, and what inserting an entry changes.
-/

namespace Cadence.Fields

variable {α : Type} {fields : Fields α} {key : String} {value : α}

theorem find?_isSome_iff {name : String} : (fields.find? name).isSome ↔ name ∈ fields.keys := by
  induction fields with
  | nil => simp [keys]
  | cons entry rest ih =>
      obtain ⟨key, value⟩ := entry
      rw [find?_cons]
      by_cases same : name = key
      · simp [same, keys]
      · simpa [same, keys] using ih

theorem mem_keys_insert {other : String} :
    other ∈ (fields.insert key value).keys ↔ other = key ∨ other ∈ fields.keys := by
  induction fields with
  | nil => simp [insert, keys]
  | cons entry rest ih =>
      obtain ⟨k, v⟩ := entry
      unfold insert
      split
      next same => simp [keys, same]
      next distinct =>
        split
        · simp [keys]
        · simp only [keys, List.map_cons, List.mem_cons] at ih ⊢
          rw [ih]
          tauto

def Sorted (fields : Fields α) : Prop :=
  fields.keys.Pairwise (· < ·)

theorem sorted_nil : Sorted ([] : Fields α) := .nil

theorem mem_insert {entry : String × α} (member : entry ∈ fields.insert key value) :
    entry = (key, value) ∨ entry ∈ fields := by
  induction fields with
  | nil => exact .inl (List.mem_singleton.1 member)
  | cons first rest ih =>
      unfold insert at member
      split at member
      · rcases List.mem_cons.1 member with new | old
        · exact .inl new
        · exact .inr (List.mem_cons_of_mem _ old)
      · split at member
        · exact List.mem_cons.1 member
        · rcases List.mem_cons.1 member with same | member
          · exact .inr (same ▸ List.mem_cons_self)
          · exact (ih member).imp_right (List.mem_cons_of_mem _)

theorem Sorted.insert (sorted : fields.Sorted) (key : String) (value : α) :
    (fields.insert key value).Sorted := by
  induction fields with
  | nil => exact List.pairwise_singleton ..
  | cons first rest ih =>
      obtain ⟨ahead, sorted'⟩ := List.pairwise_cons.1 sorted
      unfold Fields.insert
      split
      next same => exact List.pairwise_cons.2 ⟨same ▸ ahead, sorted'⟩
      next apart =>
        split
        next earlier =>
          apply List.pairwise_cons.2 ⟨_, sorted⟩
          intro other member
          rcases List.mem_cons.1 member with rfl | member
          · exact earlier
          · exact lt_trans earlier (ahead other member)
        next notEarlier =>
          apply List.pairwise_cons.2 ⟨_, ih sorted'⟩
          intro other member
          rcases mem_keys_insert.1 member with rfl | member
          · exact lt_of_le_of_ne (not_lt.1 notEarlier) (Ne.symm apart)
          · exact ahead other member

end Cadence.Fields
