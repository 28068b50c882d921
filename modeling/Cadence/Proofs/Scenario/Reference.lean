import Cadence.Scenario.Reference
/-!
References in values, without the recursions that collect them.
-/

namespace Cadence.Json

theorem reference?_eq_some {text name : String} :
    reference? text = some name ↔ text = "$" ++ name := by
  rw [← String.toList_inj, String.toList_append]
  unfold reference?
  split
  next rest chars => simp [chars, ← String.toList_inj, eq_comm]
  next other => exact ⟨nofun, fun chars => (other name.toList chars).elim⟩

theorem references_text {text : String} (plain : ∀ name, text ≠ "$" ++ name) :
    references (.str text) = [] := by
  have none : reference? text = none :=
    Option.eq_none_iff_forall_ne_some.2 fun name refers => plain name (reference?_eq_some.1 refers)
  rw [references, none, Option.toList_none]

theorem itemReferences_eq (items : List Json) :
    itemReferences items = items.flatMap references := by
  induction items with
  | nil => rfl
  | cons item items ih => simp [itemReferences, ih]

theorem entryReferences_eq (entries : List (String × Json)) :
    entryReferences entries = entries.flatMap fun entry => entry.2.references := by
  induction entries with
  | nil => rfl
  | cons entry entries ih => simp [entryReferences, ih]

theorem references_arr (items : List Json) :
    references (.arr items) = items.flatMap references := by
  rw [references, itemReferences_eq]

theorem references_obj (entries : List (String × Json)) :
    references (.obj entries) = (entries.map Prod.snd).flatMap references := by
  rw [references, entryReferences_eq, List.flatMap_map]

end Cadence.Json
