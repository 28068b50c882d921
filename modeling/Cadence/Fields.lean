/-!
Entries under string keys, kept in the order of the keys. Strings compare by code point, which is
also the order of their UTF-8 bytes. The statements say that a look-up sees exactly the last
insertion under its key.
-/

namespace Cadence

/-- Entries in strictly increasing key order, as long as they are built by `insert`. -/
abbrev Fields (α : Type) := List (String × α)

namespace Fields

variable {α : Type}

def find? (fields : Fields α) (key : String) : Option α :=
  List.lookup key fields

def insert (fields : Fields α) (key : String) (value : α) : Fields α :=
  match fields with
  | [] => [(key, value)]
  | (k, v) :: rest =>
    if key = k then (key, value) :: rest
    else if key < k then (key, value) :: (k, v) :: rest
    else (k, v) :: insert rest key value

def keys (fields : Fields α) : List String :=
  fields.map (·.1)

@[simp] theorem find?_nil (key : String) : find? ([] : Fields α) key = none := rfl

theorem find?_cons (k : String) (v : α) (rest : Fields α) (key : String) :
    find? ((k, v) :: rest) key = if key = k then some v else find? rest key := by
  unfold find?
  by_cases same : key = k
  · simp [same]
  · have differs : (key == k) = false := by simpa using same
    simp [List.lookup_cons, differs, same]

@[simp] theorem find?_insert_self (fields : Fields α) (key : String) (value : α) :
    find? (insert fields key value) key = some value := by
  induction fields with
  | nil => simp [insert, find?_cons]
  | cons entry rest ih =>
    obtain ⟨k, v⟩ := entry
    by_cases same : key = k
    · simp [insert, same, find?_cons]
    · by_cases before : key < k <;> simp [insert, same, before, find?_cons, ih]

theorem find?_insert_of_ne (fields : Fields α) {key other : String} (value : α)
    (distinct : other ≠ key) : find? (insert fields key value) other = find? fields other := by
  induction fields with
  | nil => simp [insert, find?_cons, distinct]
  | cons entry rest ih =>
    obtain ⟨k, v⟩ := entry
    by_cases same : key = k
    · subst same
      simp [insert, find?_cons, distinct]
    · by_cases before : key < k <;> simp [insert, same, before, find?_cons, ih, distinct]

end Fields

end Cadence
