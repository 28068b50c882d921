import Cadence.Json.Basic
/-!
Values inside values: induction over a value in which the items of a list and the values of an
object's entries are reached by membership, and the parts of a value at any depth.
-/

namespace Cadence.Json

@[elab_as_elim]
theorem induct {motive : Json → Prop} (value : Json) (null : motive .null)
    (bool : ∀ value, motive (.bool value)) (int : ∀ value, motive (.int value))
    (decimal : ∀ value, motive (.decimal value)) (str : ∀ text, motive (.str text))
    (arr : ∀ items, (∀ item ∈ items, motive item) → motive (.arr items))
    (obj : ∀ entries, (∀ entry ∈ entries, motive entry.2) → motive (.obj entries)) :
    motive value := by
  refine @Json.rec motive (fun items => ∀ item ∈ items, motive item)
    (fun entries => ∀ entry ∈ entries, motive entry.2) (fun entry => motive entry.2)
    null bool int decimal str arr obj ?_ ?_ ?_ ?_ ?_ value
  · intro item member
    cases member
  · intro first rest head tail item member
    cases member with
    | head => exact head
    | tail _ member => exact tail item member
  · intro entry member
    cases member
  · intro first rest head tail entry member
    cases member with
    | head => exact head
    | tail _ member => exact tail entry member
  · intro key value inside
    exact inside

inductive IsPart (part : Json) : Json → Prop where
  | self : IsPart part part
  | item {items : List Json} {item : Json} (member : item ∈ items) (inside : IsPart part item) :
      IsPart part (.arr items)
  | entry {entries : List (String × Json)} {entry : String × Json} (member : entry ∈ entries)
      (inside : IsPart part entry.2) : IsPart part (.obj entries)

theorem IsPart.trans {part middle whole : Json} (first : IsPart part middle)
    (second : IsPart middle whole) : IsPart part whole := by
  induction second with
  | self => exact first
  | item member _ ih => exact .item member ih
  | entry member _ ih => exact .entry member ih

/-- No object in the value has two entries with one key. -/
def UniqueKeys (value : Json) : Prop :=
  ∀ entries, IsPart (.obj entries) value → (entries.map Prod.fst).Nodup

theorem UniqueKeys.part {part whole : Json} (unique : whole.UniqueKeys)
    (inside : IsPart part whole) : part.UniqueKeys :=
  fun entries deeper => unique entries (deeper.trans inside)

end Cadence.Json
