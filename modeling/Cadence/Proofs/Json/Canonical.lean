import Cadence.Proofs.Fields
import Cadence.Proofs.Json.Text
/-!
# Values that are read

Whatever JSON text a value is read from, the keys of its objects are distinct and in order, and its
decimals are in lowest terms. The same holds of what a scalar in a document stands for.
-/

namespace Cadence

namespace Json

structure Canonical (value : Json) : Prop where
  unique : value.UniqueKeys
  lowest : value.InLowestTerms

theorem canonical_arr {items : List Json} (each : ∀ item ∈ items, item.Canonical) :
    (arr items).Canonical := by
  constructor
  · rintro entries (_ | ⟨member, inside⟩)
    exact (each _ member).unique entries inside
  · rintro decimal (_ | ⟨member, inside⟩)
    exact (each _ member).lowest decimal inside

theorem canonical_obj {entries : List (String × Json)} (sorted : Fields.Sorted entries)
    (each : ∀ entry ∈ entries, entry.2.Canonical) : (obj entries).Canonical := by
  constructor
  · rintro others (_ | _ | ⟨member, inside⟩)
    · exact sorted.imp ne_of_lt
    · exact (each _ member).unique others inside
  · rintro decimal (_ | _ | ⟨member, inside⟩)
    exact (each _ member).lowest decimal inside

theorem canonical_decimal {value : Decimal} (lowest : value.InLowestTerms) :
    (decimal value).Canonical := by
  constructor
  · nofun
  · rintro other ⟨⟩
    exact lowest

theorem readNumber_canonical {text rest : List Char} {value : Json}
    (read : readNumber text = some (value, rest)) : value.Canonical := by
  unfold readNumber at read
  simp only [Option.bind_eq_bind] at read
  obtain ⟨-, read⟩ | ⟨-, read⟩ := ite_eq_iff.1 read
  · cases read
  · obtain ⟨⟨fraction, _⟩, -, read⟩ := Option.bind_eq_some_iff.1 read
    obtain ⟨⟨exponent, _⟩, -, read⟩ := Option.bind_eq_some_iff.1 read
    obtain ⟨-, read⟩ | ⟨-, read⟩ := ite_eq_iff.1 read
    · cases read
      exact ⟨nofun, nofun⟩
    · obtain ⟨double, -, read⟩ := Option.bind_eq_some_iff.1 read
      cases read
      exact canonical_decimal double.shortest_inLowestTerms

structure ReadersCanonical (fuel : Nat) : Prop where
  value : ∀ {text rest value}, readValue fuel text = some (value, rest) → value.Canonical
  items : ∀ {text rest items value}, (∀ item ∈ items, item.Canonical) →
    readItems fuel text items = some (value, rest) → value.Canonical
  entries : ∀ {text rest entries value}, Fields.Sorted entries →
    (∀ entry ∈ entries, entry.2.Canonical) →
      readEntries fuel text entries = some (value, rest) → value.Canonical

theorem readValue_canonical {fuel : Nat} {text rest : List Char} {value : Json}
    (readers : ReadersCanonical fuel) (read : readValue (fuel + 1) text = some (value, rest)) :
    value.Canonical := by
  unfold readValue at read
  split at read
  case h_1 | h_2 | h_3 =>
    cases read
    exact ⟨nofun, nofun⟩
  case h_4 =>
    obtain ⟨written, -, read⟩ := Option.bind_eq_some_iff.1 read
    cases read
    exact ⟨nofun, nofun⟩
  case h_5 =>
    split at read
    · cases read
      exact canonical_arr nofun
    · have none : ∀ item ∈ ([] : List Json), item.Canonical := nofun
      exact readers.items none read
  case h_6 =>
    split at read
    · cases read
      exact canonical_obj Fields.sorted_nil nofun
    · have none : ∀ entry ∈ ([] : Fields Json), entry.2.Canonical := nofun
      exact readers.entries Fields.sorted_nil none read
  case h_7 => exact readNumber_canonical read

theorem readItems_canonical {fuel : Nat} {text rest : List Char} {items : List Json} {value : Json}
    (readers : ReadersCanonical fuel) (each : ∀ item ∈ items, item.Canonical)
    (read : readItems (fuel + 1) text items = some (value, rest)) : value.Canonical := by
  unfold readItems at read
  obtain ⟨⟨item, behind⟩, first, read⟩ := Option.bind_eq_some_iff.1 read
  have longer : ∀ other ∈ item :: items, other.Canonical :=
    List.forall_mem_cons.2 ⟨readers.value first, each⟩
  simp only at read
  split at read
  · exact readers.items longer read
  · cases read
    apply canonical_arr
    intro other member
    exact longer other (List.mem_reverse.1 member)
  · cases read

theorem readEntries_canonical {fuel : Nat} {text rest : List Char} {entries : Fields Json}
    {value : Json} (readers : ReadersCanonical fuel) (sorted : entries.Sorted)
    (each : ∀ entry ∈ entries, entry.2.Canonical)
    (read : readEntries (fuel + 1) text entries = some (value, rest)) : value.Canonical := by
  unfold readEntries at read
  split at read
  · obtain ⟨⟨key, behind⟩, -, read⟩ := Option.bind_eq_some_iff.1 read
    simp only at read
    split at read
    · obtain ⟨⟨item, behind⟩, first, read⟩ := Option.bind_eq_some_iff.1 read
      have longer : ∀ entry ∈ entries.insert key item, entry.2.Canonical := by
        intro entry member
        rcases Fields.mem_insert member with rfl | old
        · exact readers.value first
        · exact each entry old
      simp only at read
      split at read
      · exact readers.entries (sorted.insert key item) longer read
      · cases read
        exact canonical_obj (sorted.insert key item) longer
      · cases read
    · cases read
  · cases read

theorem readersCanonical (fuel : Nat) : ReadersCanonical fuel := by
  induction fuel with
  | zero => exact ⟨nofun, nofun, nofun⟩
  | succ fuel readers =>
      exact ⟨readValue_canonical readers, readItems_canonical readers,
        readEntries_canonical readers⟩

theorem read?_canonical {text : String} {value : Json} (read : read? text = some value) :
    value.Canonical := by
  obtain ⟨⟨value', rest⟩, first, read⟩ := Option.bind_eq_some_iff.1 read
  simp only [Option.ite_none_right_eq_some, Option.some.injEq] at read
  exact read.2 ▸ (readersCanonical _).value first

end Json

namespace Yaml

variable {text : String} {value : Json}

theorem double?_canonical (read : double? text = some value) : value.Canonical := by
  unfold double? at read
  split at read
  · cases read
    exact ⟨nofun, nofun⟩
  · obtain ⟨decimal, -, read⟩ := Option.bind_eq_some_iff.1 read
    obtain ⟨rounded, rounds, read⟩ := Option.bind_eq_some_iff.1 read
    cases read
    exact Json.canonical_decimal (Decimal.rounded?_inLowestTerms rounds)

theorem doubleOrText_canonical (text : String) : (doubleOrText text).Canonical := by
  unfold doubleOrText
  split
  · exact ⟨nofun, nofun⟩
  · cases read : double? text with
    | none => exact ⟨nofun, nofun⟩
    | some value => exact double?_canonical read

theorem resolve?_canonical (resolved : resolve? text = some value) : value.Canonical := by
  unfold resolve? at resolved
  split at resolved
  · cases resolved
    exact ⟨nofun, nofun⟩
  · split at resolved
    · cases resolved
      exact ⟨nofun, nofun⟩
    · split at resolved
      · cases resolved
        exact ⟨nofun, nofun⟩
      · split at resolved
        · cases resolved
        · cases resolved
          exact doubleOrText_canonical text
    · cases resolved
      exact doubleOrText_canonical text

theorem value?_canonical {tag : Option Tag} {style : Style}
    (spelled : value? tag text style = some value) : value.Canonical := by
  unfold value? at spelled
  split at spelled
  case h_1 =>
    obtain ⟨-, same⟩ := Option.ite_none_right_eq_some.1 spelled
    cases same
    exact ⟨nofun, nofun⟩
  case h_2 =>
    obtain ⟨value, -, rfl⟩ := Option.map_eq_some_iff.1 spelled
    exact ⟨nofun, nofun⟩
  case h_3 =>
    obtain ⟨number, -, spelled⟩ := Option.bind_eq_some_iff.1 spelled
    obtain ⟨-, same⟩ := Option.ite_none_right_eq_some.1 spelled
    cases same
    exact ⟨nofun, nofun⟩
  case h_4 => exact double?_canonical spelled
  case h_5 => cases spelled
  case h_6 =>
    cases spelled
    exact ⟨nofun, nofun⟩
  case h_7 | h_8 =>
    split at spelled
    · exact resolve?_canonical spelled
    · cases spelled
      exact ⟨nofun, nofun⟩

end Yaml

end Cadence
