import Cadence.Proofs.Json.Nested
import Cadence.Scenario.Shape
import Mathlib.Data.List.Forall2
import Mathlib.Data.List.Nodup
/-!
# Shapes

Which values a reader accepts, and what the fields of a struct are when its entries have been
read. With distinct keys each field comes from the one entry under its key, so the order of the
entries does not matter.
-/

namespace Cadence

theorem bind_eq_ok {ε α β : Type} {first : Except ε α} {next : α → Except ε β} {b : β} :
    first >>= next = .ok b ↔ ∃ a, first = .ok a ∧ next a = .ok b := by
  cases first <;> simp [bind, Except.bind]

theorem map_eq_ok {ε α β : Type} {first : Except ε α} {f : α → β} {b : β} :
    f <$> first = .ok b ↔ ∃ a, first = .ok a ∧ b = f a := by
  cases first <;> simp [eq_comm]

theorem pure_eq_ok {ε α : Type} {a b : α} : (pure a : Except ε α) = .ok b ↔ b = a := by
  simp [pure, Except.pure, eq_comm]

theorem throw_ne_ok {ε α : Type} {error : ε} {a : α} : (throw error : Except ε α) ≠ .ok a := nofun

namespace Reader

variable {α : Type} {value : Json}

theorem text_eq_ok {name : String} : text value = .ok name ↔ value = .str name := by
  cases value <;> simp [text]

theorem natural_eq_ok {want : String} {greatest n : Nat} :
    natural want greatest value = .ok n ↔ value = .int n ∧ n ≤ greatest := by
  cases value with
  | int got =>
      by_cases inside : 0 ≤ got ∧ got ≤ greatest
      · simp only [natural, if_pos inside, Except.ok.injEq, Json.int.injEq]
        omega
      · simp only [natural, if_neg inside, reduceCtorEq, Json.int.injEq, false_iff]
        omega
  | _ => simp [natural]

theorem mapM_eq_ok {reader : Reader α} {items : List Json} {results : List α} :
    items.mapM reader = .ok results ↔
      List.Forall₂ (fun item result => reader item = .ok result) items results := by
  induction items generalizing results with
  | nil => cases results <;> simp [pure, Except.pure]
  | cons item items ih =>
      rw [List.mapM_cons, bind_eq_ok]
      simp only [bind_eq_ok, ih]
      constructor
      · rintro ⟨result, first, rest, others, done⟩
        cases done
        exact .cons first others
      · rintro (_ | ⟨first, others⟩)
        exact ⟨_, first, _, others, rfl⟩

theorem forall₂_congr_mem {β : Type} {R S : Json → β → Prop} {items : List Json} {results : List β}
    (same : ∀ item ∈ items, ∀ result, R item result ↔ S item result) :
    List.Forall₂ R items results ↔ List.Forall₂ S items results := by
  induction items generalizing results with
  | nil => cases results <;> simp
  | cons item items ih =>
      cases results with
      | nil => simp
      | cons result results =>
          rw [List.forall₂_cons, List.forall₂_cons, same item List.mem_cons_self,
            ih fun other member => same other (List.mem_cons_of_mem _ member)]

theorem list_eq_ok {reader : Reader α} {results : List α} :
    list reader value = .ok results ↔ ∃ items, value = .arr items ∧
      List.Forall₂ (fun item result => reader item = .ok result) items results := by
  cases value <;> simp [list, mapM_eq_ok]

theorem list_any_eq_ok {items : List Json} : list any value = .ok items ↔ value = .arr items := by
  simp [list_eq_ok, any, List.forall₂_eq_eq_eq]

theorem optional_eq_ok {reader : Reader α} (noNull : ∀ a, reader .null ≠ .ok a)
    {found : Option α} : optional reader value = .ok found ↔
      value = .null ∧ found = none ∨ ∃ a, reader value = .ok a ∧ found = some a := by
  by_cases null : value = .null
  · subst null
    simp [optional, noNull, eq_comm]
  · have some : optional reader value = some <$> reader value := by
      unfold optional
      split
      · exact (null rfl).elim
      · rfl
    rw [some]
    cases reader value <;> simp [null, eq_comm]

theorem map_optional_some {β : Type} {reader : Reader α} {wrap : α → β} {b : β}
    (noNull : ∀ a, reader .null ≠ .ok a) : Option.map wrap <$> optional reader value = .ok (some b) ↔
      ∃ a, reader value = .ok a ∧ b = wrap a := by
  simp only [map_eq_ok, optional_eq_ok noNull]
  constructor
  · rintro ⟨_, ⟨-, rfl⟩ | ⟨a, read, rfl⟩, wrapped⟩
    · cases wrapped
    · exact ⟨a, read, Option.some.inj wrapped⟩
  · rintro ⟨a, read, rfl⟩
    exact ⟨some a, .inr ⟨a, read, rfl⟩, rfl⟩

theorem map_optional_none {β : Type} (reader : Reader α) {wrap : α → β}
    (noNull : ∀ a, reader .null ≠ .ok a) :
    Option.map wrap <$> optional reader value = .ok none ↔ value = .null := by
  simp only [map_eq_ok, optional_eq_ok noNull]
  constructor
  · rintro ⟨_, ⟨null, rfl⟩ | ⟨a, read, rfl⟩, wrapped⟩
    · exact null
    · cases wrapped
  · intro null
    exact ⟨none, .inl ⟨null, rfl⟩, rfl⟩

theorem optional_text_eq_ok {name : Option String} :
    optional text value = .ok name ↔ value = name.elim .null .str := by
  rw [optional_eq_ok nofun]
  cases name <;> simp [text_eq_ok]

theorem variant_eq_ok {variants : List (String × α)} {found : α} :
    variant variants value = .ok found ↔ ∃ name, variants.lookup name = some found ∧
      (value = .str name ∨ value = .obj [(name, .null)]) := by
  have find_eq_ok {name : String} :
      variant.find variants name = .ok found ↔ variants.lookup name = some found := by
    unfold variant.find
    cases variants.lookup name <;> simp
  unfold variant
  split
  next name => simp [find_eq_ok]
  next name value =>
    rw [bind_eq_ok]
    cases value <;> simp [find_eq_ok, pure, Except.pure]
  next entries notSingle =>
    simp only [reduceCtorEq, false_or, Json.obj.injEq, false_iff, not_exists, not_and]
    exact fun name _ => notSingle name .null
  next other notText notSingle _ =>
    simp only [reduceCtorEq, false_iff, not_exists, not_and, not_or]
    exact fun name _ => ⟨notText name, notSingle name .null⟩

end Reader

namespace Struct

variable {struct : Struct} {value : Json}

/-- What a value gives a struct to read: its entries, or its items under the names of the fields
in the order of their declaration. -/
inductive Gives (struct : Struct) : Json → List (String × Json) → Prop where
  | map (entries : List (String × Json)) : Gives struct (.obj entries) entries
  | sequence {items : List Json} (fits : items.length ≤ struct.fields.length) :
      Gives struct (.arr items) (struct.fields.zip items)

theorem gives_iff {given : List (String × Json)} : struct.Gives value given ↔
    struct.entries value = .ok given ∧ struct.checkLength value = .ok () := by
  constructor
  · rintro (_ | fits)
    · exact ⟨rfl, rfl⟩
    · exact ⟨rfl, if_neg (Nat.not_lt.2 fits)⟩
  · rintro ⟨entries, length⟩
    cases value with
    | obj entries' =>
        cases entries
        exact .map _
    | arr items =>
        cases entries
        refine .sequence (Nat.not_lt.1 fun tooLong => ?_)
        rw [checkLength, if_pos tooLong] at length
        cases length
    | _ => cases entries

theorem map_fst_zip_sublist {α β : Type} (names : List α) (items : List β) :
    (names.zip items).map Prod.fst |>.Sublist names := by
  induction names generalizing items with
  | nil => simp
  | cons name names ih =>
      cases items with
      | nil => simp
      | cons item items => exact (ih items).cons_cons name

theorem Gives.nodup {given : List (String × Json)} (gives : struct.Gives value given)
    (unique : ∀ entries, Json.IsPart (.obj entries) value → (entries.map Prod.fst).Nodup)
    (declared : struct.fields.Nodup) : (given.map Prod.fst).Nodup := by
  cases gives with
  | map => exact unique given .self
  | sequence fits => exact declared.sublist (map_fst_zip_sublist _ _)

theorem Gives.isPart {given : List (String × Json)} (gives : struct.Gives value given)
    {entry : String × Json} (member : entry ∈ given) : Json.IsPart entry.2 value := by
  cases gives with
  | map => exact .entry member .self
  | sequence fits => exact .item (List.of_mem_zip member).2 .self

theorem require_eq_ok {α : Type} {field : String} {found : Option α} {a : α} :
    struct.require value field found = .ok a ↔ found = some a := by
  cases found <;> simp [require]

section

variable {δ β : Type} {enter : δ → String → Reader δ} {draft result : δ}
  {entries : List (String × Json)}

theorem read_eq_ok : struct.read enter draft value = .ok result ↔
    ∃ entries, struct.Gives value entries ∧
      entries.foldlM (fun draft entry => enter draft entry.1 entry.2) draft = .ok result := by
  unfold read
  simp only [bind_eq_ok, gives_iff]
  constructor
  · rintro ⟨entries, given, _, folded, _, length, ⟨⟩⟩
    exact ⟨entries, ⟨given, length⟩, folded⟩
  · rintro ⟨entries, ⟨given, length⟩, folded⟩
    exact ⟨entries, given, result, folded, (), length, rfl⟩

theorem fold_cons_eq_ok {entry : String × Json} :
    (entry :: entries).foldlM (fun draft entry => enter draft entry.1 entry.2) draft =
      .ok result ↔
    ∃ entered, enter draft entry.1 entry.2 = .ok entered ∧
      entries.foldlM (fun draft entry => enter draft entry.1 entry.2) entered = .ok result := by
  rw [List.foldlM_cons, bind_eq_ok]

theorem entered_of_fold
    (folded : entries.foldlM (fun draft entry => enter draft entry.1 entry.2) draft = .ok result) :
    ∀ entry ∈ entries, ∃ before after, enter before entry.1 entry.2 = .ok after := by
  induction entries generalizing draft with
  | nil => simp
  | cons entry entries ih =>
      obtain ⟨entered, first, rest⟩ := fold_cons_eq_ok.1 folded
      exact List.forall_mem_cons.2 ⟨⟨draft, entered, first⟩, ih rest⟩

theorem exists_fold
    (fits : ∀ entry ∈ entries, ∀ draft, ∃ entered, enter draft entry.1 entry.2 = .ok entered)
    (draft : δ) : ∃ result,
      entries.foldlM (fun draft entry => enter draft entry.1 entry.2) draft = .ok result := by
  induction entries generalizing draft with
  | nil => exact ⟨draft, rfl⟩
  | cons entry entries ih =>
      obtain ⟨entered, first⟩ := fits entry List.mem_cons_self draft
      obtain ⟨result, rest⟩ :=
        ih (fun other member => fits other (List.mem_cons_of_mem _ member)) entered
      exact ⟨result, fold_cons_eq_ok.2 ⟨entered, first, rest⟩⟩

/-- The field is read from the entry under its key; without one it keeps its default. -/
def Filled (entries : List (String × Json)) (key : String) (Reads : Json → β → Prop)
    (absent filled : β) : Prop :=
  (∃ value, (key, value) ∈ entries ∧ Reads value filled) ∨
    key ∉ entries.map Prod.fst ∧ filled = absent

theorem filled_of_fold (field : δ → β) {key : String} {Reads : Json → β → Prop}
    (own : ∀ {before after value}, enter before key value = .ok after → Reads value (field after))
    (other : ∀ {before after key' value}, key' ≠ key → enter before key' value = .ok after →
      field after = field before)
    (unique : (entries.map Prod.fst).Nodup)
    (folded : entries.foldlM (fun draft entry => enter draft entry.1 entry.2) draft = .ok result) :
    Filled entries key Reads (field draft) (field result) := by
  have kept {entries : List (String × Json)} {draft : δ} (absent : key ∉ entries.map Prod.fst)
      (folded : entries.foldlM (fun draft entry => enter draft entry.1 entry.2) draft =
        .ok result) : field result = field draft := by
    induction entries generalizing draft with
    | nil =>
        cases folded
        rfl
    | cons entry entries ih =>
        rw [List.map_cons, List.mem_cons, not_or] at absent
        obtain ⟨entered, first, rest⟩ := fold_cons_eq_ok.1 folded
        rw [ih absent.2 rest, other (Ne.symm absent.1) first]
  induction entries generalizing draft with
  | nil =>
      cases folded
      exact .inr ⟨List.not_mem_nil, rfl⟩
  | cons entry entries ih =>
      obtain ⟨key', value⟩ := entry
      rw [List.map_cons, List.nodup_cons] at unique
      obtain ⟨entered, first, rest⟩ := fold_cons_eq_ok.1 folded
      by_cases same : key' = key
      · subst same
        rw [kept unique.1 rest]
        exact .inl ⟨value, List.mem_cons_self, own first⟩
      · rw [← other same first]
        obtain ⟨found, member, reads⟩ | ⟨absent, default⟩ := ih unique.2 rest
        · exact .inl ⟨found, List.mem_cons_of_mem _ member, reads⟩
        · exact .inr ⟨List.not_mem_cons_of_ne_of_not_mem (Ne.symm same) absent, default⟩

theorem value_unique {key : String} {value other : Json} (unique : (entries.map Prod.fst).Nodup)
    (first : (key, value) ∈ entries) (second : (key, other) ∈ entries) : value = other :=
  (Prod.ext_iff.1 (List.inj_on_of_nodup_map unique first second rfl)).2

theorem Filled.reads {key : String} {Reads : Json → β → Prop} {absent filled : β} {value : Json}
    (fills : Filled entries key Reads absent filled) (unique : (entries.map Prod.fst).Nodup)
    (member : (key, value) ∈ entries) : Reads value filled := by
  rcases fills with ⟨value', member', reads⟩ | ⟨missing, -⟩
  · rwa [value_unique unique member member']
  · exact (missing (List.mem_map_of_mem member)).elim

theorem Filled.functional {key : String} {Reads : Json → β → Prop} {absent filled filled' : β}
    (unique : (entries.map Prod.fst).Nodup)
    (reads : ∀ {value b b'}, Reads value b → Reads value b' → b = b')
    (first : Filled entries key Reads absent filled)
    (second : Filled entries key Reads absent filled') : filled = filled' := by
  rcases first with ⟨value, member, fits⟩ | ⟨missing, rfl⟩
  · exact reads fits (second.reads unique member)
  · rcases second with ⟨value', member', -⟩ | ⟨-, rfl⟩
    · exact (missing (List.mem_map_of_mem member')).elim
    · rfl

theorem filled_some {key : String} {Reads : Json → β → Prop} {b : β} :
    Filled entries key (fun value filled => ∃ b, Reads value b ∧ filled = some b) none (some b) ↔
      ∃ value, (key, value) ∈ entries ∧ Reads value b := by
  simp [Filled]

end

end Struct

end Cadence
