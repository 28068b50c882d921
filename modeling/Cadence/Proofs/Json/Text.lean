import Cadence.Json.Reader
import Cadence.Proofs.Decimal
import Cadence.Proofs.Heap.Numbering
import Cadence.Proofs.Json.Nested
/-!
# Compact text

Compact text can be read in one way only: a value and the text behind it can be told from the two
together. Strings are read back by the reader itself; numbers are as long as their characters go.
-/

namespace Cadence.Json

theorem readEscapedChar_control {c : Char} (control : c.toNat < 0x20) (rest : List Char) :
    readEscapedChar ('0' :: '0' :: Nat.digitChar (c.toNat / 16) :: Nat.digitChar (c.toNat % 16) ::
      rest) = some (c, rest) := by
  have unit : ∀ n < 0x20, Text.digits? 16 ['0', '0', Nat.digitChar (n / 16),
      Nat.digitChar (n % 16)] = some n := by
    decide
  have low : ¬(0xd800 ≤ c.toNat ∧ c.toNat < 0xdc00) := by omega
  have low' : ¬(0xdc00 ≤ c.toNat ∧ c.toNat < 0xe000) := by omega
  simp [readEscapedChar, readUnit, unit _ control, low, low', Char.ofNat_toNat]

theorem readString_escape (fuel : Nat) (c : Char) (rest read : List Char) :
    readString (fuel + 1) (escape c ++ rest) read = readString fuel rest (c :: read) := by
  unfold escape
  split
  case h_8 notQuote notSlash _ _ _ _ _ =>
    split
    next control => simp [readString, readEscapedChar_control control]
    next plain =>
      rw [List.singleton_append, readString, if_neg plain]
      · exact notQuote
      · exact fun _ slash => (notSlash slash).elim
      · exact fun _ _ slash => (notSlash slash).elim
  all_goals rfl

theorem readString_written {fuel : Nat} (text rest read : List Char) (enough : text.length < fuel) :
    readString fuel (text.flatMap escape ++ '"' :: rest) read =
      some (String.ofList (read.reverse ++ text), rest) := by
  induction text generalizing fuel read with
  | nil =>
      obtain ⟨fuel, rfl⟩ := Nat.exists_eq_succ_of_ne_zero (Nat.ne_of_gt enough)
      simp [readString]
  | cons c text ih =>
      obtain ⟨fuel, rfl⟩ := Nat.exists_eq_succ_of_ne_zero (Nat.ne_zero_of_lt enough)
      rw [List.flatMap_cons, List.append_assoc, readString_escape,
        ih (c :: read) (Nat.lt_of_succ_lt_succ enough)]
      simp

theorem emitString_inj {text other : String} {rest rest' : List Char}
    (same : emitString text rest = emitString other rest') : text = other ∧ rest = rest' := by
  have enough : text.toList.length < text.toList.length + other.toList.length + 1 := by omega
  have enough' : other.toList.length < text.toList.length + other.toList.length + 1 := by omega
  have read := readString_written text.toList rest [] enough
  rw [(List.cons.inj same).2, readString_written other.toList rest' [] enough'] at read
  simpa [eq_comm] using read

def isNumeric (c : Char) : Bool :=
  c.isDigit || c = '-' || c = '+' || c = '.' || c = 'e'

def Ends (rest : List Char) : Prop := rest.takeWhile isNumeric = []

theorem ends_nil : Ends [] := rfl

theorem ends_cons {c : Char} (rest : List Char) (other : isNumeric c = false) :
    Ends (c :: rest) := by
  simp [Ends, other]

theorem numeric_inj {number other rest rest' : List Char}
    (numeric : ∀ c ∈ number, isNumeric c = true) (numeric' : ∀ c ∈ other, isNumeric c = true)
    (ends : Ends rest) (ends' : Ends rest') (same : number ++ rest = other ++ rest') :
    number = other ∧ rest = rest' := by
  have front := congrArg (List.takeWhile isNumeric) same
  rw [List.takeWhile_append_of_pos numeric, List.takeWhile_append_of_pos numeric', ends, ends',
    List.append_nil, List.append_nil] at front
  subst front
  exact ⟨rfl, List.append_cancel_left same⟩

theorem isNumeric_of_isDigit {c : Char} (digit : c.isDigit = true) : isNumeric c = true := by
  simp [isNumeric, digit]

theorem isNumeric_int {value : Int} : ∀ c ∈ (toString value).toList, isNumeric c = true := by
  have digits : ∀ c ∈ Nat.toDigits 10 value.natAbs, isNumeric c = true :=
    fun c member => isNumeric_of_isDigit (isDigit_of_mem_toDigits member)
  rw [toList_toString_int]
  split
  · exact List.forall_mem_cons.2 ⟨rfl, digits⟩
  · exact digits

theorem isNumeric_signed {decimal : Decimal} {chars : List Char}
    (numeric : ∀ c ∈ chars, isNumeric c = true) :
    ∀ c ∈ (decimal.signed chars).toList, isNumeric c = true := by
  rw [Decimal.signed, String.toList_ofList]
  split
  · exact List.forall_mem_cons.2 ⟨rfl, numeric⟩
  · exact numeric

theorem isNumeric_decimal {decimal : Decimal} : ∀ c ∈ decimal.text.toList, isNumeric c = true := by
  have digits : ∀ c ∈ Nat.toDigits 10 decimal.digits, isNumeric c = true :=
    fun c member => isNumeric_of_isDigit (isDigit_of_mem_toDigits member)
  have front (n : Nat) : ∀ c ∈ (Nat.toDigits 10 decimal.digits).take n, isNumeric c = true :=
    fun c member => digits c (List.mem_of_mem_take member)
  have back (n : Nat) : ∀ c ∈ (Nat.toDigits 10 decimal.digits).drop n, isNumeric c = true :=
    fun c member => digits c (List.mem_of_mem_drop member)
  have zeros (n : Nat) : ∀ c ∈ List.replicate n '0', isNumeric c = true :=
    List.forall_mem_replicate.2 (.inr rfl)
  have point {chars : List Char} (numeric : ∀ c ∈ chars, isNumeric c = true) :
      ∀ c ∈ '.' :: chars, isNumeric c = true :=
    List.forall_mem_cons.2 ⟨rfl, numeric⟩
  unfold Decimal.text Decimal.positional Decimal.scientific
  split
  · apply isNumeric_signed
    split
    · simp only [List.forall_mem_append]
      exact ⟨⟨digits, zeros _⟩, point (zeros 1)⟩
    · split
      · simp only [List.forall_mem_append]
        exact ⟨front _, point (back _)⟩
      · simp only [List.cons_append, List.forall_mem_cons, List.forall_mem_append]
        exact ⟨rfl, rfl, zeros _, digits⟩
  · apply isNumeric_signed
    simp only [List.forall_mem_append]
    refine ⟨⟨⟨front 1, ?_⟩, ?_⟩, isNumeric_int⟩
    · split
      · simp
      · exact point (back 1)
    · split <;> simp [isNumeric]

theorem mark_mem_decimal (decimal : Decimal) :
    '.' ∈ decimal.text.toList ∨ 'e' ∈ decimal.text.toList := by
  have signed {c : Char} {chars : List Char} (member : c ∈ chars) :
      c ∈ (decimal.signed chars).toList := by
    rw [Decimal.signed, String.toList_ofList]
    split
    · exact List.mem_cons_of_mem _ member
    · exact member
  unfold Decimal.text Decimal.positional Decimal.scientific
  split
  · left
    apply signed
    split
    · simp
    · split <;> simp
  · right
    apply signed
    rw [List.mem_append, List.mem_append]
    left
    right
    split <;> simp

theorem int_ne_decimal {value : Int} {decimal : Decimal} :
    (toString value).toList ≠ decimal.text.toList := by
  intro same
  have digits : ∀ c ∈ (toString value).toList, c.isDigit = true ∨ c = '-' := by
    intro c member
    rw [toList_toString_int] at member
    split at member
    next =>
      cases member with
      | head => exact .inr rfl
      | tail _ member => exact .inl (isDigit_of_mem_toDigits member)
    next => exact .inl (isDigit_of_mem_toDigits member)
  rw [same] at digits
  cases mark_mem_decimal decimal with
  | inl point => simpa using digits '.' point
  | inr power => simpa using digits 'e' power

theorem int_inj {value other : Int} (same : toString value = toString other) : value = other := by
  have parts := Yaml.splitSign_toString value
  rw [same, Yaml.splitSign_toString] at parts
  obtain ⟨sign, digits⟩ := Prod.ext_iff.1 parts
  have sizes : other.natAbs = value.natAbs := by
    simpa using congrArg (Nat.ofDigitChars 10 · 0) digits
  have signs : other < 0 ↔ value < 0 := by simpa using sign
  omega

def emitEntry (entry : String × Json) (rest : List Char) : List Char :=
  emitString entry.1 (':' :: emit entry.2 rest)

section

variable {α : Type} (emitOne : α → List Char → List Char)

def emitList : List α → List Char → List Char
  | [], rest => rest
  | [item], rest => emitOne item rest
  | item :: next :: items, rest => emitOne item (',' :: emitList (next :: items) rest)

def emitBehind (items : List α) (rest : List Char) : List Char :=
  if items.isEmpty then rest else ',' :: emitList emitOne items rest

variable {emitOne}

theorem emitList_cons (item : α) (items : List α) (rest : List Char) :
    emitList emitOne (item :: items) rest = emitOne item (emitBehind emitOne items rest) := by
  cases items <;> rfl

theorem ends_emitBehind {closing : Char} (ends : isNumeric closing = false) (items : List α)
    (rest : List Char) : Ends (emitBehind emitOne items (closing :: rest)) := by
  cases items with
  | nil => exact ends_cons rest ends
  | cons item items => exact ends_cons _ rfl

theorem emitList_inj {closing : Char} {items others : List α} {rest rest' : List Char}
    (ends : isNumeric closing = false) (noComma : closing ≠ ',')
    (opens : ∀ item rest, (emitOne item rest).head? ≠ some closing)
    (each : ∀ item ∈ items, ∀ other ∈ others, ∀ rest rest', Ends rest → Ends rest' →
      emitOne item rest = emitOne other rest' → item = other ∧ rest = rest')
    (same : emitList emitOne items (closing :: rest) =
      emitList emitOne others (closing :: rest')) : items = others ∧ rest = rest' := by
  induction items generalizing others with
  | nil =>
      cases others with
      | nil => exact ⟨rfl, (List.cons.inj same).2⟩
      | cons other others =>
          rw [emitList_cons] at same
          exact (opens other _ (congrArg List.head? same).symm).elim
  | cons item items ih =>
      cases others with
      | nil =>
          rw [emitList_cons] at same
          exact (opens item _ (congrArg List.head? same)).elim
      | cons other others =>
          rw [emitList_cons, emitList_cons] at same
          obtain ⟨rfl, behind⟩ := each item List.mem_cons_self other List.mem_cons_self _ _
            (ends_emitBehind ends items rest) (ends_emitBehind ends others rest') same
          have tails : emitList emitOne items (closing :: rest) =
              emitList emitOne others (closing :: rest') := by
            cases items with
            | nil =>
                cases others with
                | nil => exact behind
                | cons other others => exact (noComma (List.cons.inj behind).1).elim
            | cons item items =>
                cases others with
                | nil => exact (noComma (List.cons.inj behind).1.symm).elim
                | cons other others => exact (List.cons.inj behind).2
          obtain ⟨rfl, rests⟩ := ih (fun item member other member' =>
            each item (List.mem_cons_of_mem _ member) other (List.mem_cons_of_mem _ member')) tails
          exact ⟨rfl, rests⟩

end

theorem emitItems_eq (items : List Json) (rest : List Char) :
    emitItems items rest = emitList emit items rest := by
  induction items with
  | nil => rfl
  | cons item items ih =>
      cases items with
      | nil => rfl
      | cons next items => rw [emitItems, ih, emitList]

theorem emitEntries_eq (entries : List (String × Json)) (rest : List Char) :
    emitEntries entries rest = emitList emitEntry entries rest := by
  induction entries with
  | nil => rfl
  | cons entry entries ih =>
      cases entries with
      | nil => rfl
      | cons next entries => rw [emitEntries, ih, emitList, emitEntry]

def InLowestTerms (value : Json) : Prop :=
  ∀ decimal, IsPart (.decimal decimal) value → decimal.InLowestTerms

def kind : Json → Char
  | null => 'n'
  | bool _ => 'b'
  | int _ | decimal _ => '0'
  | str _ => '"'
  | arr _ => '['
  | obj _ => '{'

def kindOf (c : Char) : Char :=
  if isNumeric c then '0' else if c = 't' ∨ c = 'f' then 'b' else c

theorem kindOf_emit (value : Json) (rest : List Char) :
    (value.emit rest).head?.map kindOf = some value.kind := by
  have number {chars : List Char} (nonempty : chars ≠ [])
      (numeric : ∀ c ∈ chars, isNumeric c = true) :
      (chars ++ rest).head?.map kindOf = some '0' := by
    obtain ⟨c, chars, rfl⟩ := List.exists_cons_of_ne_nil nonempty
    simp [kindOf, numeric c List.mem_cons_self]
  cases value with
  | null => rfl
  | bool value => cases value <;> rfl
  | int value =>
      have nonempty : (toString value).toList ≠ [] := by
        rw [toList_toString_int]
        split <;> simp [Nat.toDigits_ne_nil]
      rw [emit]
      exact number nonempty isNumeric_int
  | decimal value =>
      rw [emit]
      cases mark_mem_decimal value with
      | inl point => exact number (List.ne_nil_of_mem point) isNumeric_decimal
      | inr power => exact number (List.ne_nil_of_mem power) isNumeric_decimal
  | str text => rfl
  | arr items => rfl
  | obj entries => rfl

theorem kind_eq {value other : Json} {rest rest' : List Char}
    (same : value.emit rest = other.emit rest') : value.kind = other.kind := by
  have first := kindOf_emit value rest
  rw [same, kindOf_emit] at first
  exact (Option.some.inj first).symm

theorem head?_emit_ne (value : Json) (rest : List Char) : (value.emit rest).head? ≠ some ']' := by
  intro head
  have first := kindOf_emit value rest
  rw [head] at first
  cases value <;> simp [kind, kindOf, isNumeric] at first

theorem emitEntry_inj {entry other : String × Json} {rest rest' : List Char}
    (value : entry.2.emit rest = other.2.emit rest' → entry.2 = other.2 ∧ rest = rest')
    (same : emitEntry entry rest = emitEntry other rest') : entry = other ∧ rest = rest' := by
  obtain ⟨key, behind⟩ := emitString_inj same
  obtain ⟨inside, rests⟩ := value (List.cons.inj behind).2
  exact ⟨Prod.ext key inside, rests⟩

/-- A value and the text behind it can be told from the two together. -/
theorem emit_inj {value other : Json} {rest rest' : List Char} (lowest : value.InLowestTerms)
    (lowest' : other.InLowestTerms) (ends : Ends rest) (ends' : Ends rest')
    (same : value.emit rest = other.emit rest') : value = other ∧ rest = rest' := by
  have kinds := kind_eq same
  induction value using induct generalizing other rest rest' with
  | null =>
      cases other with
      | null => exact ⟨rfl, by simpa [emit] using same⟩
      | _ => simp [kind] at kinds
  | bool value =>
      cases other with
      | bool value' => cases value <;> cases value' <;> simp_all [emit]
      | _ => simp [kind] at kinds
  | int value =>
      cases other with
      | int value' =>
          rw [emit, emit] at same
          obtain ⟨number, rests⟩ := numeric_inj isNumeric_int isNumeric_int ends ends' same
          exact ⟨by rw [int_inj (String.toList_inj.1 number)], rests⟩
      | decimal value' =>
          -- Both texts are numeric, but only that of a decimal has a mark.
          rw [emit, emit] at same
          exact (int_ne_decimal
            (numeric_inj isNumeric_int isNumeric_decimal ends ends' same).1).elim
      | _ => simp [kind] at kinds
  | decimal value =>
      cases other with
      | int value' =>
          rw [emit, emit] at same
          exact (int_ne_decimal
            (numeric_inj isNumeric_decimal isNumeric_int ends ends' same).1.symm).elim
      | decimal value' =>
          rw [emit, emit] at same
          obtain ⟨number, rests⟩ := numeric_inj isNumeric_decimal isNumeric_decimal ends ends' same
          have values := Decimal.text_inj (lowest value .self) (lowest' value' .self)
            (String.toList_inj.1 number)
          exact ⟨by rw [values], rests⟩
      | _ => simp [kind] at kinds
  | str text =>
      cases other with
      | str text' =>
          obtain ⟨texts, rests⟩ := emitString_inj same
          exact ⟨by rw [texts], rests⟩
      | _ => simp [kind] at kinds
  | arr items each =>
      cases other with
      | arr others =>
          have inner := (List.cons.inj same).2
          rw [emitItems_eq, emitItems_eq] at inner
          obtain ⟨lists, rests⟩ := emitList_inj rfl (by decide) head?_emit_ne (by
            intro item member other member' rest rest' ends ends' same
            exact each item member (fun d part => lowest d (.item member part))
              (fun d part => lowest' d (.item member' part)) ends ends' same (kind_eq same)) inner
          exact ⟨by rw [lists], rests⟩
      | _ => simp [kind] at kinds
  | obj entries each =>
      cases other with
      | obj others =>
          have inner := (List.cons.inj same).2
          rw [emitEntries_eq, emitEntries_eq] at inner
          obtain ⟨lists, rests⟩ := emitList_inj rfl (by decide) (by simp [emitEntry, emitString]) (by
            intro entry member other member' rest rest' ends ends' same
            refine emitEntry_inj (fun same => ?_) same
            exact each entry member (fun d part => lowest d (.entry member part))
              (fun d part => lowest' d (.entry member' part)) ends ends' same (kind_eq same)) inner
          exact ⟨by rw [lists], rests⟩
      | _ => simp [kind] at kinds

end Cadence.Json
