import Cadence.Json.Text
import Cadence.Yaml.Resolve
import Mathlib.Data.List.Basic
/-!
# Decimals as text

The text of a decimal in lowest terms is read back as that decimal, whichever of the two ways it
is written in. So no two of these decimals share a text.
-/

namespace Cadence

theorem isDigit_of_mem_toDigits {n : Nat} {c : Char} (member : c ∈ Nat.toDigits 10 n) :
    c.isDigit = true :=
  Nat.isDigit_of_mem_toDigits (by decide) (by decide) member

theorem toDigits_concat (n : Nat) :
    ∃ front, Nat.toDigits 10 n = front ++ [Nat.digitChar (n % 10)] := by
  rw [Nat.toDigits_eq_if (by decide)]
  split
  next small => exact ⟨[], by rw [Nat.mod_eq_of_lt small]; rfl⟩
  next large => exact ⟨_, rfl⟩

theorem toList_toString_int (value : Int) :
    (toString value).toList =
      if value < 0 then '-' :: Nat.toDigits 10 value.natAbs else Nat.toDigits 10 value.natAbs := by
  cases value with
  | ofNat n =>
      show (Nat.repr n).toList = _
      simp
  | negSucc n =>
      show ("-" ++ Nat.repr (n + 1)).toList = _
      simp

namespace Text

theorem digit?_of_isDigit {c : Char} (digit : c.isDigit = true) :
    digit? c = some (c.toNat - '0'.toNat) ∧ c.toNat - '0'.toNat < 10 := by
  have bounds : '0' ≤ c ∧ c ≤ '9' := by
    simpa [Char.isDigit, Char.le_def] using digit
  refine ⟨by rw [digit?, if_pos bounds], ?_⟩
  have upper : c.toNat ≤ '9'.toNat := bounds.2
  have nine : '9'.toNat = 57 := rfl
  have zero : '0'.toNat = 48 := rfl
  omega

theorem digits?_of_isDigit {digits : List Char} (nonempty : digits ≠ [])
    (all : ∀ c ∈ digits, c.isDigit = true) :
    digits? 10 digits = some (Nat.ofDigitChars 10 digits 0) := by
  have reads (read : Nat) : digits.foldlM (fun value c => do
      let digit ← digit? c
      if digit < 10 then some (value * 10 + digit) else none) read =
        some (Nat.ofDigitChars 10 digits read) := by
    clear nonempty
    induction digits generalizing read with
    | nil => simp
    | cons c digits ih =>
        obtain ⟨digit, small⟩ := digit?_of_isDigit (all c List.mem_cons_self)
        rw [List.foldlM_cons, digit, Nat.ofDigitChars_cons, Nat.mul_comm 10]
        simp only [Option.bind_eq_bind, Option.bind_some, if_pos small]
        exact ih (fun other member => all other (List.mem_cons_of_mem _ member)) _
  rw [digits?, if_neg (by simpa using nonempty)]
  exact reads 0

@[simp] theorem digits?_toDigits (n : Nat) : digits? 10 (Nat.toDigits 10 n) = some n := by
  rw [digits?_of_isDigit Nat.toDigits_ne_nil fun c => isDigit_of_mem_toDigits,
    Nat.ofDigitChars_ten_toDigits]

end Text

namespace Yaml

theorem splitSign_of_isDigit (negative : Bool) {c : Char} (rest : List Char)
    (digit : c.isDigit = true) :
    splitSign (if negative then '-' :: c :: rest else c :: rest) = (negative, c :: rest) := by
  cases negative with
  | true => rfl
  | false =>
      unfold splitSign
      split
      next other same =>
        cases (List.cons.inj same).1
        cases digit
      next other same =>
        cases (List.cons.inj same).1
        cases digit
      next => rfl

theorem splitSign_toDigits (n : Nat) :
    splitSign (Nat.toDigits 10 n) = (false, Nat.toDigits 10 n) := by
  obtain ⟨c, rest, digits⟩ := List.exists_cons_of_ne_nil (Nat.toDigits_ne_nil (n := n) (b := 10))
  have digit : c.isDigit = true := isDigit_of_mem_toDigits (n := n) (by simp [digits])
  rw [digits]
  exact splitSign_of_isDigit false rest digit

theorem splitSign_toString (value : Int) :
    splitSign (toString value).toList = (decide (value < 0), Nat.toDigits 10 value.natAbs) := by
  rw [toList_toString_int]
  split
  next negative => simp [splitSign, negative]
  next positive => simp [splitSign_toDigits, positive]

theorem exponent?_of_power (power : Int) :
    exponent? ((if 0 < power then ['e', '+'] else ['e']) ++ (toString power).toList) =
      some power := by
  split
  next positive =>
    rw [toList_toString_int, if_neg (by omega)]
    simp [exponent?, splitSign]
    omega
  next =>
    have value : (if power < 0 then -(power.natAbs : Int) else power.natAbs) = power := by omega
    simp only [List.singleton_append, exponent?, splitSign_toString, true_or, if_true,
      Text.digits?_toDigits, decide_eq_true_eq]
    exact congrArg some value

theorem decimal?_of_parts {negative : Bool} {whole middle fraction tail : List Char} {power : Int}
    (nonempty : whole ≠ []) (all : ∀ c ∈ whole, c.isDigit = true)
    (behind : ∀ c ∈ fraction, c.isDigit = true)
    (point : middle = '.' :: fraction ∨ middle = [] ∧ fraction = [])
    (ends : ∀ c ∈ tail.head?, c.isDigit = false ∧ c ≠ '.')
    (exponent : exponent? tail = some power) :
    decimal? (if negative then '-' :: (whole ++ (middle ++ tail)) else whole ++ (middle ++ tail)) =
      some (Decimal.ofDigits negative (whole ++ fraction) (power - fraction.length)) := by
  have taken {digits : List Char} (all : ∀ c ∈ digits, c.isDigit = true) (rest : List Char)
      (stops : ∀ c ∈ rest.head?, c.isDigit = false) :
      (digits ++ rest).takeWhile Char.isDigit = digits ∧
        (digits ++ rest).dropWhile Char.isDigit = rest := by
    rw [List.takeWhile_append_of_pos all, List.dropWhile_append_of_pos all]
    cases rest with
    | nil => simp
    | cons c rest => simp [stops c rfl]
  obtain ⟨c, chars, rfl⟩ := List.exists_cons_of_ne_nil nonempty
  have sign := splitSign_of_isDigit negative (chars ++ (middle ++ tail))
    (all c List.mem_cons_self)
  unfold decimal?
  rw [List.cons_append, sign]
  simp only [← List.cons_append]
  cases point with
  | inl pointed =>
      subst pointed
      obtain ⟨front, back⟩ := taken all ('.' :: fraction ++ tail) (by simp)
      obtain ⟨inner, outer⟩ := taken behind tail fun c first => (ends c first).1
      rw [front, back]
      simp only [List.cons_append]
      rw [inner, outer]
      simp [exponent]
  | inr bare =>
      obtain ⟨rfl, rfl⟩ := bare
      obtain ⟨front, back⟩ := taken all tail fun c first => (ends c first).1
      rw [List.nil_append, front, back]
      cases tail with
      | nil => simp [exponent]
      | cons d tail =>
          have noPoint : d ≠ '.' := (ends d rfl).2
          split
          next same => exact (noPoint (List.cons.inj same).1).elim
          next => simp [exponent]

end Yaml

namespace Decimal

/-- No zero at the end of the digits could be a place of the exponent instead. -/
def InLowestTerms (decimal : Decimal) : Prop :=
  decimal.digits % 10 ≠ 0 ∨ decimal.digits = 0 ∧ decimal.exponent = 0

theorem ofDigits_padded {decimal : Decimal} (lowest : decimal.InLowestTerms) (before after : Nat) :
    ofDigits decimal.negative
      (List.replicate before '0' ++ Nat.toDigits 10 decimal.digits ++ List.replicate after '0')
      (decimal.exponent - after) = decimal := by
  obtain ⟨negative, digits, exponent⟩ := decimal
  cases lowest with
  | inl last =>
      obtain ⟨front, digitsEq⟩ := toDigits_concat digits
      have significant : Nat.digitChar (digits % 10) ≠ '0' := by simpa using last
      have zeros : ((List.replicate before '0' ++ Nat.toDigits 10 digits ++
          List.replicate after '0').reverse.takeWhile (· = '0')).length = after := by
        rw [digitsEq, List.reverse_append, List.reverse_replicate,
          List.takeWhile_append_of_pos (by simp)]
        simp [significant]
      have some : digits ≠ 0 := fun none => last (by simp [none])
      unfold ofDigits
      simp only [zeros, List.length_append, List.length_replicate]
      rw [Nat.add_sub_cancel, List.take_left' (by simp), Nat.ofDigitChars_append,
        Nat.ofDigitChars_replicate_zero, Nat.mul_zero, Nat.ofDigitChars_ten_toDigits, if_neg some]
      simp
  | inr zero =>
      obtain ⟨rfl, rfl⟩ := zero
      have all : List.replicate before '0' ++ Nat.toDigits 10 0 ++ List.replicate after '0' =
          List.replicate (before + 1 + after) '0' := by
        rw [Nat.toDigits_zero, ← List.replicate_succ', List.replicate_append_replicate]
      rw [all]
      simp [ofDigits]

theorem decimal?_of_padded {decimal : Decimal} (lowest : decimal.InLowestTerms)
    (whole middle fraction tail : List Char) (power : Int) (before after : Nat)
    (padded : whole ++ fraction =
      List.replicate before '0' ++ Nat.toDigits 10 decimal.digits ++ List.replicate after '0')
    (scale : power - fraction.length = decimal.exponent - after) (nonempty : whole ≠ [])
    (point : middle = '.' :: fraction ∨ middle = [] ∧ fraction = [])
    (ends : ∀ c ∈ tail.head?, c.isDigit = false ∧ c ≠ '.')
    (exponent : Yaml.exponent? tail = some power) :
    Yaml.decimal? (decimal.signed (whole ++ (middle ++ tail))).toList = some decimal := by
  have digit : ∀ c ∈ whole ++ fraction, c.isDigit = true := by
    intro c member
    rw [padded, List.mem_append, List.mem_append, List.mem_replicate, List.mem_replicate] at member
    obtain (⟨-, rfl⟩ | inside) | ⟨-, rfl⟩ := member
    · rfl
    · exact isDigit_of_mem_toDigits inside
    · rfl
  rw [signed, String.toList_ofList, Yaml.decimal?_of_parts nonempty
    (fun c member => digit c (List.mem_append_left _ member))
    (fun c member => digit c (List.mem_append_right _ member)) point ends exponent,
    padded, scale, ofDigits_padded lowest]

theorem decimal?_positional {decimal : Decimal} (lowest : decimal.InLowestTerms) :
    Yaml.decimal? decimal.positional.toList = some decimal := by
  have positive : 0 < (Nat.toDigits 10 decimal.digits).length := Nat.length_toDigits_pos
  have written (whole fraction : List Char) (before after : Nat)
      (padded : whole ++ fraction =
        List.replicate before '0' ++ Nat.toDigits 10 decimal.digits ++ List.replicate after '0')
      (scale : -(fraction.length : Int) = decimal.exponent - after) (nonempty : whole ≠ []) :
      Yaml.decimal? (decimal.signed (whole ++ '.' :: fraction)).toList = some decimal := by
    have read := decimal?_of_padded lowest whole ('.' :: fraction) fraction [] 0 before after padded
      (by rwa [Int.zero_sub]) nonempty (.inl rfl) (by simp) rfl
    rwa [List.append_nil] at read
  unfold positional
  split
  next integral =>
    apply written _ ['0'] 0 (decimal.exponent.toNat + 1)
    · simp [List.replicate_succ']
    · simp
      omega
    · simp [Nat.toDigits_ne_nil]
  next broken =>
    split
    next inside =>
      apply written _ _ 0 0
      · simp
      · rw [List.length_drop]
        unfold point at inside ⊢
        omega
      · apply List.ne_nil_of_length_pos
        rw [List.length_take]
        omega
    next small =>
      apply written ['0'] (List.replicate (-decimal.point).toNat '0' ++ _)
        ((-decimal.point).toNat + 1) 0
      · simp [List.replicate_succ]
      · rw [List.length_append, List.length_replicate]
        unfold point at small ⊢
        omega
      · simp

theorem decimal?_scientific {decimal : Decimal} (lowest : decimal.InLowestTerms) :
    Yaml.decimal? decimal.scientific.toList = some decimal := by
  have positive : 0 < (Nat.toDigits 10 decimal.digits).length := Nat.length_toDigits_pos
  unfold scientific
  simp only [List.append_assoc]
  apply decimal?_of_padded lowest _ _ ((Nat.toDigits 10 decimal.digits).drop 1) _
    (decimal.point - 1) 0 0
  · rw [List.take_append_drop]
    simp
  · rw [List.length_drop]
    unfold point
    omega
  · apply List.ne_nil_of_length_pos
    rw [List.length_take]
    omega
  · split
    next single => exact .inr ⟨rfl, List.drop_eq_nil_of_le (Nat.le_of_eq single)⟩
    next => exact .inl rfl
  · split <;> simp
  · exact Yaml.exponent?_of_power _

theorem decimal?_text {decimal : Decimal} (lowest : decimal.InLowestTerms) :
    Yaml.decimal? decimal.text.toList = some decimal := by
  unfold text
  split
  · exact decimal?_positional lowest
  · exact decimal?_scientific lowest

theorem text_inj {decimal other : Decimal} (lowest : decimal.InLowestTerms)
    (lowest' : other.InLowestTerms) (same : decimal.text = other.text) : decimal = other := by
  have read := decimal?_text lowest
  rw [same, decimal?_text lowest'] at read
  exact (Option.some.inj read).symm

theorem ofDigits_inLowestTerms (negative : Bool) {digits : List Char} (scale : Int)
    (all : ∀ c ∈ digits, c.isDigit = true) : (ofDigits negative digits scale).InLowestTerms := by
  have parts := List.takeWhile_append_dropWhile (p := (· = '0')) (l := digits.reverse)
  have kept : digits.take (digits.length - (digits.reverse.takeWhile (· = '0')).length) =
      (digits.reverse.dropWhile (· = '0')).reverse := by
    have lengths := congrArg List.length parts
    rw [List.length_append, List.length_reverse] at lengths
    conv_lhs => rw [← List.reverse_reverse digits, ← parts, List.reverse_append]
    exact List.take_left' (by simp)
  unfold ofDigits
  simp only [kept]
  split
  next none => exact .inr ⟨rfl, rfl⟩
  next some =>
    left
    cases last : digits.reverse.dropWhile (· = '0') with
    | nil => simp [last] at some
    | cons c front =>
        have member : c ∈ digits := by
          rw [← List.mem_reverse, ← parts, last]
          simp
        have nonzero : c ≠ '0' := by
          have stops := List.head?_dropWhile_not (· = '0') digits.reverse
          simpa [last] using stops
        obtain ⟨-, small⟩ := Text.digit?_of_isDigit (all c member)
        have place : c.toNat - '0'.toNat ≠ 0 := fun zero => by
          have lower : '0'.toNat ≤ c.toNat := by
            have digit := all c member
            simp only [Char.isDigit, Bool.and_eq_true, decide_eq_true_eq] at digit
            exact digit.1
          exact nonzero (Char.toNat_inj.1 (by omega))
        rw [List.reverse_cons, Nat.ofDigitChars_append, Nat.ofDigitChars_cons, Nat.ofDigitChars_nil]
        simp only
        omega

end Decimal

theorem Double.shortest_inLowestTerms (x : Double) : x.shortest.InLowestTerms := by
  unfold shortest
  cases found : (List.range 22).findSome? fun (places : Nat) => x.onGrid? (x.power - places) with
  | none => exact .inr ⟨rfl, rfl⟩
  | some decimal =>
      obtain ⟨places, -, onGrid⟩ := List.exists_of_findSome?_eq_some found
      have candidate := List.mem_of_find?_eq_some onGrid
      obtain ⟨digits, -, rfl⟩ := List.mem_map.1 candidate
      exact Decimal.ofDigits_inLowestTerms false _ fun c => isDigit_of_mem_toDigits

theorem Decimal.rounded?_inLowestTerms {decimal rounded : Decimal}
    (rounds : decimal.rounded? = some rounded) : rounded.InLowestTerms := by
  obtain ⟨double, -, result⟩ := Option.bind_eq_some_iff.1 rounds
  cases result
  exact double.shortest_inLowestTerms

end Cadence
