/-!
Numbers in base ten: digits and the place of the point.
-/

namespace Cadence

/--
The number `±digits · 10 ^ exponent`. In lowest terms `digits` does not end in zero, and zero has
exponent zero.
-/
structure Decimal where
  negative : Bool
  digits : Nat
  exponent : Int
  deriving DecidableEq

namespace Decimal

/-- The decimal in lowest terms with the given digits, scaled by a power of ten. -/
def ofDigits (negative : Bool) (digits : List Char) (scale : Int) : Decimal :=
  let zeros := (digits.reverse.takeWhile (· = '0')).length
  let significant := Nat.ofDigitChars 10 (digits.take (digits.length - zeros)) 0
  if significant = 0 then ⟨negative, 0, 0⟩ else ⟨negative, significant, scale + zeros⟩

def point (d : Decimal) : Int :=
  (Nat.toDigits 10 d.digits).length + d.exponent

def signed (d : Decimal) (unsigned : List Char) : String :=
  String.ofList (if d.negative then '-' :: unsigned else unsigned)

def positional (d : Decimal) : String :=
  let digits := Nat.toDigits 10 d.digits
  d.signed <|
    if 0 ≤ d.exponent then digits ++ List.replicate d.exponent.toNat '0' ++ ['.', '0']
    else if 0 < d.point then digits.take d.point.toNat ++ '.' :: digits.drop d.point.toNat
    else '0' :: '.' :: List.replicate (-d.point).toNat '0' ++ digits

def scientific (d : Decimal) : String :=
  let digits := Nat.toDigits 10 d.digits
  let fraction := if digits.length = 1 then [] else '.' :: digits.drop 1
  let power := d.point - 1
  let mark := if 0 < power then ['e', '+'] else ['e']
  d.signed (digits.take 1 ++ fraction ++ mark ++ (toString power).toList)

end Decimal

end Cadence
