/-!
Binary numbers of 64 bits and the rounding to them. Only magnitudes are held: a sign changes
nothing in the rounding to the nearest.
-/

namespace Cadence

/-- The whole number nearest to a quotient; a half goes to the even neighbour. -/
def roundDiv (num den : Nat) : Nat :=
  let below := num / den
  let twice := 2 * (num % den)
  if twice < den ∨ (twice = den ∧ below % 2 = 0) then below else below + 1

/--
The number `mantissa · 2 ^ exponent`. The mantissa has 53 bits; at the least exponent it may have
fewer, so that no two values denote one number.
-/
structure Double where
  mantissa : Nat
  exponent : Int
  deriving DecidableEq

namespace Double

def leastExponent : Int := -1074

def greatestExponent : Int := 971

def zero : Double := ⟨0, leastExponent⟩

def order (num den : Nat) : Int :=
  let guess : Int := (num.log2 : Int) - (den.log2 : Int)
  if num <<< (-guess).toNat < den <<< guess.toNat then guess - 1 else guess

def nearest? (num den : Nat) : Option Double :=
  if num = 0 then some zero
  else
    let exponent := max (order num den - 52) leastExponent
    let mantissa := roundDiv (num <<< (-exponent).toNat) (den <<< exponent.toNat)
    let double : Double :=
      if mantissa < 1 <<< 53 then ⟨mantissa, exponent⟩ else ⟨1 <<< 52, exponent + 1⟩
    if double.exponent ≤ greatestExponent then some double else none

def ratio (x : Double) : Nat × Nat :=
  (x.mantissa <<< x.exponent.toNat, 1 <<< (-x.exponent).toNat)

def mul? (x y : Double) : Option Double :=
  nearest? (x.ratio.1 * y.ratio.1) (x.ratio.2 * y.ratio.2)

def div? (x y : Double) : Option Double :=
  nearest? (x.ratio.1 * y.ratio.2) (x.ratio.2 * y.ratio.1)

end Double

end Cadence
