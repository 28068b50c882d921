import Cadence.Decimal.Basic
import Cadence.Decimal.Double
/-!
Decimals and doubles. A decimal is read as the double nearest to it; a double is written as the
decimal with the fewest digits that is read as that double, and of several the nearest.
-/

namespace Cadence

namespace Double

/-- The double nearest to a decimal. Beyond these places of the point it is none or zero. -/
def ofDecimal? (d : Decimal) : Option Double :=
  if d.digits = 0 ∨ d.point < -330 then some zero
  else if 310 < d.point then none
  else nearest? (d.digits * Nat.pow 10 d.exponent.toNat) (Nat.pow 10 (-d.exponent).toNat)

def neighbours (x : Double) (power : Int) : List Nat :=
  let num := x.ratio.1 * Nat.pow 10 (-power).toNat
  let den := x.ratio.2 * Nat.pow 10 power.toNat
  let nearest := roundDiv num den
  if nearest * den ≤ num then [nearest, nearest + 1] else [nearest, nearest - 1]

def onGrid? (x : Double) (power : Int) : Option Decimal :=
  let candidates := (x.neighbours power).map fun digits =>
    Decimal.ofDigits false (Nat.toDigits 10 digits) power
  candidates.find? fun d => ofDecimal? d = some x

def power (x : Double) : Int :=
  (x.mantissa.log2 + x.exponent + 1) * 3 / 10 + 2

/-- The shortest decimal of a double. The first grid that has one is at most 21 places down. -/
def shortest (x : Double) : Decimal :=
  let decimal? := (List.range 22).findSome? fun (places : Nat) => x.onGrid? (x.power - places)
  decimal?.getD ⟨false, 0, 0⟩

end Double

def Decimal.rounded? (d : Decimal) : Option Decimal := do
  let double ← Double.ofDecimal? d
  return { double.shortest with negative := d.negative }

end Cadence
