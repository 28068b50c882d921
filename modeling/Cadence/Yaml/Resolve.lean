import Cadence.Decimal.Shortest
import Cadence.Json.Basic
import Cadence.Text.Digits
import Cadence.Yaml.Scalar
import Cadence.Yaml.Tag
/-!
What a scalar stands for: null, a truth value, a number, or its own text.
-/

namespace Cadence.Yaml

open Text (digits?)

def splitSign (text : List Char) : Bool × List Char :=
  match text with
  | '-' :: rest => (true, rest)
  | '+' :: rest => (false, rest)
  | _ => (false, text)

def hasLeadingZero (digits : List Char) : Bool :=
  digits.head? = some '0' && 1 < digits.length && digits.all Char.isDigit

def integer? (text : List Char) : Option Int := do
  let (negative, unsigned) := splitSign text
  let value ←
    match unsigned with
    | '0' :: 'x' :: rest => digits? 16 rest
    | '0' :: 'o' :: rest => digits? 8 rest
    | '0' :: 'b' :: rest => digits? 2 rest
    | _ => if hasLeadingZero unsigned then none else digits? 10 unsigned
  return if negative then -value else value

def exponent? (text : List Char) : Option Int :=
  match text with
  | [] => some 0
  | e :: rest =>
    if e = 'e' ∨ e = 'E' then do
      let (negative, digits) := splitSign rest
      let value ← digits? 10 digits
      return if negative then -value else value
    else none

def decimal? (text : List Char) : Option Decimal := do
  let (negative, unsigned) := splitSign text
  let whole := unsigned.takeWhile Char.isDigit
  let rest := unsigned.dropWhile Char.isDigit
  let (fraction, rest) :=
    match rest with
    | '.' :: rest => (rest.takeWhile Char.isDigit, rest.dropWhile Char.isDigit)
    | _ => ([], rest)
  if whole.isEmpty && fraction.isEmpty then none
  let exponent ← exponent? rest
  return Decimal.ofDigits negative (whole ++ fraction) (exponent - fraction.length)

def isNull (text : String) : Bool :=
  text = "" || text = "~" || text = "null" || text = "Null" || text = "NULL"

def bool? (text : String) : Option Bool :=
  if text = "true" || text = "True" || text = "TRUE" then some true
  else if text = "false" || text = "False" || text = "FALSE" then some false
  else none

def fits (size : Nat) (value : Int) : Bool :=
  -((size / 2 : Nat) : Int) ≤ value ∧ value < size

def isInfinite (text : String) : Bool :=
  [".inf", ".Inf", ".INF", "+.inf", "+.Inf", "+.INF", "-.inf", "-.Inf", "-.INF",
    ".nan", ".NaN", ".NAN"].contains text

def double? (text : String) : Option Json :=
  if isInfinite text then some .null
  else do return .decimal (← (← decimal? text.toList).rounded?)

def doubleOrText (text : String) : Json :=
  if hasLeadingZero (splitSign text.toList).2 then .str text
  else (double? text).getD (.str text)

/--
The value of a plain scalar. An integer of more than 64 bits has none; one of more than 128 bits
counts as a decimal if it is written in base ten.
-/
def resolve? (text : String) : Option Json :=
  if isNull text then some .null
  else
    match bool? text, integer? text.toList with
    | some value, _ => some (.bool value)
    | none, some value =>
      if fits UInt64.size value then some (.int value)
      else if fits (UInt64.size * UInt64.size) value then none
      else some (doubleOrText text)
    | none, none => some (doubleOrText text)

def isWrittenNull (text : String) : Bool :=
  isNull text && !text.isEmpty

/-- The value of a scalar. A tag may demand a kind of value, whatever the style. -/
def value? (tag : Option Tag) (text : String) (style : Style) : Option Json :=
  match tag with
  | some .null => if isWrittenNull text then some .null else none
  | some .bool => (bool? text).map .bool
  | some .int => do
    let value ← integer? text.toList
    if fits UInt64.size value then some (.int value) else none
  | some .float => double? text
  | some (.own _) => none
  | some .other => some (.str text)
  | none | some .garbled => if style = .plain then resolve? text else some (.str text)

end Cadence.Yaml
