import Cadence.Decimal.Shortest
import Cadence.Json.Basic
import Cadence.Text.Digits
/-!
Reading JSON text. Blanks may stand between tokens; of two entries with one key the later one
stays. Every reader takes the text that is left and gives back what it did not consume.
-/

namespace Cadence

namespace Json

def skipBlanks (text : List Char) : List Char :=
  text.dropWhile fun c => c = ' ' || c = '\n' || c = '\r' || c = '\t'

def readUnit (text : List Char) : Option (Nat × List Char) :=
  match text with
  | a :: b :: c :: d :: rest => do
    let unit ← Text.digits? 16 [a, b, c, d]
    return (unit, rest)
  | _ => none

/-- The character that a unit and, for a high surrogate, the unit escaped after it denote. -/
def readEscapedChar (text : List Char) : Option (Char × List Char) := do
  let (unit, rest) ← readUnit text
  if 0xd800 ≤ unit ∧ unit < 0xdc00 then
    match rest with
    | '\\' :: 'u' :: low =>
      let (second, rest) ← readUnit low
      if 0xdc00 ≤ second ∧ second < 0xe000 then
        return (Char.ofNat (0x10000 + (unit - 0xd800) * 1024 + (second - 0xdc00)), rest)
      else none
    | _ => none
  else if 0xdc00 ≤ unit ∧ unit < 0xe000 then none
  else return (Char.ofNat unit, rest)

def readString (fuel : Nat) (text : List Char) (read : List Char) : Option (String × List Char) :=
  match fuel, text with
  | 0, _ => none
  | _, [] => none
  | _, '"' :: rest => some (String.ofList read.reverse, rest)
  | fuel + 1, '\\' :: 'u' :: rest => do
    let (c, rest) ← readEscapedChar rest
    readString fuel rest (c :: read)
  | fuel + 1, '\\' :: c :: rest =>
    match c with
    | '"' | '\\' | '/' => readString fuel rest (c :: read)
    | 'b' => readString fuel rest ('\x08' :: read)
    | 'f' => readString fuel rest ('\x0c' :: read)
    | 'n' => readString fuel rest ('\n' :: read)
    | 'r' => readString fuel rest ('\r' :: read)
    | 't' => readString fuel rest ('\t' :: read)
    | _ => none
  | fuel + 1, c :: rest => if c.toNat < 0x20 then none else readString fuel rest (c :: read)

def readSign (text : List Char) : Bool × List Char :=
  match text with
  | '-' :: rest => (true, rest)
  | '+' :: rest => (false, rest)
  | _ => (false, text)

def readFraction (text : List Char) : Option (List Char × List Char) :=
  match text with
  | '.' :: rest =>
    let digits := rest.takeWhile Char.isDigit
    if digits.isEmpty then none else some (digits, rest.dropWhile Char.isDigit)
  | _ => some ([], text)

def readExponent (text : List Char) : Option (Option Int × List Char) :=
  match text with
  | e :: rest =>
    if e = 'e' ∨ e = 'E' then
      let (negative, rest) := readSign rest
      let digits := rest.takeWhile Char.isDigit
      let power : Int := Nat.ofDigitChars 10 digits 0
      if digits.isEmpty then none
      else some (some (if negative then -power else power), rest.dropWhile Char.isDigit)
    else some (none, text)
  | [] => some (none, [])

def appendDigits (value : Nat) : List Char → Nat × Nat
  | [] => (value, 0)
  | d :: digits =>
    let longer := 10 * value + (d.toNat - '0'.toNat)
    if longer < UInt64.size then
      let (value, count) := appendDigits longer digits
      (value, count + 1)
    else (value, 0)

def scaleLimit : Nat := 308

def scaleDown (x : Double) (power : Nat) : Option Double :=
  if x.mantissa = 0 then some x
  else if power ≤ scaleLimit then do x.div? (← Double.nearest? (Nat.pow 10 power) 1)
  else do
    let x ← x.div? (← Double.nearest? (Nat.pow 10 scaleLimit) 1)
    scaleDown x (power - scaleLimit)
termination_by power
decreasing_by simp_all [scaleLimit]; omega

def scaleUp (x : Double) (power : Nat) : Option Double :=
  if x.mantissa = 0 then some x
  else if power ≤ scaleLimit then do x.mul? (← Double.nearest? (Nat.pow 10 power) 1)
  else none

/--
Scales some digits by a power of ten. The digits that fit into 64 bits are rounded first and their
multiple is rounded again; of the others only those before the point count, as places.
-/
def readDouble (whole fraction : List Char) (power : Int) : Option Double := do
  let (value, read) := appendDigits 0 whole
  let (value, places) := appendDigits value fraction
  let power := power + (whole.length - read : Nat) - places
  let x ← Double.nearest? value 1
  if power < 0 then scaleDown x power.natAbs else scaleUp x power.natAbs

/--
An integer if neither a point nor a power of ten is written and the number has 64 bits, signed or
not; else a double. Zero with a minus sign is a double.
-/
def readNumber (text : List Char) : Option (Json × List Char) := do
  let (negative, unsigned) :=
    match text with
    | '-' :: rest => (true, rest)
    | _ => (false, text)
  let whole := unsigned.takeWhile Char.isDigit
  if whole.isEmpty then none
  let (fraction, rest) ← readFraction (unsigned.dropWhile Char.isDigit)
  let (exponent?, rest) ← readExponent rest
  let value := Nat.ofDigitChars 10 whole 0
  let fits := if negative then 0 < value && value ≤ UInt64.size / 2 else value < UInt64.size
  if fraction.isEmpty && exponent?.isNone && fits then
    return (int (if negative then -value else value), rest)
  else
    let double ← readDouble whole fraction (exponent?.getD 0)
    return (decimal { double.shortest with negative }, rest)

mutual

/-- Reads one value at the start of the text; `fuel` bounds the number of tokens. -/
def readValue : Nat → List Char → Option (Json × List Char)
  | 0, _ => none
  | fuel + 1, text =>
    match skipBlanks text with
    | 'n' :: 'u' :: 'l' :: 'l' :: rest => some (null, rest)
    | 't' :: 'r' :: 'u' :: 'e' :: rest => some (bool true, rest)
    | 'f' :: 'a' :: 'l' :: 's' :: 'e' :: rest => some (bool false, rest)
    | '"' :: rest => do
      let (text, rest) ← readString (rest.length + 1) rest []
      return (str text, rest)
    | '[' :: rest =>
      match skipBlanks rest with
      | ']' :: rest => some (arr [], rest)
      | rest => readItems fuel rest []
    | '{' :: rest =>
      match skipBlanks rest with
      | '}' :: rest => some (obj [], rest)
      | rest => readEntries fuel rest []
    | rest => readNumber rest

def readItems : Nat → List Char → List Json → Option (Json × List Char)
  | 0, _, _ => none
  | fuel + 1, text, read => do
    let (item, rest) ← readValue fuel text
    match skipBlanks rest with
    | ',' :: rest => readItems fuel rest (item :: read)
    | ']' :: rest => return (arr (item :: read).reverse, rest)
    | _ => none

def readEntries : Nat → List Char → Fields Json → Option (Json × List Char)
  | 0, _, _ => none
  | fuel + 1, text, read =>
    match skipBlanks text with
    | '"' :: rest => do
      let (key, rest) ← readString (rest.length + 1) rest []
      match skipBlanks rest with
      | ':' :: rest =>
        let (value, rest) ← readValue fuel rest
        let read := read.insert key value
        match skipBlanks rest with
        | ',' :: rest => readEntries fuel rest read
        | '}' :: rest => return (obj read, rest)
        | _ => none
      | _ => none
    | _ => none

end

def read? (text : String) : Option Json := do
  let chars := text.toList
  let (value, rest) ← readValue (chars.length + 1) chars
  if (skipBlanks rest).isEmpty then some value else none

end Json

end Cadence
