import Cadence.Text.Digits
import Cadence.Yaml.Cursor
/-!
What may stand before a node: its anchor and its tag. A tag is written out or shortened by a
handle, and directives at the start of a text declare handles.
-/

namespace Cadence.Yaml

def isNameChar (c : Char) : Bool :=
  c.isAlphanum || c = '_' || c = '-'

def readName (c : Cursor) : Option (String × Cursor) := do
  let name := c.rest.takeWhile isNameChar
  let c := c.skip name.length
  if name.isEmpty || !(c.endsWord 0 || c.sees "?:,]\x7d%@`".toList.contains) then none
  return (String.ofList name, c)

/-- The text of a tag. Escapes may spell octets that are no characters together. -/
abbrev TagText := List UInt8

def TagText.ofString (text : String) : TagText :=
  text.toUTF8.data.toList

def TagText.untilZero (text : TagText) : TagText :=
  text.takeWhile (· ≠ 0)

def octet? (text : List Char) : Option Nat :=
  match text with
  | '%' :: high :: low :: _ => Text.digits? 16 [high, low]
  | _ => none

def octetCount (first : Nat) : Option Nat :=
  if first < 0x80 then some 1
  else if first < 0xc0 then none
  else if first < 0xe0 then some 2
  else if first < 0xf0 then some 3
  else if first < 0xf8 then some 4
  else none

def continuation? : Nat → List Char → Option (List Nat)
  | 0, _ => some []
  | count + 1, text => do
    let octet ← octet? text
    if octet < 0x80 ∨ 0xc0 ≤ octet then none
    return octet :: (← continuation? count (text.drop 3))

def isTagChar (inBrackets : Bool) (c : Char) : Bool :=
  isNameChar c || ";/?:@&=+$.!~*'()".toList.contains c
    || (inBrackets && ",[]".toList.contains c)

def readTagText (inBrackets : Bool) : Nat → TagText → Cursor → Option (TagText × Cursor)
  | 0, _, _ => none
  | fuel + 1, text, c =>
    match c.rest with
    | '%' :: _ => do
      let first ← octet? c.rest
      let count ← octetCount first
      let octets := first :: (← continuation? (count - 1) (c.rest.drop 3))
      let text := (octets.map Nat.toUInt8).reverse ++ text
      readTagText inBrackets fuel text (c.skip (3 * count))
    | next :: _ =>
      if isTagChar inBrackets next then
        readTagText inBrackets fuel (next.toNat.toUInt8 :: text) (c.skip 1)
      else some (text.reverse, c)
    | [] => some (text.reverse, c)

def readHandle (c : Cursor) : String × Cursor :=
  let name := (c.rest.drop 1).takeWhile isNameChar
  let length := name.length + 1
  let length := if c.ahead? length = some '!' then length + 1 else length
  (String.ofList (c.rest.take length), c.skip length)

def isHandle (text : String) : Bool :=
  1 < text.length && text.toList.getLast? = some '!'

/--
Reads a tag as its handle and the rest. A tag in angle brackets has no handle, and neither has the
exclamation mark alone.
-/
def readTag (inFlow : Bool) (c : Cursor) : Option (String × TagText × Cursor) := do
  let fuel := c.rest.length + 1
  let (handle, suffix, c) ←
    if c.ahead? 1 = some '<' then do
      let (suffix, c) ← readTagText true fuel [] (c.skip 2)
      if suffix.isEmpty || !c.isAt '>' then none
      pure ("", suffix.untilZero, c.skip 1)
    else do
      let (handle, c) := readHandle c
      if isHandle handle then
        let (suffix, c) ← readTagText false fuel [] c
        if suffix.isEmpty then none
        pure (handle, suffix.untilZero, c)
      else
        let start := TagText.ofString (handle.drop 1).toString
        let (suffix, c) ← readTagText false fuel start.reverse c
        let suffix := suffix.untilZero
        pure (if suffix.isEmpty then ("", TagText.ofString "!", c) else ("!", suffix, c))
  if c.endsWord 0 || (inFlow && c.isAt ',') then return (handle, suffix, c) else none

inductive Directive where
  | version (major minor : Nat)
  | handle (name : String) (stem : TagText)
  deriving DecidableEq

def readNumber (c : Cursor) : Option (Nat × Cursor) := do
  let digits := c.rest.takeWhile Char.isDigit
  if 9 < digits.length then none
  return (← Text.digits? 10 digits, c.skip digits.length)

def readVersion (c : Cursor) : Option (Directive × Cursor) := do
  let (major, c) ← readNumber c
  if !c.isAt '.' then none
  let (minor, c) ← readNumber (c.skip 1)
  return (.version major minor, c)

def readHandleDirective (c : Cursor) : Option (Directive × Cursor) := do
  if !c.isAt '!' then none
  let (name, c) := readHandle c
  if !(name = "!" || isHandle name) || !c.sees isBlank then none
  let c := c.skipWhile isBlank
  let (stem, c) ← readTagText true (c.rest.length + 1) [] c
  if stem.isEmpty || !c.endsWord 0 then none
  return (.handle name stem.untilZero, c)

def readDirective (c : Cursor) : Option (Directive × Cursor) := do
  let name := c.rest.takeWhile isNameChar
  let c := c.skip name.length
  if !c.endsWord 0 then none
  let c := c.skipWhile isBlank
  let (directive, c) ←
    match String.ofList name with
    | "YAML" => readVersion c
    | "TAG" => readHandleDirective c
    | _ => none
  let c := c.skipWhile isBlank
  let c := if c.isAt '#' then c.skipWhile (!isBreak ·) else c
  if !c.atEnd && !c.sees isBreak then none
  return (directive, c.readBreak.2)

def commonHandles : List (String × TagText) :=
  [("!", .ofString "!"), ("!!", .ofString "tag:yaml.org,2002:")]

def Directive.follows (earlier : List Directive) : Directive → Bool
  | .version major minor =>
    major = 1 && (minor = 1 || minor = 2)
      && earlier.all fun
        | .version _ _ => false
        | .handle _ _ => true
  | .handle name _ =>
    earlier.all fun
      | .version _ _ => true
      | .handle other _ => other ≠ name

def handles? (earlier : List Directive) : List Directive → Option (List (String × TagText))
  | [] => some commonHandles
  | directive :: rest =>
    if directive.follows earlier then do
      let handles ← handles? (directive :: earlier) rest
      match directive with
      | .version _ _ => return handles
      | .handle name stem => return (name, stem) :: handles
    else none

end Cadence.Yaml
