import Cadence.Json.Basic
/-!
Compact JSON text: no spaces, entries in the order the object holds them, and only the escapes
that JSON demands.
-/

namespace Cadence

/--
Positional while the point lies within sixteen digits or at most four places before the first
digit; with a power of ten otherwise.
-/
def Decimal.text (d : Decimal) : String :=
  if -5 < d.point ∧ d.point ≤ 16 then d.positional else d.scientific

namespace Json

def escape (c : Char) : List Char :=
  match c with
  | '"' => ['\\', '"']
  | '\\' => ['\\', '\\']
  | '\x08' => ['\\', 'b']
  | '\x0c' => ['\\', 'f']
  | '\n' => ['\\', 'n']
  | '\r' => ['\\', 'r']
  | '\t' => ['\\', 't']
  | c =>
    if c.toNat < 0x20 then
      ['\\', 'u', '0', '0', Nat.digitChar (c.toNat / 16), Nat.digitChar (c.toNat % 16)]
    else [c]

def emitString (text : String) (rest : List Char) : List Char :=
  '"' :: (text.toList.flatMap escape ++ '"' :: rest)

mutual

/-- The compact text of a value in front of `rest`. -/
def emit : Json → List Char → List Char
  | null, rest => "null".toList ++ rest
  | bool true, rest => "true".toList ++ rest
  | bool false, rest => "false".toList ++ rest
  | int value, rest => (toString value).toList ++ rest
  | decimal value, rest => value.text.toList ++ rest
  | str text, rest => emitString text rest
  | arr items, rest => '[' :: emitItems items (']' :: rest)
  | obj entries, rest => '{' :: emitEntries entries ('}' :: rest)

def emitItems : List Json → List Char → List Char
  | [], rest => rest
  | [item], rest => emit item rest
  | item :: next :: items, rest => emit item (',' :: emitItems (next :: items) rest)

def emitEntries : List (String × Json) → List Char → List Char
  | [], rest => rest
  | [(key, value)], rest => emitString key (':' :: emit value rest)
  | (key, value) :: next :: entries, rest =>
    emitString key (':' :: emit value (',' :: emitEntries (next :: entries) rest))

end

def compact (value : Json) : String :=
  String.ofList (value.emit [])

end Json

end Cadence
