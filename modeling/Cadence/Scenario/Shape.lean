import Cadence.Json.Text
import Cadence.Text.Hidden
/-!
Reading typed data out of values. The entries of a struct are read in key order, and the first one
that does not fit decides the error; only then are fields missed.
-/

namespace Cadence

inductive ShapeError where
  | invalidType (got : Json) (want : String)
  | invalidInteger (value : Int) (want : String)
  | missingField (name : String)
  | unknownField (name : String) (known : List String)
  | unknownVariant (name : String) (known : List String)
  | instructionCount (found : Nat)
  | invalidLength (length : Nat) (want : String)
  | variantCount

namespace ShapeError

def quoteChar (c : Char) : List Char :=
  match c with
  | '"' => ['\\', '"']
  | '\\' => ['\\', '\\']
  | '\n' => ['\\', 'n']
  | '\r' => ['\\', 'r']
  | '\t' => ['\\', 't']
  | '\x00' => ['\\', '0']
  | c =>
    if Text.isHidden c then
      "\\u\x7b".toList ++ Nat.toDigits 16 c.toNat ++ ['\x7d']
    else [c]

def quote (text : String) : String :=
  "\"" ++ String.ofList (text.toList.flatMap quoteChar) ++ "\""

def describe : Json → String
  | .null => "null"
  | .bool value => s!"boolean `{value}`"
  | .int value => s!"integer `{value}`"
  | .decimal value => s!"floating point `{value.text}`"
  | .str text => "string " ++ quote text
  | .arr _ => "sequence"
  | .obj _ => "map"

def alternatives (names : List String) : String :=
  ", ".intercalate (names.map fun name => s!"`{name}`")

def message : ShapeError → String
  | invalidType got want => s!"invalid type: {describe got}, expected {want}"
  | invalidInteger value want => s!"invalid value: integer `{value}`, expected {want}"
  | missingField name => s!"missing field `{name}`"
  | unknownField name known => s!"unknown field `{name}`, expected one of {alternatives known}"
  | unknownVariant name known =>
    s!"unknown variant `{name}`, expected one of {alternatives known}"
  | instructionCount found =>
    "instruction must have exactly one of log, sleep, call, await, return "
      ++ s!"(found {found})"
  | invalidLength length want => s!"invalid length {length}, expected {want}"
  | variantCount => "invalid value: map, expected map with a single key"

end ShapeError

abbrev Reader (α : Type) := Json → Except ShapeError α

namespace Reader

def any : Reader Json := .ok

def text : Reader String
  | .str text => .ok text
  | got => .error (.invalidType got "a string")

def natural (want : String) (greatest : Nat) : Reader Nat
  | .int value =>
    if 0 ≤ value ∧ value ≤ greatest then .ok value.toNat
    else .error (.invalidInteger value want)
  | got => .error (.invalidType got want)

def list {α : Type} (item : Reader α) : Reader (List α)
  | .arr items => items.mapM item
  | got => .error (.invalidType got "a sequence")

def fields : Reader (Fields Json)
  | .obj entries => .ok entries
  | got => .error (.invalidType got "a map")

def optional {α : Type} (reader : Reader α) : Reader (Option α)
  | .null => .ok none
  | value => some <$> reader value

def variant {α : Type} (variants : List (String × α)) : Reader α
  | .str name => find name
  | .obj [(name, value)] => do
    let found ← find name
    match value with
    | .null => return found
    | got => throw (.invalidType got "unit")
  | .obj _ => .error .variantCount
  | got => .error (.invalidType got "string or map")
where
  find (name : String) : Except ShapeError α :=
    match variants.lookup name with
    | some found => .ok found
    | none => .error (.unknownVariant name (variants.map (·.1)))

end Reader

structure Struct where
  name : String
  fields : List String

namespace Struct

/-- The entries of a struct: those of a map, or the items of a sequence in declaration order. -/
def entries (struct : Struct) : Reader (List (String × Json))
  | .obj entries => .ok entries
  | .arr items => .ok (struct.fields.zip items)
  | got => .error (.invalidType got s!"struct {struct.name}")

def checkLength (struct : Struct) : Reader Unit
  | .arr items =>
    if struct.fields.length < items.length then
      .error (.invalidLength items.length "fewer elements in array")
    else .ok ()
  | _ => .ok ()

def missing (struct : Struct) (value : Json) (field : String) : ShapeError :=
  match value with
  | .arr _ =>
    .invalidLength (struct.fields.idxOf field)
      s!"struct {struct.name} with {struct.fields.length} elements"
  | _ => .missingField field

def require {α : Type} (struct : Struct) (value : Json) (field : String) :
    Option α → Except ShapeError α
  | some a => .ok a
  | none => .error (struct.missing value field)

def read {α : Type} (struct : Struct) (enter : α → String → Reader α) (draft : α) : Reader α :=
  fun value => do
    let entries ← struct.entries value
    let draft ← entries.foldlM (fun draft entry => enter draft entry.1 entry.2) draft
    struct.checkLength value
    return draft

end Struct

end Cadence
