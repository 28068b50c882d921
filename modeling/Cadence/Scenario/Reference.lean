import Cadence.Json.Basic
/-!
References to variables inside values. A string that starts with a dollar sign refers to the
variable named by the rest of it; objects are visited in key order.
-/

namespace Cadence

namespace Json

def reference? (text : String) : Option String :=
  match text.toList with
  | '$' :: name => some (String.ofList name)
  | _ => none

mutual

def references : Json → List String
  | str text => (reference? text).toList
  | arr items => itemReferences items
  | obj entries => entryReferences entries
  | null | bool _ | int _ | decimal _ => []

def itemReferences : List Json → List String
  | [] => []
  | item :: items => references item ++ itemReferences items

def entryReferences : List (String × Json) → List String
  | [] => []
  | (_, value) :: entries => references value ++ entryReferences entries

end

mutual

/-- Puts the values of variables in place of the references; the error is an unbound name. -/
def substitute (locals : Fields Json) : Json → Except String Json
  | str text =>
    match reference? text with
    | none => .ok (str text)
    | some name =>
      match locals.find? name with
      | some value => .ok value
      | none => .error name
  | arr items => do return arr (← substituteItems locals items)
  | obj entries => do return obj (← substituteEntries locals entries)
  | null => .ok null
  | bool value => .ok (bool value)
  | int value => .ok (int value)
  | decimal value => .ok (decimal value)

def substituteItems (locals : Fields Json) : List Json → Except String (List Json)
  | [] => .ok []
  | item :: items => do
    let item ← substitute locals item
    let items ← substituteItems locals items
    return item :: items

def substituteEntries (locals : Fields Json) :
    List (String × Json) → Except String (List (String × Json))
  | [] => .ok []
  | (key, value) :: entries => do
    let value ← substitute locals value
    let entries ← substituteEntries locals entries
    return (key, value) :: entries

end

end Json

def unboundMessage (name : String) : String :=
  s!"unbound variable '${name}'"

end Cadence
