import Cadence.Yaml.Property
/-!
What tags say of nodes. The tags of YAML itself name kinds of scalars; a tag with an exclamation
mark in front belongs to the text, and its name is free.
-/

namespace Cadence.Yaml

inductive Tag where
  | null
  | bool
  | int
  | float
  | own (name : String)
  /-- A tag of the text's own whose name is no UTF-8, which says nothing. -/
  | garbled
  | other
  deriving DecidableEq

namespace Tag

def ofName (name : TagText) : Tag :=
  match String.fromUTF8? name.toByteArray with
  | some name => own name
  | none => garbled

def ofText (text : TagText) : Tag :=
  match text with
  | 0x21 :: name => ofName name
  | _ =>
    match String.fromUTF8? text.toByteArray with
    | some "tag:yaml.org,2002:null" => null
    | some "tag:yaml.org,2002:bool" => bool
    | some "tag:yaml.org,2002:int" => int
    | some "tag:yaml.org,2002:float" => float
    | _ => other

def name? : Tag → Option String
  | own name => some name
  | _ => none

end Tag

end Cadence.Yaml
