import Cadence.Scenario.Decode
import Cadence.Scenario.Validation
import Cadence.Yaml.Anchor
import Cadence.Yaml.Resolve
/-!
Scenario documents in YAML. What a scalar stands for depends on what is wanted in its place, so a
document is first turned into a value along the form of a scenario, and that value is then read.
-/

namespace Cadence

open Yaml

inductive Form where
  | any
  | text
  | variant
  | natural
  | list (item : Form)
  | fields
  | optional (form : Form)
  | struct (struct : Struct) (forms : List (String × Form))

namespace Form

def strip : Form → Form
  | optional form => strip form
  | form => form

def isLeftOut (tag : Option Tag) (written : String) (style : Style) : Bool :=
  style = .plain &&
    match tag with
    | none => isNull written
    | some tag => tag = .null && isWrittenNull written

def maySpellNumber (tag : Option Tag) (style : Style) : Bool :=
  style = .plain || (style = .literal && tag = some .int)

def ofScalar (tag : Option Tag) (written : String) (style : Style) : Form → Option Json
  | any => value? tag written style
  | text => some (.str written)
  | variant =>
    match tag.bind Tag.name? with
    | some name => if style = .plain && isNull written then some (.str name) else none
    | none => some (.str written)
  | natural => do
    if !maySpellNumber tag style || written.toList.head? = some '-' then none
    return .int (← integer? written.toList)
  | list _ => if style = .plain && written.isEmpty then some (.arr []) else none
  | fields | struct _ _ => if style = .plain && written.isEmpty then some (.obj []) else none
  | optional form =>
    if isLeftOut tag written style then some .null
    else if style = .plain && tag = some .null then none
    else ofScalar tag written style form

def admits (tag : Option Tag) : Form → Bool
  | any => (tag.bind Tag.name?).isNone
  | _ => true

def readKey (targets : List (Nat × Node)) (key : Node) : Visit String := do
  match (← key.visit targets).2 with
  | .scalar written _ => return written
  | _ => failure

def readEntry (targets : List (Nat × Node)) (read : Form → Node → Visit Json)
    (known : Fields Json) (entry : Node × Node) : Visit (Fields Json) := do
  let key ← readKey targets entry.1
  return known.insert key (← read any entry.2)

def readField (targets : List (Nat × Node)) (read : Form → Node → Visit Json)
    (forms : List (String × Form)) (known : Fields Json) (entry : Node × Node) :
    Visit (Fields Json) := do
  let key ← readKey targets entry.1
  match forms.lookup key with
  | none => return known.insert key .null
  | some form =>
    if (known.find? key).isSome then failure
    return known.insert key (← read form entry.2)

/-- Turns a node in which at most `depth` collections are nested into a value along a form. -/
def read (targets : List (Nat × Node)) (depth : Nat) (form : Form) (node : Node) : Visit Json := do
  let (tag, node) ← node.visit targets
  if !form.strip.admits tag then failure
  match depth, node, form.strip with
  | _, .scalar written style, _ => ofScalar tag written style form
  | depth + 1, .seq items, any => return .arr (← items.mapM (read targets depth any))
  | depth + 1, .seq items, list item => return .arr (← items.mapM (read targets depth item))
  | depth + 1, .map entries, any | depth + 1, .map entries, fields =>
    return .obj (← entries.foldlM (readEntry targets (read targets depth)) [])
  | depth + 1, .map entries, struct _ forms =>
    return .obj (← entries.foldlM (readField targets (read targets depth) forms) [])
  | _, _, _ => failure

end Form

namespace Scenario

def structForm (struct : Struct) (forms : List Form) : Form :=
  .struct struct (struct.fields.zip forms)

def Call.form : Form :=
  structForm Call.struct [.text, .text, .list .any, .optional .text]

def Await.form : Form :=
  structForm Await.struct [.variant, .list Call.form, .optional .text]

def Instruction.form : Form :=
  structForm Instruction.struct
    [.any, .optional .natural, .optional Call.form, .optional Await.form, .any]

def Method.form : Form :=
  structForm Method.struct [.text, .list .text, .list Instruction.form]

def Service.form : Form :=
  structForm Service.struct [.text, .optional .text, .fields, .list Method.form]

def Timer.form : Form :=
  structForm Timer.struct [.text, .natural, Call.form]

def Interval.form : Form :=
  structForm Interval.struct [.text, .natural, Call.form]

def Collapse.form : Form :=
  structForm Collapse.struct [.text, .list .text]

def form : Form :=
  structForm struct
    [.optional (structForm Limits.struct [.natural, .natural]), .list Service.form, .list Call.form,
      .list Timer.form, .list Interval.form, .list Collapse.form]

def depthLimit : Nat := 128

/-- How many aliases may be followed, for each unit of the size of a document. -/
def aliasLimit : Nat := 100

def parse? (text : String) : Option Scenario := do
  let node ← Node.parse? text
  let value ← (form.read node.targets.reverse depthLimit node).run' (aliasLimit * node.size)
  (decode value).toOption

end Scenario

end Cadence
