import Cadence.Yaml.Tag
import Cadence.Yaml.Token
/-!
YAML documents as trees of nodes. A text holds exactly one document.
-/

namespace Cadence.Yaml

inductive Node where
  | scalar (text : String) (style : Style)
  | seq (items : List Node)
  | map (entries : List (Node × Node))
  | tagged (tag : Tag) (node : Node)
  | anchored (number : Nat) (node : Node)
  /--
  Stands for the last node whose anchor has the number. That may be a node around the alias, or
  one behind it.
  -/
  | aliasOf (number : Nat)
  deriving Inhabited

structure Properties where
  anchor : Option Nat := none
  tag : Option Tag := none
  deriving DecidableEq

namespace Properties

def read (tokens : List Token) : Properties × List Token :=
  match tokens with
  | .anchor number :: .tag _ tag :: rest => (⟨some number, some (.ofText tag)⟩, rest)
  | .tag _ tag :: .anchor number :: rest => (⟨some number, some (.ofText tag)⟩, rest)
  | .anchor number :: rest => (⟨some number, none⟩, rest)
  | .tag _ tag :: rest => (⟨none, some (.ofText tag)⟩, rest)
  | _ => ({}, tokens)

def apply (properties : Properties) (node : Node) : Node :=
  let node := (properties.tag.map (.tagged · node)).getD node
  (properties.anchor.map (.anchored · node)).getD node

end Properties

namespace Node

def empty : Node := scalar "" .plain

def orEmpty (ends : List Token) (read : List Token → Option (Node × List Token))
    (tokens : List Token) : Option (Node × List Token) :=
  match tokens with
  | [] => some (empty, [])
  | token :: _ => if token ∈ ends then some (empty, tokens) else read tokens

def isContent (inBlock underKey : Bool) : Token → Bool
  | .scalar _ _ | .sequenceStart | .mappingStart => true
  | .blockSequenceStart | .blockMappingStart => inBlock
  | .blockEntry => underKey
  | _ => false

mutual

/--
Reads a node. Block collections may stand where `inBlock` holds; under a key a sequence may stand
at the key's own column. Properties alone belong to an empty node.
-/
def read : Nat → Bool → Bool → List Token → Option (Node × List Token)
  | 0, _, _, _ => none
  | fuel + 1, inBlock, underKey, tokens =>
    match tokens with
    | .aliasOf number :: rest => some (aliasOf number, rest)
    | _ =>
      let (properties, tokens) := Properties.read tokens
      if tokens.head?.any (isContent inBlock underKey) then do
        let (node, rest) ← readContent fuel tokens
        return (properties.apply node, rest)
      else if properties = {} then none
      else some (properties.apply empty, tokens)

def readContent : Nat → List Token → Option (Node × List Token)
  | 0, _ => none
  | fuel + 1, tokens =>
    match tokens with
    | .scalar text style :: rest => some (scalar text style, rest)
    | .sequenceStart :: rest => readSequence fuel true [] rest
    | .mappingStart :: rest => readMapping fuel true [] rest
    | .blockEntry :: _ => readColumn fuel [] tokens
    | .blockSequenceStart :: rest => readBlockSequence fuel [] rest
    | .blockMappingStart :: rest => readBlockMapping fuel [] rest
    | _ => none

def readBlockSequence : Nat → List Node → List Token → Option (Node × List Token)
  | 0, _, _ => none
  | fuel + 1, items, tokens =>
    match tokens with
    | .blockEntry :: rest => do
      let (item, rest) ← orEmpty [.blockEntry, .blockEnd] (read fuel true false) rest
      readBlockSequence fuel (item :: items) rest
    | .blockEnd :: rest => some (seq items.reverse, rest)
    | _ => none

def readColumn : Nat → List Node → List Token → Option (Node × List Token)
  | 0, _, _ => none
  | fuel + 1, items, tokens =>
    match tokens with
    | .blockEntry :: rest => do
      let (item, rest) ←
        orEmpty [.blockEntry, .key, .value, .blockEnd] (read fuel true false) rest
      readColumn fuel (item :: items) rest
    | _ => some (seq items.reverse, tokens)

def readBlockMapping : Nat → List (Node × Node) → List Token → Option (Node × List Token)
  | 0, _, _ => none
  | fuel + 1, entries, tokens =>
    match tokens with
    | .key :: rest => do
      let ends := [Token.key, .value, .blockEnd]
      let (key, rest) ← orEmpty ends (read fuel true true) rest
      match rest with
      | .value :: rest =>
        let (value, rest) ← orEmpty ends (read fuel true true) rest
        readBlockMapping fuel ((key, value) :: entries) rest
      | _ => readBlockMapping fuel ((key, empty) :: entries) rest
    | .blockEnd :: rest => some (map entries.reverse, rest)
    | _ => none

/--
Reads a key and its value inside brackets that `close` ends. In a sequence the token that stands
in the place of an empty key is lost.
-/
def readPair : Nat → Token → List Token → Option ((Node × Node) × List Token)
  | 0, _, _ => none
  | fuel + 1, close, tokens => do
    let ends := [Token.value, .flowEntry, close]
    let (key, rest) ← orEmpty ends (read fuel false false) tokens
    let rest := if close = .sequenceEnd && tokens.head?.any (· ∈ ends) then rest.drop 1 else rest
    match rest with
    | .value :: rest =>
      let (value, rest) ← orEmpty [.flowEntry, close] (read fuel false false) rest
      return ((key, value), rest)
    | _ => return ((key, empty), rest)

def readSequence : Nat → Bool → List Node → List Token → Option (Node × List Token)
  | 0, _, _, _ => none
  | fuel + 1, isFirst, items, tokens =>
    match tokens with
    | .sequenceEnd :: rest => some (seq items.reverse, rest)
    | _ => do
      let tokens ← separated isFirst tokens
      match tokens with
      | .sequenceEnd :: rest => return (seq items.reverse, rest)
      | .key :: rest =>
        let (entry, rest) ← readPair fuel .sequenceEnd rest
        readSequence fuel false (map [entry] :: items) rest
      | _ =>
        let (item, rest) ← read fuel false false tokens
        readSequence fuel false (item :: items) rest

def readMapping : Nat → Bool → List (Node × Node) → List Token → Option (Node × List Token)
  | 0, _, _, _ => none
  | fuel + 1, isFirst, entries, tokens =>
    match tokens with
    | .mappingEnd :: rest => some (map entries.reverse, rest)
    | _ => do
      let tokens ← separated isFirst tokens
      match tokens with
      | .mappingEnd :: rest => return (map entries.reverse, rest)
      | .key :: rest =>
        let (entry, rest) ← readPair fuel .mappingEnd rest
        readMapping fuel false (entry :: entries) rest
      | _ =>
        let (key, rest) ← read fuel false false tokens
        readMapping fuel false ((key, empty) :: entries) rest

def separated (isFirst : Bool) (tokens : List Token) : Option (List Token) :=
  if isFirst then some tokens
  else
    match tokens with
    | .flowEntry :: rest => some rest
    | _ => none

end

def isFinished (tokens : List Token) : Bool :=
  tokens.all (· = .documentEnd)

def resolveTag (handles : List (String × TagText)) : Token → Option Token
  | .tag handle suffix =>
    if handle.isEmpty then some (.tag "" suffix)
    else (handles.lookup handle).map fun stem => .tag "" (stem ++ suffix)
  | token => some token

def directives : List Token → List Directive
  | .directive directive :: rest => directive :: directives rest
  | _ => []

def ofTokens? (tokens : List Token) : Option Node := do
  let directives := directives tokens
  let tokens ← (tokens.drop directives.length).mapM (resolveTag (← handles? [] directives))
  let fuel := 4 * tokens.length + 4
  let (node, rest) ←
    match tokens with
    | .documentStart :: rest => orEmpty [.documentStart, .documentEnd] (read fuel true false) rest
    | [] => none
    | _ => if directives.isEmpty then read fuel true false tokens else none
  if isFinished rest then some node else none

def parse? (text : String) : Option Node := do
  ofTokens? (← tokens? text)

end Node

end Cadence.Yaml
