import Cadence.Fields
import Cadence.Yaml.Property
import Cadence.Yaml.Scalar
/-!
The tokens of a YAML text. Indentation becomes tokens of its own, which open and close block
collections. A scalar or a bracket may turn out to be a key once a colon follows on its line;
until then its place in the list is remembered, and the tokens for the key are put there.
-/

namespace Cadence.Yaml

inductive Token where
  | directive (directive : Directive)
  | documentStart
  | documentEnd
  | blockSequenceStart
  | blockMappingStart
  | blockEnd
  | sequenceStart
  | sequenceEnd
  | mappingStart
  | mappingEnd
  | blockEntry
  | flowEntry
  | key
  | value
  | anchor (number : Nat)
  | aliasOf (number : Nat)
  | tag (handle : String) (suffix : TagText)
  | scalar (text : String) (style : Style)
  deriving DecidableEq

/-- A token that may turn out to be a key: its number, its place, and whether it has to be one. -/
structure Candidate where
  number : Nat
  offset : Nat
  line : Nat
  column : Nat
  isRequired : Bool

structure Lexer where
  cursor : Cursor
  tokens : Array Token := #[]
  indents : List Nat := []
  allowsKey : Bool := true
  candidate : Option Candidate := none
  outer : List (Option Candidate) := []
  anchors : Fields Nat := []

namespace Lexer

def inFlow (l : Lexer) : Bool :=
  !l.outer.isEmpty

def indent? (l : Lexer) : Option Nat :=
  l.indents.head?

def emit (l : Lexer) (token : Token) : Lexer :=
  { l with tokens := l.tokens.push token }

def skipToToken : Nat → Lexer → Lexer
  | 0, l => l
  | fuel + 1, l =>
    let c := if l.cursor.column = 0 && l.cursor.isAt '\ufeff' then l.cursor.skip 1 else l.cursor
    let c := c.skipWhile fun c => c = ' ' || (c = '\t' && (l.inFlow || !l.allowsKey))
    let c := if c.isAt '#' then c.skipWhile (!isBreak ·) else c
    if c.sees isBreak then
      skipToToken fuel { l with cursor := c.readBreak.2, allowsKey := l.allowsKey || !l.inFlow }
    else { l with cursor := c }

def keyWidth : Nat := 1024

def isStale (l : Lexer) (candidate : Option Candidate) : Bool :=
  candidate.any fun candidate =>
    candidate.line < l.cursor.line || candidate.offset + keyWidth < l.cursor.offset

def dropStale (l : Lexer) : Option Lexer :=
  let refuse (candidate : Option Candidate) : Bool :=
    l.isStale candidate && candidate.any Candidate.isRequired
  let keep (candidate : Option Candidate) : Option Candidate :=
    if l.isStale candidate then none else candidate
  if refuse l.candidate || l.outer.any refuse then none
  else some { l with candidate := keep l.candidate, outer := l.outer.map keep }

def dropCandidate (l : Lexer) : Option Lexer :=
  if l.candidate.any Candidate.isRequired then none else some { l with candidate := none }

def saveCandidate (l : Lexer) : Option Lexer :=
  if l.allowsKey then do
    let isRequired := !l.inFlow && l.indent? = some l.cursor.column
    let l ← l.dropCandidate
    let c := l.cursor
    return { l with candidate := some ⟨l.tokens.size, c.offset, c.line, c.column, isRequired⟩ }
  else some l

def closeBlocks (l : Lexer) (column : Option Nat) : Lexer :=
  if l.inFlow then l
  else
    let closed := l.indents.takeWhile fun indent => column.all (· < indent)
    { l with
      indents := l.indents.drop closed.length,
      tokens := l.tokens ++ (closed.map fun _ => Token.blockEnd).toArray }

def openBlock (l : Lexer) (column : Nat) (place : Nat) (token : Token) : Lexer :=
  if l.inFlow || l.indent?.any (column ≤ ·) then l
  else
    { l with
      indents := column :: l.indents,
      tokens := l.tokens.take place ++ #[token] ++ l.tokens.drop place }

def fetchMarker (l : Lexer) (token : Token) : Option Lexer := do
  let l ← (l.closeBlocks none).dropCandidate
  return { l.emit token with cursor := l.cursor.skip 3, allowsKey := false }

def fetchDirective (l : Lexer) : Option Lexer := do
  let l ← (l.closeBlocks none).dropCandidate
  let (directive, cursor) ← readDirective (l.cursor.skip 1)
  return { l.emit (.directive directive) with cursor, allowsKey := false }

/--
An anchor is numbered by how many names there are before it. So the anchor that takes up a name
again shares its number with the first anchor of the next new name.
-/
def fetchAnchor (l : Lexer) : Option Lexer := do
  let l ← l.saveCandidate
  let (name, cursor) ← readName (l.cursor.skip 1)
  let number := l.anchors.length
  return { l.emit (.anchor number) with
    cursor, allowsKey := false, anchors := l.anchors.insert name number }

def fetchAlias (l : Lexer) : Option Lexer := do
  let l ← l.saveCandidate
  let (name, cursor) ← readName (l.cursor.skip 1)
  let number ← l.anchors.find? name
  return { l.emit (.aliasOf number) with cursor, allowsKey := false }

def fetchTag (l : Lexer) : Option Lexer := do
  let l ← l.saveCandidate
  let (handle, suffix, cursor) ← readTag l.inFlow l.cursor
  return { l.emit (.tag handle suffix) with cursor, allowsKey := false }

def fetchOpening (l : Lexer) (token : Token) : Option Lexer := do
  let l ← l.saveCandidate
  return { l.emit token with
    cursor := l.cursor.skip 1, allowsKey := true, candidate := none,
    outer := l.candidate :: l.outer }

def fetchClosing (l : Lexer) (token : Token) : Option Lexer := do
  let l ← l.dropCandidate
  let l := { l.emit token with cursor := l.cursor.skip 1, allowsKey := false }
  match l.outer with
  | [] => return l
  | candidate :: outer => return { l with candidate, outer }

def fetchFlowEntry (l : Lexer) : Option Lexer := do
  let l ← l.dropCandidate
  return { l.emit .flowEntry with cursor := l.cursor.skip 1, allowsKey := true }

def fetchBlockEntry (l : Lexer) : Option Lexer := do
  if !l.inFlow && !l.allowsKey then none
  let l := l.openBlock l.cursor.column l.tokens.size .blockSequenceStart
  let l ← l.dropCandidate
  return { l.emit .blockEntry with cursor := l.cursor.skip 1, allowsKey := true }

def fetchKey (l : Lexer) : Option Lexer := do
  if !l.inFlow && !l.allowsKey then none
  let l := l.openBlock l.cursor.column l.tokens.size .blockMappingStart
  let l ← l.dropCandidate
  return { l.emit .key with cursor := l.cursor.skip 1, allowsKey := !l.inFlow }

def fetchValue (l : Lexer) : Option Lexer :=
  match l.candidate with
  | some candidate =>
    let tokens := l.tokens.take candidate.number ++ #[.key] ++ l.tokens.drop candidate.number
    let l := { l with tokens, candidate := none }
    let l := l.openBlock candidate.column candidate.number .blockMappingStart
    some { l.emit .value with cursor := l.cursor.skip 1, allowsKey := false }
  | none =>
    if !l.inFlow && !l.allowsKey then none
    else
      let l := l.openBlock l.cursor.column l.tokens.size .blockMappingStart
      some { l.emit .value with cursor := l.cursor.skip 1, allowsKey := !l.inFlow }

def fetchBlockScalar (l : Lexer) (isFolded : Bool) : Option Lexer := do
  let l ← l.dropCandidate
  let (text, cursor) ← readBlock isFolded l.indent? (l.cursor.skip 1)
  let style := if isFolded then Style.folded else Style.literal
  return { l.emit (.scalar (String.ofList text) style) with cursor, allowsKey := true }

def fetchQuoted (l : Lexer) (quote : Char) : Option Lexer := do
  let l ← l.saveCandidate
  let (text, cursor) ← readQuoted quote (l.cursor.rest.length + 1) [] (l.cursor.skip 1)
  return { l.emit (.scalar (String.ofList text) .quoted) with cursor, allowsKey := false }

def fetchPlain (l : Lexer) : Option Lexer := do
  let l ← l.saveCandidate
  let indent := (l.indent?.map (· + 1)).getD 0
  let (text, allowsKey, cursor) ←
    readPlain l.inFlow indent (l.cursor.rest.length + 1) [] {} l.cursor
  return { l.emit (.scalar (String.ofList text) .plain) with cursor, allowsKey }

def isIndicator (c : Char) : Bool :=
  isFlowIndicator c || "-?:#&*!|>'\"%@`".toList.contains c

def fetch (l : Lexer) (c : Char) : Option Lexer :=
  if c = '%' && l.cursor.column = 0 then l.fetchDirective
  else if l.cursor.atMarker '-' then l.fetchMarker .documentStart
  else if l.cursor.atMarker '.' then l.fetchMarker .documentEnd
  else
    let alone := l.cursor.endsWord 1
    match c with
    | '[' => l.fetchOpening .sequenceStart
    | '{' => l.fetchOpening .mappingStart
    | ']' => l.fetchClosing .sequenceEnd
    | '}' => l.fetchClosing .mappingEnd
    | ',' => l.fetchFlowEntry
    | '\'' => l.fetchQuoted '\''
    | '"' => l.fetchQuoted '"'
    | '-' => if alone then l.fetchBlockEntry else l.fetchPlain
    | '?' => if l.inFlow || alone then l.fetchKey else l.fetchPlain
    | ':' => if l.inFlow || alone then l.fetchValue else l.fetchPlain
    | '*' => l.fetchAlias
    | '&' => l.fetchAnchor
    | '!' => l.fetchTag
    | '|' => if l.inFlow then none else l.fetchBlockScalar false
    | '>' => if l.inFlow then none else l.fetchBlockScalar true
    | c => if isIndicator c || isBlank c then none else l.fetchPlain

/-- Reads all tokens that are left. The fuel is at least one more than the characters left. -/
def run : Nat → Lexer → Option (List Token)
  | 0, _ => none
  | fuel + 1, l => do
    let l := skipToToken (fuel + 1) l
    let l ← l.dropStale
    match l.cursor.rest with
    | [] =>
      let l ← (l.closeBlocks none).dropCandidate
      return l.tokens.toList
    | c :: _ =>
      let l ← (l.closeBlocks (some l.cursor.column)).fetch c
      run fuel l

end Lexer

def tokens? (text : String) : Option (List Token) :=
  let chars := text.toList
  if chars.all isPrintable then
    Lexer.run (chars.length + 1) { cursor := { rest := chars } }
  else none

end Cadence.Yaml
