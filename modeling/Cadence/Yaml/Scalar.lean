import Cadence.Text.Digits
import Cadence.Yaml.Cursor
/-!
The text of scalars: plain, quoted, and in blocks. Line breaks inside plain and quoted scalars are
folded: one break is a space, and of several the first is dropped.
-/

namespace Cadence.Yaml

inductive Style where
  | plain
  | quoted
  | literal
  | folded
  deriving DecidableEq

structure Gap where
  blanks : List Char := []
  first : Option (List Char) := none
  more : List Char := []

def Gap.fold (gap : Gap) : List Char :=
  match gap.first with
  | none => gap.blanks
  | some ['\n'] => if gap.more.isEmpty then [' '] else gap.more
  | some other => other ++ gap.more

def readGap (indent : Option Nat) : Nat → Gap → Cursor → Option (Gap × Cursor)
  | 0, gap, c => some (gap, c)
  | fuel + 1, gap, c =>
    match c.rest with
    | [] => some (gap, c)
    | next :: _ =>
      if isBlank next then
        match gap.first with
        | none => readGap indent fuel { gap with blanks := gap.blanks ++ [next] } (c.skip 1)
        | some _ =>
          if next = '\t' && indent.any (c.column < ·) then none
          else readGap indent fuel gap (c.skip 1)
      else if isBreak next then
        let (mark, c) := c.readBreak
        match gap.first with
        | none => readGap indent fuel { gap with first := some mark } c
        | some _ => readGap indent fuel { gap with more := gap.more ++ mark } c
      else some (gap, c)

def isFlowIndicator (c : Char) : Bool :=
  c = ',' || c = '[' || c = ']' || c = '{' || c = '}'

def wordLength (inFlow : Bool) : List Char → Option Nat
  | [] => some 0
  | c :: rest =>
    if isSpace c then some 0
    else if c = ':' && rest.head?.all isSpace then some 0
    else if inFlow && c = ':' && rest.head?.any fun next => isFlowIndicator next || next = '?' then
      none
    else if inFlow && isFlowIndicator c then some 0
    else (wordLength inFlow rest).map (· + 1)

/--
Reads the words of a plain scalar behind `text`, which holds the last character first. The answer
tells whether a line break follows the last word. A scalar that is not inside brackets ends with
its indentation.
-/
def readPlain (inFlow : Bool) (indent : Nat) :
    Nat → List Char → Gap → Cursor → Option (List Char × Bool × Cursor)
  | 0, text, gap, c => some (text.reverse, gap.first.isSome, c)
  | fuel + 1, text, gap, c =>
    if c.atDocumentMarker || c.isAt '#' then some (text.reverse, gap.first.isSome, c)
    else do
      let length ← wordLength inFlow c.rest
      if length = 0 then return (text.reverse, gap.first.isSome, c)
      let text := (gap.fold ++ c.rest.take length).reverse ++ text
      let c := c.skip length
      if c.sees isSpace then
        let (gap, c) ← readGap (some indent) (c.span isSpace) {} c
        if !inFlow && c.column < indent then return (text.reverse, gap.first.isSome, c)
        else readPlain inFlow indent fuel text gap c
      else return (text.reverse, false, c)

def readCode (count : Nat) (rest : List Char) : Option (Char × Nat) := do
  if (rest.take count).length < count then none
  let value ← Text.digits? 16 (rest.take count)
  if (0xd800 ≤ value ∧ value ≤ 0xdfff) ∨ 0x10ffff < value then none
  return (Char.ofNat value, count + 2)

def readEscape (rest : List Char) : Option (Char × Nat) :=
  match rest with
  | [] => none
  | c :: rest =>
    match c with
    | '0' => some ('\x00', 2)
    | 'a' => some ('\x07', 2)
    | 'b' => some ('\x08', 2)
    | 't' | '\t' => some ('\t', 2)
    | 'n' => some ('\n', 2)
    | 'v' => some ('\x0b', 2)
    | 'f' => some ('\x0c', 2)
    | 'r' => some ('\r', 2)
    | 'e' => some ('\x1b', 2)
    | ' ' => some (' ', 2)
    | '"' => some ('"', 2)
    | '/' => some ('/', 2)
    | '\\' => some ('\\', 2)
    | 'N' => some ('\u0085', 2)
    | '_' => some ('\u00a0', 2)
    | 'L' => some ('\u2028', 2)
    | 'P' => some ('\u2029', 2)
    | 'x' => readCode 2 rest
    | 'u' => readCode 4 rest
    | 'U' => readCode 8 rest
    | _ => none

def readQuoted (quote : Char) : Nat → List Char → Cursor → Option (List Char × Cursor)
  | 0, _, _ => none
  | fuel + 1, text, c =>
    if c.atDocumentMarker then none
    else
      match c.rest with
      | [] => none
      | next :: rest =>
        if quote = '\'' && next = '\'' && rest.head? = some '\'' then
          readQuoted quote fuel ('\'' :: text) (c.skip 2)
        else if next = quote then some (text.reverse, c.skip 1)
        else if quote = '"' && next = '\\' then
          if rest.head?.any isBreak then do
            let (_, c) := (c.skip 1).readBreak
            let (gap, c) ← readGap none (c.span isSpace) { first := some [] } c
            readQuoted quote fuel (gap.fold.reverse ++ text) c
          else do
            let (escaped, length) ← readEscape rest
            readQuoted quote fuel (escaped :: text) (c.skip length)
        else if isSpace next then do
          let (gap, c) ← readGap none (c.span isSpace) {} c
          readQuoted quote fuel (gap.fold.reverse ++ text) c
        else readQuoted quote fuel (next :: text) (c.skip 1)

inductive Chomping where
  | strip
  | clip
  | keep
  deriving DecidableEq

def readChomping (c : Cursor) : Option Chomping × Cursor :=
  if c.isAt '+' then (some .keep, c.skip 1)
  else if c.isAt '-' then (some .strip, c.skip 1)
  else (none, c)

def readIncrement (c : Cursor) : Option (Nat × Cursor) :=
  match c.rest.head? with
  | some d =>
    if d = '0' then none
    else if d.isDigit then some (d.toNat - '0'.toNat, c.skip 1)
    else some (0, c)
  | none => some (0, c)

def readBlockHeader (c : Cursor) : Option (Chomping × Nat × Cursor) := do
  let (before, c) := readChomping c
  let (increment, c) ← readIncrement c
  let (chomping, c) := if before.isSome then (before, c) else readChomping c
  let c := c.skipWhile isBlank
  let c := if c.isAt '#' then c.skipWhile (!isBreak ·) else c
  if !c.atEnd && !c.sees isBreak then none
  return (chomping.getD .clip, increment, c.readBreak.2)

/--
Reads empty lines and the indentation of the first line that is not, up to `limit` columns. The
answer holds the line breaks, in order, and the deepest column of blanks.
-/
def readEmptyLines (limit : Option Nat) :
    Nat → List Char → Nat → Cursor → Option (List Char × Nat × Cursor)
  | 0, breaks, deepest, c => some (breaks, deepest, c)
  | fuel + 1, breaks, deepest, c =>
    let spaces := (c.rest.takeWhile (· = ' ')).length
    let c := c.skip ((limit.map fun limit => min spaces (limit - c.column)).getD spaces)
    let deepest := max deepest c.column
    if c.isAt '\t' && limit.all (c.column < ·) then none
    else if c.sees isBreak then
      let (mark, c) := c.readBreak
      readEmptyLines limit fuel (breaks ++ mark) deepest c
    else some (breaks, deepest, c)

/--
Reads the lines of a block. `text` is what is done so far, the last character first, `mark` the
break after the last line and `breaks` those of the empty lines after it. In a folded block a
single break between two lines that start with no blank becomes a space.
-/
def readLines (isFolded : Bool) (indent : Nat) :
    Nat → List Char → List Char → List Char → Bool → Cursor →
      Option (List Char × List Char × List Char × Cursor)
  | 0, text, mark, breaks, _, c => some (text.reverse, mark, breaks, c)
  | fuel + 1, text, mark, breaks, wasBlank, c =>
    if c.column ≠ indent || c.atEnd then some (text.reverse, mark, breaks, c)
    else do
      let blank := c.sees isBlank
      let joint :=
        if isFolded && mark = ['\n'] && !wasBlank && !blank then
          if breaks.isEmpty then [' '] else []
        else mark
      let line := c.rest.takeWhile (!isBreak ·)
      let text := (joint ++ breaks ++ line).reverse ++ text
      let (mark, c) := (c.skip line.length).readBreak
      let (breaks, _, c) ← readEmptyLines (some indent) (c.span isSpace + 1) [] 0 c
      readLines isFolded indent fuel text mark breaks blank c

def readBlock (isFolded : Bool) (outer : Option Nat) (c : Cursor) :
    Option (List Char × Cursor) := do
  let (chomping, increment, c) ← readBlockHeader c
  let least := (outer.map (· + 1)).getD 0
  let explicit := if increment = 0 then none else some (outer.getD 0 + increment)
  let (breaks, deepest, c) ← readEmptyLines explicit (c.span isSpace + 1) [] 0 c
  let indent := explicit.getD (max (max deepest least) 1)
  let (text, mark, breaks, c) ← readLines isFolded indent (c.rest.length + 1) [] [] breaks false c
  match chomping with
  | .strip => return (text, c)
  | .clip => return (text ++ mark, c)
  | .keep => return (text ++ mark ++ breaks, c)

end Cadence.Yaml
