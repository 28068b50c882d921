/-!
A place in a YAML text: the characters that are left, the bytes before them, and the line and
column they start at.
-/

namespace Cadence.Yaml

structure Cursor where
  rest : List Char
  offset : Nat := 0
  line : Nat := 0
  column : Nat := 0

def isBreak (c : Char) : Bool :=
  c = '\n' || c = '\r' || c = '\u0085' || c = '\u2028' || c = '\u2029'

def isBlank (c : Char) : Bool :=
  c = ' ' || c = '\t'

def isSpace (c : Char) : Bool :=
  isBlank c || isBreak c

def isPrintable (c : Char) : Bool :=
  let n := c.toNat
  n = 0x09 || n = 0x0a || n = 0x0d || (0x20 ≤ n && n ≤ 0x7e) || n = 0x85
    || (0xa0 ≤ n && n ≤ 0xd7ff) || (0xe000 ≤ n && n ≤ 0xfffd) || 0x10000 ≤ n

def byteCount (chars : List Char) : Nat :=
  chars.foldl (fun count c => count + c.utf8Size) 0

namespace Cursor

def atEnd (c : Cursor) : Bool :=
  c.rest.isEmpty

def ahead? (c : Cursor) (n : Nat) : Option Char :=
  c.rest[n]?

def isAt (c : Cursor) (expected : Char) : Bool :=
  c.rest.head? = some expected

def sees (c : Cursor) (test : Char → Bool) : Bool :=
  c.rest.head?.any test

def endsWord (c : Cursor) (n : Nat) : Bool :=
  (c.ahead? n).all isSpace

def span (c : Cursor) (test : Char → Bool) : Nat :=
  (c.rest.takeWhile test).length

def skip (c : Cursor) (n : Nat) : Cursor :=
  { c with
    rest := c.rest.drop n,
    offset := c.offset + byteCount (c.rest.take n),
    column := c.column + n }

def skipWhile (c : Cursor) (test : Char → Bool) : Cursor :=
  c.skip (c.span test)

def nextLine (c : Cursor) (n : Nat) : Cursor :=
  { c.skip n with line := c.line + 1, column := 0 }

/-- Passes over a line break and tells what it stands for in a scalar. -/
def readBreak (c : Cursor) : List Char × Cursor :=
  match c.rest with
  | '\r' :: '\n' :: _ => (['\n'], c.nextLine 2)
  | '\u2028' :: _ => (['\u2028'], c.nextLine 1)
  | '\u2029' :: _ => (['\u2029'], c.nextLine 1)
  | b :: _ => if isBreak b then (['\n'], c.nextLine 1) else ([], c)
  | [] => ([], c)

def atMarker (c : Cursor) (mark : Char) : Bool :=
  c.column = 0 && c.rest.take 3 = [mark, mark, mark] && c.endsWord 3

def atDocumentMarker (c : Cursor) : Bool :=
  c.atMarker '-' || c.atMarker '.'

end Cursor

end Cadence.Yaml
