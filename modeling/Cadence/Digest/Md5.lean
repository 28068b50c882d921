/-!
The MD5 digest of RFC 1321: the message is padded to blocks of sixteen little-endian words, and
each block is folded into a state of four words in sixty-four rounds.
-/

namespace Cadence.Md5

def rotations : List UInt32 :=
  [7, 12, 17, 22, 7, 12, 17, 22, 7, 12, 17, 22, 7, 12, 17, 22,
   5, 9, 14, 20, 5, 9, 14, 20, 5, 9, 14, 20, 5, 9, 14, 20,
   4, 11, 16, 23, 4, 11, 16, 23, 4, 11, 16, 23, 4, 11, 16, 23,
   6, 10, 15, 21, 6, 10, 15, 21, 6, 10, 15, 21, 6, 10, 15, 21]

/-- The whole part of `2 ^ 32 * |sin (i + 1)|` for the rounds `i`. -/
def sines : List UInt32 :=
  [0xd76aa478, 0xe8c7b756, 0x242070db, 0xc1bdceee, 0xf57c0faf, 0x4787c62a, 0xa8304613, 0xfd469501,
   0x698098d8, 0x8b44f7af, 0xffff5bb1, 0x895cd7be, 0x6b901122, 0xfd987193, 0xa679438e, 0x49b40821,
   0xf61e2562, 0xc040b340, 0x265e5a51, 0xe9b6c7aa, 0xd62f105d, 0x02441453, 0xd8a1e681, 0xe7d3fbc8,
   0x21e1cde6, 0xc33707d6, 0xf4d50d87, 0x455a14ed, 0xa9e3e905, 0xfcefa3f8, 0x676f02d9, 0x8d2a4c8a,
   0xfffa3942, 0x8771f681, 0x6d9d6122, 0xfde5380c, 0xa4beea44, 0x4bdecfa9, 0xf6bb4b60, 0xbebfbc70,
   0x289b7ec6, 0xeaa127fa, 0xd4ef3085, 0x04881d05, 0xd9d4d039, 0xe6db99e5, 0x1fa27cf8, 0xc4ac5665,
   0xf4292244, 0x432aff97, 0xab9423a7, 0xfc93a039, 0x655b59c3, 0x8f0ccc92, 0xffeff47d, 0x85845dd1,
   0x6fa87e4f, 0xfe2ce6e0, 0xa3014314, 0x4e0811a1, 0xf7537e82, 0xbd3af235, 0x2ad7d2bb, 0xeb86d391]

structure State where
  a : UInt32
  b : UInt32
  c : UInt32
  d : UInt32

def State.initial : State :=
  ⟨0x67452301, 0xefcdab89, 0x98badcfe, 0x10325476⟩

def mix (round : Nat) (s : State) : UInt32 × Nat :=
  if round < 16 then ((s.b &&& s.c) ||| (~~~s.b &&& s.d), round)
  else if round < 32 then ((s.d &&& s.b) ||| (~~~s.d &&& s.c), (5 * round + 1) % 16)
  else if round < 48 then (s.b ^^^ s.c ^^^ s.d, (3 * round + 5) % 16)
  else (s.c ^^^ (s.b ||| ~~~s.d), (7 * round) % 16)

def rotateLeft (word amount : UInt32) : UInt32 :=
  (word <<< amount) ||| (word >>> (32 - amount))

def round (words : Array UInt32) (s : State) (number : Nat) (rotation sine : UInt32) : State :=
  let (mixed, place) := mix number s
  let sum := s.a + mixed + sine + words.getD place 0
  ⟨s.d, s.b + rotateLeft sum rotation, s.b, s.c⟩

def compress (s : State) (words : Array UInt32) : State :=
  let rounds := (rotations.zip sines).zipIdx
  let t := rounds.foldl (fun t r => round words t r.2 r.1.1 r.1.2) s
  ⟨s.a + t.a, s.b + t.b, s.c + t.c, s.d + t.d⟩

def littleEndian (count value : Nat) : List UInt8 :=
  (List.range count).map fun i => UInt8.ofNat (value >>> (8 * i))

/-- A delimiter, zeros up to eight bytes before a full block, and the length in bits. -/
def pad (message : List UInt8) : List UInt8 :=
  let zeros := (119 - message.length % 64) % 64
  message ++ 0x80 :: List.replicate zeros 0 ++ littleEndian 8 (8 * message.length)

def wordsOf : List UInt8 → List UInt32
  | a :: b :: c :: d :: rest =>
    (a.toUInt32 ||| (b.toUInt32 <<< 8) ||| (c.toUInt32 <<< 16) ||| (d.toUInt32 <<< 24))
      :: wordsOf rest
  | _ => []

def fold : Nat → State → List UInt32 → State
  | 0, s, _ => s
  | count + 1, s, words =>
    if words.isEmpty then s else fold count (compress s (words.take 16).toArray) (words.drop 16)

def digest (message : List UInt8) : List UInt8 :=
  let words := wordsOf (pad message)
  let s := fold words.length .initial words
  [s.a, s.b, s.c, s.d].flatMap fun word => littleEndian 4 word.toNat

def hex (message : List UInt8) : String :=
  String.ofList ((digest message).flatMap fun byte =>
    [Nat.digitChar (byte.toNat / 16), Nat.digitChar (byte.toNat % 16)])

end Cadence.Md5
