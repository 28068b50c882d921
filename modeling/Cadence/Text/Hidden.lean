import Cadence.Text.Extending
import Cadence.Text.Unassigned
/-!
The characters that do not show up by themselves in a line of text.
-/

namespace Cadence.Text

/--
The code points of the Unicode categories for control, format and private characters and for
separators other than the space, and the fillers. Each range contains both of its ends.
-/
def invisibleRanges : List (Nat × Nat) :=
  [(0x0, 0x1f), (0x7f, 0xa0), (0xad, 0xad), (0x600, 0x605), (0x61c, 0x61c), (0x6dd, 0x6dd),
   (0x70f, 0x70f), (0x890, 0x891), (0x8e2, 0x8e2), (0x115f, 0x1160), (0x1680, 0x1680),
   (0x180e, 0x180e), (0x2000, 0x200b), (0x200d, 0x200f), (0x2028, 0x202f), (0x205f, 0x2064),
   (0x2066, 0x206f), (0x3000, 0x3000), (0x3164, 0x3164), (0xe000, 0xf8ff), (0xfeff, 0xfeff),
   (0xffa0, 0xffa0), (0xfff9, 0xfffb), (0x110bd, 0x110bd), (0x110cd, 0x110cd), (0x13430, 0x1343f),
   (0x1bca0, 0x1bca3), (0x1d173, 0x1d17a), (0xe0001, 0xe0001), (0xf0000, 0xffffd),
   (0x100000, 0x10fffd)]

def inRanges (ranges : List (Nat × Nat)) (c : Char) : Bool :=
  ranges.any fun range => range.1 ≤ c.toNat && c.toNat ≤ range.2

def isHidden (c : Char) : Bool :=
  inRanges invisibleRanges c || inRanges extendingRanges c || inRanges unassignedRanges c

theorem inRanges_iff {ranges : List (Nat × Nat)} {c : Char} :
    inRanges ranges c = true ↔ ∃ range ∈ ranges, range.1 ≤ c.toNat ∧ c.toNat ≤ range.2 := by
  simp [inRanges]

end Cadence.Text
