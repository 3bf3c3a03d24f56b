import WorkflowAudit.Unicode.CharSet

/-!
# Encodings of sets

A set of characters is encoded as rows of byte ranges: a text of one character
is in the set exactly when its bytes lie in the ranges of some row, place by
place.  The rows come in the order of the characters and have no bytes of other
characters among them, surrogates included.
-/

namespace WorkflowAudit.Regex

/-- Ranges of bytes, one for each place of an encoding. -/
abbrev Encoding := List (Nat × Nat)

/-- The encodings of a range of numbers with `more` bytes behind the first one,
which begins with the bits of `marker`. -/
def encodings (marker : Nat) : Nat → Nat → Nat → List Encoding
  | 0, low, high => [[(marker + low, marker + high)]]
  | more + 1, low, high =>
      let block := Nat.pow 64 (more + 1)
      let first := low / block
      let last := high / block
      let beginning := fun (lead : Nat) (rests : List Encoding) =>
        rests.map ((marker + lead, marker + lead) :: ·)
      let fromLow := low % block
      let toHigh := high % block
      let startsWhole := fromLow == 0
      let endsWhole := toHigh == block - 1
      if first == last then beginning first (encodings 0x80 more fromLow toHigh)
      else
        let head := if startsWhole then [] else
          beginning first (encodings 0x80 more fromLow (block - 1))
        let tail := if endsWhole then [] else
          beginning last (encodings 0x80 more 0 toHigh)
        let wholeFirst := if startsWhole then first else first + 1
        let wholeEnd := if endsWhole then last + 1 else last
        let whole := if wholeFirst < wholeEnd then
          [(marker + wholeFirst, marker + wholeEnd - 1) :: List.replicate (more + 1) (0x80, 0xBF)]
          else []
        head ++ whole ++ tail

/-- The ranges of code points that are encoded with the same number of bytes, by
the marker of the first byte and the number of bytes behind it. -/
def encodedRanges : List (Nat × Nat × Nat × Nat) :=
  [(0x00, 0, 0x0, 0x7F), (0xC0, 1, 0x80, 0x7FF), (0xE0, 2, 0x800, 0xD7FF),
    (0xE0, 2, 0xE000, 0xFFFF), (0xF0, 3, 0x10000, maxCodePoint)]

/-- The encodings of the members of a set. -/
def encodingsOf (set : CharSet) : List Encoding :=
  set.ranges.flatMap fun (low, high) =>
    encodedRanges.flatMap fun (marker, more, least, greatest) =>
      if low ≤ greatest && least ≤ high then
        encodings marker more (max low least) (min high greatest)
      else []

/-- Encodings by their first range; neighbours that share it stand together. -/
def byFirst : List Encoding → List ((Nat × Nat) × List Encoding)
  | [] => []
  | [] :: others => byFirst others
  | (first :: rest) :: others =>
      match byFirst others with
      | [] => [(first, [rest])]
      | (next, rests) :: groups =>
          if next == first then (first, rest :: rests) :: groups
          else (first, [rest]) :: (next, rests) :: groups

end WorkflowAudit.Regex
