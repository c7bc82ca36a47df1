/-
Blanks: the characters with the Unicode property White_Space, and trimming a text of them.

Blanks never carry meaning in a chart: they are skipped between symbols and trimmed off directive keys and
values. The class contains core's whitespace and the blanks beyond ASCII.
-/
namespace RhythmChart.Text

/-- the ranges of code points with the property White_Space, ends included -/
def blankRanges : List (Nat × Nat) :=
  [(0x09, 0x0D), (0x20, 0x20), (0x85, 0x85), (0xA0, 0xA0), (0x1680, 0x1680), (0x2000, 0x200A),
   (0x2028, 0x2029), (0x202F, 0x202F), (0x205F, 0x205F), (0x3000, 0x3000)]

/-- whether a character is a blank -/
def isBlank (c : Char) : Bool :=
  blankRanges.any fun (first, last) => first ≤ c.toNat && c.toNat ≤ last

/-- drop the blanks in front -/
def trimLeft (cs : List Char) : List Char := cs.dropWhile isBlank

/-- drop the blanks behind -/
def trimRight (cs : List Char) : List Char := (cs.reverse.dropWhile isBlank).reverse

/-- drop the blanks at both ends -/
def trim (cs : List Char) : List Char := trimRight (trimLeft cs)

/-- the characters that are not blanks, in order -/
def unblanked (cs : List Char) : List Char := cs.filter (!isBlank ·)

/-! ## Small facts -/

theorem mem_unblanked {c : Char} {cs : List Char} : c ∈ unblanked cs ↔ c ∈ cs ∧ isBlank c = false := by
  simp [unblanked]

end RhythmChart.Text
