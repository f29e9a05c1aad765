/-! Sets of characters given as closed ranges of code points, and the set of blank characters: what
separates words and is stripped from the ends of a text. -/
namespace Devalang.Text

/-- Closed ranges of code points, ascending and apart. -/
abbrev Ranges := List (Nat × Nat)

def Ranges.contains (rs : Ranges) (n : Nat) : Bool :=
  rs.any fun r => decide (r.1 ≤ n) && decide (n ≤ r.2)

def Ranges.count (rs : Ranges) : Nat := rs.foldl (fun n r => n + (r.2 + 1 - r.1)) 0

theorem Ranges.contains_iff {rs : Ranges} {n : Nat} :
    rs.contains n = true ↔ ∃ r ∈ rs, r.1 ≤ n ∧ n ≤ r.2 := by
  simp [Ranges.contains]

/-- The Unicode white space characters together with the four information separators. -/
def blankRanges : Ranges := [
  (0x9, 0xD), (0x1C, 0x20), (0x85, 0x85), (0xA0, 0xA0), (0x1680, 0x1680), (0x2000, 0x200A),
  (0x2028, 0x2029), (0x202F, 0x202F), (0x205F, 0x205F), (0x3000, 0x3000)]

def isBlank (c : Char) : Bool := blankRanges.contains c.toNat

example : blankRanges.count = 29 := by decide
example : isBlank '\u180e' = false ∧ isBlank '\u200b' = false ∧ isBlank '\ufeff' = false := by decide

end Devalang.Text
