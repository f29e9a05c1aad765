import Devalang.Text.Blank

/-! Texts as lists of characters: trimming, lines, indentation, joining. -/
namespace Devalang

abbrev Text := List Char

namespace Text

def trimStart (s : Text) : Text := s.dropWhile isBlank

def trimEnd (s : Text) : Text := (s.reverse.dropWhile isBlank).reverse

def trim (s : Text) : Text := trimEnd (trimStart s)

def leading (s : Text) : Text := s.takeWhile isBlank

def trimReturns (s : Text) : Text := (s.reverse.dropWhile (· == '\r')).reverse

theorem leading_append_trimStart (s : Text) : leading s ++ trimStart s = s :=
  List.takeWhile_append_dropWhile

/-- The parts of the text between the separators; always at least one. -/
def splitOn (sep : Char) : Text → List Text
  | [] => [[]]
  | c :: s =>
    if c = sep then [] :: splitOn sep s
    else match splitOn sep s with
      | [] => [[c]]
      | l :: ls => (c :: l) :: ls

theorem splitOn_ne_nil (sep : Char) (s : Text) : splitOn sep s ≠ [] := by
  cases s with
  | nil => simp [splitOn]
  | cons c s =>
    rw [splitOn]
    split
    · simp
    · split <;> simp

def join (sep : Text) : List Text → Text
  | [] => []
  | [t] => t
  | t :: u :: ts => t ++ sep ++ join sep (u :: ts)

theorem join_splitOn (sep : Char) (s : Text) : join [sep] (splitOn sep s) = s := by
  induction s with
  | nil => rfl
  | cons c s ih =>
    rw [splitOn]
    split
    · rename_i h
      cases hs : splitOn sep s with
      | nil => exact absurd hs (splitOn_ne_nil sep s)
      | cons l ls => rw [hs] at ih; simp [join, ih, h]
    · cases hs : splitOn sep s with
      | nil => exact absurd hs (splitOn_ne_nil sep s)
      | cons l ls =>
        rw [hs] at ih
        cases ls with
        | nil => simpa [join] using ih
        | cons m ms => simpa [join] using ih

/-- The lines of a source text. A newline at its end does not start another line. -/
def lines (s : Text) : List Text :=
  let parts := splitOn '\n' s
  if parts.getLast? = some [] then parts.dropLast else parts

def ofLines (ls : List Text) : Text :=
  if ls.isEmpty then [] else join ['\n'] ls ++ ['\n']

def after : (w s : Text) → Option Text
  | [], s => some s
  | _ :: _, [] => none
  | a :: w, b :: s => if a = b then after w s else none

theorem after_eq_some_iff {w s r : Text} : after w s = some r ↔ s = w ++ r := by
  induction w generalizing s with
  | nil => simp [after]
  | cons a w ih =>
    cases s with
    | nil => simp [after]
    | cons b s =>
      by_cases h : a = b
      · subst h; simp [after, ih]
      · simp only [after, h, if_false, List.cons_append, List.cons.injEq]
        constructor
        · intro hn; cases hn
        · rintro ⟨hb, _⟩; exact absurd hb.symm h

def startsWith (w s : Text) : Bool := (after w s).isSome

def dedent (width : Nat) (line : Text) : Text := line.drop (min width (leading line).length)

/-- The text from a place on; a negative place counts from the end. -/
def dropFrom (place : Int) (s : Text) : Text :=
  if 0 ≤ place then s.drop place.toNat else s.drop (s.length + place).toNat

/-- Removes blanks from the start of a line, at most `width` of them; with a negative width, all
but the last `-width` characters go. -/
def dedentBy (width : Int) (line : Text) : Text :=
  dropFrom (min width (leading line).length) line

def spaces (n : Nat) : Text := List.replicate n ' '

def indent (width : Nat) (s : Text) : Text :=
  join ['\n'] ((splitOn '\n' s).map fun line => if line.isEmpty then line else spaces width ++ line)

end Text

end Devalang
