import Devalang.Text.Basic
import Devalang.Text.Digit
import Devalang.Text.Word

/-! Cutting words, numbers and blanks off the start of a text. Where a cut can be made in several
places, all of them are listed in order of preference, so that the first one that lets the rest of
a line be read can be taken. -/
namespace Devalang.Text

/-- All ways to cut off characters in `p`, the longest first. -/
def cuts (p : Char → Bool) : Text → List (Text × Text)
  | [] => [([], [])]
  | c :: s =>
    if p c then (cuts p s).map (fun cut => (c :: cut.1, cut.2)) ++ [([], c :: s)]
    else [([], c :: s)]

def someCuts (p : Char → Bool) (s : Text) : List (Text × Text) := (cuts p s).filter (!·.1.isEmpty)

theorem append_of_mem_cuts {p : Char → Bool} {s a b : Text} (h : (a, b) ∈ cuts p s) : a ++ b = s := by
  induction s generalizing a with
  | nil => simp_all [cuts]
  | cons c s ih =>
    rw [cuts] at h
    split at h
    · simp only [List.mem_append, List.mem_map, List.mem_singleton] at h
      rcases h with ⟨⟨x, y⟩, hm, he⟩ | h
      · cases he; simp [ih hm]
      · cases h; rfl
    · simp only [List.mem_singleton] at h
      cases h; rfl

def run? (p : Char → Bool) (s : Text) : Option (Text × Text) :=
  if (s.takeWhile p).isEmpty then none else some (s.takeWhile p, s.dropWhile p)

def notBlank (c : Char) : Bool := !isBlank c

def inLine (c : Char) : Bool := c != '\n'

def afterBlanks? (s : Text) : Option Text := (run? isBlank s).map (·.2)

def word? (s : Text) : Option (Text × Text) := run? notBlank s

def onlyWord? (s : Text) : Option Text := if !s.isEmpty && s.all notBlank then some s else none

def numberStart? (s : Text) : Option (Text × Text) :=
  match run? isDigit s with
  | none => none
  | some (whole, '.' :: t) =>
    match run? isDigit t with
    | none => some (whole, '.' :: t)
    | some (part, rest) => some (whole ++ '.' :: part, rest)
  | some cut => some cut

/-- The longest name of word characters that starts with an ASCII letter or `_`, and the rest. -/
def nameStart? : Text → Option (Text × Text)
  | [] => none
  | c :: s =>
    if c.isAlpha || c == '_' then some (c :: s.takeWhile isWord, s.dropWhile isWord) else none

def restOfLine? (s : Text) : Option Text :=
  (someCuts isBlank s).findSome? fun (_, t) => if !t.isEmpty && t.all inLine then some t else none

/-- What stands, after at least one blank, before the colon at the end: the shortest such text. -/
def untilColon? (s : Text) : Option Text :=
  (someCuts isBlank s).findSome? fun (_, t) =>
    (someCuts inLine t).reverse.findSome? fun (part, rest) =>
      if trimStart rest = [':'] then some part else none

example : untilColon? " x > 1 :".toList = some "x > 1".toList := by decide +kernel
example : untilColon? "  :".toList = some " ".toList := by decide +kernel

end Devalang.Text
