import Devalang.Text.Basic
import Devalang.Text.Printable

/-! Quoted texts, as values are shown in captions and messages, and their abbreviation. -/
namespace Devalang.Text

/-- Single quotes, unless the text holds single quotes and no double ones. -/
def quoteMark (s : Text) : Char :=
  if s.contains '\'' && !s.contains '"' then '"' else '\''

def hex (width n : Nat) : Text :=
  let ds := Nat.toDigits 16 n
  List.replicate (width - ds.length) '0' ++ ds

/-- A character inside quotes: the quote and the backslash are escaped, characters that are not
printable are written by their shortest code. -/
def escape (mark c : Char) : Text :=
  if c = mark ∨ c = '\\' then ['\\', c]
  else if c = '\n' then ['\\', 'n']
  else if c = '\r' then ['\\', 'r']
  else if c = '\t' then ['\\', 't']
  else if isPrintable c then [c]
  else if c.toNat < 0x100 then '\\' :: 'x' :: hex 2 c.toNat
  else if c.toNat < 0x10000 then '\\' :: 'u' :: hex 4 c.toNat
  else '\\' :: 'U' :: hex 8 c.toNat

def quoted (s : Text) : Text :=
  let mark := quoteMark s
  mark :: s.flatMap (escape mark) ++ [mark]

def clip (most : Nat) (s : Text) : Text :=
  if s.length ≤ most then s
  else
    let head := (most - 3) / 2
    let tail := most - 3 - head
    s.take head ++ "...".toList ++ dropFrom (s.length - tail) s

/-- The quoted text in at most thirty characters: a longer one is quoted again from its two ends. -/
def quotedShort (s : Text) : Text :=
  if (quoted (s.take 30)).length ≤ 30 then quoted (s.take 30)
  else
    let q := quoted (s.take 13 ++ dropFrom ((s.length : Int) - 14) s)
    q.take 13 ++ "...".toList ++ dropFrom ((q.length : Int) - 14) q

example : quoted "it's".toList = "\"it's\"".toList := by decide +kernel
example : quoted "a\n\u200b".toList = "'a\\n\\u200b'".toList := by decide +kernel

end Devalang.Text
