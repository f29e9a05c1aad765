import Devalang.Text.Basic

/-! What can go wrong with hand-built documents, settings and numbers, by cause. -/
namespace Devalang

inductive Fault where
  /-- Only elements can be printed. -/
  | unprintable (shown : Text)
  /-- The head given to an element of the named kind is not one it can have. -/
  | invalidHead (kind shown : Text)
  | invalidBeat (shown : Text)
  | invalidMilliseconds (shown : Text)
  /-- A value of another sort is needed. -/
  | unsuitable
  | noSuchAttribute
  /-- The text or float is not the number that is asked for. -/
  | notANumber
  /-- Whole numbers are read from at most 4300 digits. -/
  | tooManyDigits
  /-- A fixed number of parts is taken from a list of another length. -/
  | wrongCount
  /-- The node is not among the children. -/
  | notListed
  | noSuchLine
  | noChildren
  | noSuchStyle
  /-- The kind of element has no text of its own. -/
  | abstractKind
  | zeroDenominator
  | overflow
  /-- The nodes contain one another. -/
  | endless
deriving DecidableEq

def Fault.message? : Fault → Option Text
  | unprintable shown => some ("can't print ".toList ++ shown)
  | invalidHead kind shown =>
    some ("invalid head value for ".toList ++ kind ++ ": ".toList ++ shown)
  | invalidBeat shown => some ("invalid beat duration: ".toList ++ shown)
  | invalidMilliseconds shown => some ("invalid milliseconds value: ".toList ++ shown)
  | _ => none

end Devalang
