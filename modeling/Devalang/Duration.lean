import Devalang.Number
import Devalang.Text.Quoted

/-! Durations of triggers: a fraction of a beat, a number of milliseconds, or `auto`. -/
namespace Devalang

inductive Duration where
  | beat (fraction : Text)
  | milliseconds (amount : Number)
  | auto
deriving DecidableEq

namespace Duration

/-- Reads a duration; the texts of beats and milliseconds are kept as written. -/
def ofText? (s : Text) : Option Duration :=
  let t := s.trim
  if t.isFraction then some (.beat t)
  else if t.isNumber then some (.milliseconds (.written t))
  else if t = "auto".toList then some .auto
  else none

def label : Duration → Text
  | beat _ => "BeatDuration".toList
  | milliseconds _ => "Milliseconds".toList
  | auto => "AutoDuration".toList

def toText : Duration → Text
  | beat t => t
  | milliseconds n => n.toText
  | auto => "auto".toList

/-- Durations are equal if they are of one sort and are written the same. -/
def same : Duration → Duration → Bool
  | beat s, beat t => s == t
  | milliseconds m, milliseconds n => m.toText == n.toText
  | auto, auto => true
  | _, _ => false

def fractionOf (s : Text) : Except Fault (Nat × Nat) := do
  let n ← Text.readInteger (s.takeWhile (· != '/'))
  let d ← Text.readInteger ((s.dropWhile (· != '/')).drop 1)
  if d = 0 then .error .zeroDenominator
  let g := Nat.gcd n.natAbs d.natAbs
  return (n.natAbs / g, d.natAbs / g)

theorem toText_of_ofText? {s : Text} {d : Duration} (h : ofText? s = some d) : d.toText = s.trim := by
  simp only [ofText?] at h
  split at h
  · cases h; rfl
  · split at h
    · cases h; rfl
    · split at h
      · cases h; simp_all [toText]
      · cases h

end Duration

end Devalang
