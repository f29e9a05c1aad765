import Devalang.Draft.Datum
import Devalang.Document.Reformat
import Devalang.Text.Lowercase

/-! Settings: values by name, in the order in which the names were first given. -/
namespace Devalang

open Draft (Datum)

structure Settings where
  entries : List (Text × Datum)

namespace Text

/-- Puts `_` in front of every ASCII capital that follows a small ASCII letter or a digit. -/
def markWords : (before : Option Char) → Text → Text
  | _, [] => []
  | before, c :: s =>
    let follows := before.any fun b => b.isLower || b.isDigit
    (if c.isUpper && follows then ['_', c] else [c]) ++ markWords (some c) s

def snakeCase (s : Text) : Text := lower (markWords none s)

end Text

namespace Settings

def empty : Settings := ⟨[]⟩

def get? (s : Settings) (name : Text) : Option Datum := (s.entries.find? (·.1 == name)).map (·.2)

/-- A name that is already set keeps its place. -/
def put (s : Settings) (name : Text) (value : Datum) : Settings :=
  if s.entries.any (·.1 == name) then
    ⟨s.entries.map fun e => if e.1 == name then (name, value) else e⟩
  else ⟨s.entries ++ [(name, value)]⟩

def ofPairs (pairs : List (Text × Datum)) : Settings := pairs.foldl (fun s e => s.put e.1 e.2) empty

/-- The settings with all names in snake case; of names that become the same the last one counts. -/
def normalize (s : Settings) : Settings := ofPairs (s.entries.map fun e => (e.1.snakeCase, e.2))

def isNormal (s : Settings) : Bool := s.entries.all fun e => e.1.snakeCase == e.1

def defaults : Settings := ⟨[("print_width".toList, .int 80), ("tab_width".toList, .int 2)]⟩

def value (s : Settings) (name : Text) : Datum :=
  ((s.get? name).orElse fun _ => defaults.get? name).getD .none

/-- The settings, unless they set the name `self`, which stands for the settings themselves. -/
def checked (s : Settings) : Except Fault Settings :=
  if (s.get? "self".toList).isSome then .error .unsuitable else .ok s

def same (s t : Settings) : Bool :=
  s.entries.length == t.entries.length &&
    s.entries.all fun e => (t.get? e.1).any fun v => e.2.same v

def caption (name : Text) (s : Settings) : Text :=
  let fields := Text.join [' '] (s.entries.map fun e => e.1 ++ '=' :: e.2.caption)
  '<' :: Text.join [' '] ([name, fields].filter (!·.isEmpty)) ++ ['>']

/-- The widest line that fits. A width has to be a number; a fraction of a character does not count,
and what is no number bounds nothing. -/
def limit (s : Settings) : Except Fault Limit :=
  match s.value "print_width".toList with
  | .int i => .ok (.ofInt i)
  | .bool b => .ok (.ofInt (Datum.boolToInt b))
  | .double x =>
    if x.isNaN then .ok ⟨none, 0⟩
    else if x.isInfinite then .ok ⟨if x.isNegative then some (-1) else none, 0⟩
    else .ok ⟨some x.floor, x.truncate⟩
  | _ => .error .unsuitable

/-- The width of a tab. It has to be a whole number; a negative one counts as zero. -/
def tab (s : Settings) : Except Fault Nat :=
  match s.value "tab_width".toList with
  | .int i => .ok i.toNat
  | .bool b => .ok (Datum.boolToInt b).toNat
  | _ => .error .unsuitable

end Settings

/-- Settings as they are given: not at all, as the printer uses them, or under names in any case. -/
inductive Options where
  | absent
  | settings (s : Settings)
  | named (s : Settings)

def Options.coerce : Options → Except Fault Settings
  | absent => .ok .empty
  | settings s => .ok s
  | named s => s.normalize.checked

end Devalang
