import Devalang.Draft.Kind
import Devalang.Duration

/-! Values of hand-built documents. Such a document is put together without a check on most of its
parts, so any attribute of an element can hold any value. -/
namespace Devalang.Draft

/-- A value. An element has an identity, its kind, the values of its attributes in the order of
`Kind.slots`, and its children, which are elements or bare nodes. -/
inductive Datum where
  | none
  | bool (value : Bool)
  | int (value : Int)
  | double (value : Double)
  | text (value : Text)
  | duration (value : Duration)
  /-- The lines of the source that a program was read from. -/
  | session (lines : List Text)
  | list (items : List Datum)
  /-- A call in an arrow chain. -/
  | call (method arguments : Datum)
  | element (id : Nat) (kind : Kind) (slots : List Datum) (children : List Datum)

namespace Datum

/-! Captions. -/

def boolCaption : Bool → Text
  | true => "True".toList
  | false => "False".toList

def numberCaption : Number → Text
  | .written t => t.quoted
  | .integer i => Text.ofInt i
  | .double x => x.shown

def durationCaption (d : Duration) : Text :=
  d.label ++ '(' :: (match d with
    | .beat t => t.quoted
    | .milliseconds n => numberCaption n
    | .auto => []) ++ [')']

def sessionCaption (lines : List Text) : Text :=
  "<Session (".toList ++ Text.ofNat lines.length ++ " lines)>".toList

def listCaption (parts : List Text) : Text := '[' :: Text.join [',', ' '] parts ++ [']']

/-- A value as it is shown: whole, and shortened at a depth in lists. -/
structure Caption where
  whole : Text
  short : (depth : Nat) → Text

namespace Caption

def plain (t : Text) : Caption := ⟨t, fun _ => t.clip 30⟩

/-- A list is shortened to its first six items; lists nested too deep are left out. -/
def list (items : List Caption) : Caption where
  whole := listCaption (items.map (·.whole))
  short
    | 0 => if items.isEmpty then ['[', ']'] else "[...]".toList
    | depth + 1 =>
      listCaption ((items.take 6).map (·.short depth) ++
        if 6 < items.length then ["...".toList] else [])

def childCount (n : Nat) : Text :=
  '(' :: Text.ofNat n ++ (if n = 1 then " child)" else " children)").toList

/-- An element is shown by its kind, its fields, the number of its children, if it has any, and its
line. -/
def element (kind : Kind) (fields : List Caption) (children : Nat) (line : Option Text) : Text :=
  if kind = .node then "<Node ".toList ++ childCount children ++ ['>']
  else
    let parts := (kind.family ++ "." ++ kind.name).toList ::
      ((if fields.isEmpty then [] else [Text.join [' '] (fields.map (·.short 6))]) ++
      (if children = 0 then [] else [childCount children]) ++
      (line.map fun l => '[' :: l ++ [']']).toList)
    '<' :: Text.join [' '] parts ++ ['>']

end Caption

def formatWith (whole : Text) : Datum → Text
  | text t => t
  | _ => whole

mutual

def captions : Datum → Caption
  | none => .plain "None".toList
  | bool b => .plain (boolCaption b)
  | int i => ⟨Text.ofInt i, fun _ => (Text.ofInt i).clip 40⟩
  | double x => .plain x.shown
  | text t => ⟨t.quoted, fun _ => t.quotedShort⟩
  | duration d => .plain (durationCaption d)
  | session ls => .plain (sessionCaption ls)
  | list xs => .list (captionsAll xs)
  | call m as =>
    .plain ("ChainCall(method=".toList ++ (captions m).whole ++ ", args=".toList ++
      (captions as).whole ++ [')'])
  | element _ k ss cs =>
    let shown := captionsAll ss
    let place := k.slots.idxOf "line"
    let line := match ss[place]?, shown[place]? with
      | some none, _ => Option.none
      | some d, some c => some (formatWith c.whole d)
      | _, _ => Option.none
    .plain (Caption.element k (shown.take k.fields.length) cs.length line)

def captionsAll : List Datum → List Caption
  | [] => []
  | d :: ds => captions d :: captionsAll ds

end

def caption (d : Datum) : Text := d.captions.whole

/-- A value as a part of a text: texts stand for themselves, other values are shown. -/
def format (d : Datum) : Text := formatWith d.caption d

/-! Elements and their attributes. -/

def kind? : Datum → Option Kind
  | element _ k _ _ => some k
  | _ => Option.none

def isElement (d : Datum) : Bool := d.kind?.any Kind.isElement

def children : Datum → List Datum
  | element _ _ _ cs => cs
  | _ => []

def slot? (name : String) : Datum → Option Datum
  | element _ k ss _ => if k.slots.contains name then ss[k.slots.idxOf name]? else Option.none
  | _ => Option.none

/-! Numbers and durations as values. -/

def ofNumber : Number → Datum
  | .written t => text t
  | .integer i => int i
  | .double x => double x

def ofDuration : Duration → Datum
  | .beat t => text t
  | .milliseconds n => ofNumber n
  | .auto => text "auto".toList

/-! What is done with values of any sort. -/

/-- Empty and zero values do not count as set; an element always does. -/
def isSet : Datum → Bool
  | none => false
  | bool b => b
  | int i => i != 0
  | double x => !x.equal ⟨0⟩
  | text t => !t.isEmpty
  | list xs => !xs.isEmpty
  | _ => true

def parts : Datum → Except Fault (List Datum)
  | text t => .ok (t.map fun c => text [c])
  | list xs => .ok xs
  | call m as => .ok [m, as]
  | element _ _ _ cs => .ok cs
  | _ => .error .unsuitable

def asText : Datum → Except Fault Text
  | text t => .ok t
  | _ => .error .unsuitable

def joinTexts (sep : Text) (ds : List Datum) : Except Fault Text :=
  return Text.join sep (← ds.mapM asText)

def equalInt (i : Int) (x : Double) : Bool := x.toInt? == some i

def boolToInt (b : Bool) : Int := if b then 1 else 0

mutual

/-- Equality of values. Numbers are compared by value, nodes by identity. -/
def same : Datum → Datum → Bool
  | none, none => true
  | bool a, bool b => a == b
  | bool a, int j => boolToInt a == j
  | bool a, double y => equalInt (boolToInt a) y
  | int i, bool b => i == boolToInt b
  | int i, int j => i == j
  | int i, double y => equalInt i y
  | double x, bool b => equalInt (boolToInt b) x
  | double x, int j => equalInt j x
  | double x, double y => x.equal y
  | text a, text b => a == b
  | duration a, duration b => a.same b
  | list xs, list ys => sameAll xs ys
  | call m as, call n bs => same m n && same as bs
  | element i _ _ _, element j _ _ _ => i == j
  | _, _ => false

def sameAll : List Datum → List Datum → Bool
  | [], [] => true
  | x :: xs, y :: ys => same x y && sameAll xs ys
  | _, _ => false

end

end Datum

end Devalang.Draft
