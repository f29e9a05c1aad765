import Devalang.Draft.Bench

/-! Drawings of trees: a line for every node, in document order, with marks that lead to its parent. -/
namespace Devalang.Draft

/-- The marks of a drawing. Each stands for one level: a parent that has more children below, one
that has not, a child that is followed by another one, and a last child. -/
structure Pen where
  more : Text
  done : Text
  child : Text
  lastChild : Text

namespace Pen

def ascii : Pen := ⟨" | ".toList, "   ".toList, " |-".toList, " `-".toList⟩

def round : Pen := ⟨" │ ".toList, "   ".toList, " ├╴".toList, " ╰╴".toList⟩

def square : Pen := ⟨" │ ".toList, "   ".toList, " ├╴".toList, " └╴".toList⟩

def mark (p : Pen) (last : Bool) : Text := if last then p.lastChild else p.child

def filler (p : Pen) (last : Bool) : Text := if last then p.done else p.more

def ofName? (name : String) : Option Pen :=
  match name with
  | "ascii" => some ascii
  | "round" | "" => some round
  | "square" => some square
  | _ => none

end Pen

namespace Bench

/-- The marks in front of a node, found from the node outwards along as many parents as it has levels
above it. -/
def marks (b : Bench) (mark filler : Bool → Text) : (depth index : Nat) → Except Fault Text
  | 0, _ => .ok []
  | depth + 1, i => do
    let own := mark (← b.isLast i)
    match b.parent? i with
    | none => .error .unsuitable
    | some p => return (← marks b filler filler depth p) ++ own

def drawAt (b : Bench) (p : Pen) : (fuel depth index : Nat) → Except Fault (List Text)
  | 0, _, _ => .error .endless
  | fuel + 1, depth, i =>
    match b.record? (.place i) with
    | none => .error .noSuchAttribute
    | some r => do
      let line := (← b.marks p.mark p.filler depth i) ++ (← b.glance (.place i)).caption
      let below ← r.children.mapM (drawAt b p fuel (depth + 1))
      return line :: below.flatten

def draw (b : Bench) (p : Pen) : Handle → Except Fault Text
  | .place i => return Text.ofLines (← b.drawAt p (b.cells.size + 1) 0 i)
  | _ => .error .noSuchAttribute

end Bench

namespace Datum

mutual

/-- The lines of a drawing of a tree: `start` stands in front of the first line, `rest` in front of
all others. -/
def drawLines (p : Pen) (start rest : Text) : Datum → List Text
  | element i k ss cs =>
    (start ++ (element i k ss cs).caption) :: drawChildren p rest cs
  | d => [start ++ d.caption]

def drawChildren (p : Pen) (rest : Text) : List Datum → List Text
  | [] => []
  | d :: ds =>
    let last := ds.isEmpty
    drawLines p (rest ++ p.mark last) (rest ++ p.filler last) d ++ drawChildren p rest ds

end

def draw (p : Pen) (d : Datum) : Text := Text.ofLines (d.drawLines p [] [])

end Datum

end Devalang.Draft
