import Devalang.Draft.Write
import Devalang.Draft.Walk
import Devalang.Settings

/-! Printing hand-built documents. -/
namespace Devalang.Draft

/-- The width of a tab and the widest line, or what is wrong with them; that is a fault only where
they are needed. -/
structure Measures where
  tab : Except Fault Nat
  limit : Except Fault Limit

def Measures.ofSettings (s : Settings) : Measures := ⟨s.tab, s.limit⟩

namespace Print

def blockText (nodes : List (Except Fault Datum)) : Except Fault Text := do
  Datum.joinTexts ['\n'] (← nodes.mapM id)

def layout (tab : Except Fault Nat) (head : Except Fault Datum) (body : List (Except Fault Datum))
    (branches : Except Fault (List (Except Fault Datum))) (tail : Datum) : Except Fault Datum := do
  let head ← head
  let body ← match body with
    | [] => pure []
    | body => do
      let inner ← blockText body
      pure [Datum.text (Text.indent (← tab) inner)]
  let branches ← (← branches).mapM id
  let tail := match tail with
    | .none => []
    | t => [t]
  return .text (← Datum.joinTexts ['\n'] (head :: (body ++ branches ++ tail)))

def isReplaceable (d : Datum) : Bool :=
  match d.slot? "line", d.slot? "end_line" with
  | some .none, _ => false
  | some line, some last =>
    !d.kind?.any Kind.isBlock && last.same line &&
      !(d.kind? == some .arrowCall && (d.slot? "chain").any Datum.isSet)
  | _, _ => false

/-- The place of a line number among the lines; negative numbers count from the end. -/
def lineIndex (count : Nat) : Datum → Except Fault Nat
  | .int i => place i
  | .bool b => place (Datum.boolToInt b)
  | _ => .error .unsuitable
where
  place (i : Int) : Except Fault Nat :=
    let j := if i < 0 then i + count else i
    if 0 ≤ j ∧ j < count then .ok j.toNat else .error .noSuchLine

def replace (limit : Except Fault Limit) (inner : Datum → Except Fault Datum) (lines : List Text)
    (d : Datum) : Except Fault (List Text) := do
  if !isReplaceable d then return lines
  let new ← (← inner d).asText
  if new.contains '\n' then return lines
  let leading ← ((d.slot? "leading").getD .none).asText
  if !(← limit).fits (leading ++ new).length then return lines
  let i ← lineIndex lines.length ((d.slot? "line").getD .none)
  return lines.modify i (replaceLine (leading ++ new))

def program (limit : Except Fault Limit) (inner : Datum → Except Fault Datum) (lines : List Text)
    (d : Datum) : Except Fault Text := do
  let trail := d.walk
  let lines ← (trail.elements.drop 1).foldlM (replace limit inner) lines
  match trail.fault with
  | some f => .error f
  | none => return Text.ofLines lines

/-- The text of a node, given the texts of its children and branches. `inner` gives the texts that
replace lines. -/
def nodeText (m : Measures) (inner : Datum → Except Fault Datum) (d : Datum)
    (body : List (Except Fault Datum)) (branches : Except Fault (List (Except Fault Datum))) :
    Except Fault Datum := do
  if !d.isElement then .error (.unprintable d.caption)
  else if d.kind? = some .program then
    match d.slot? "session" with
    | some (.session lines) => return .text (← program m.limit inner lines d)
    | some .none =>
      let s ← blockText body
      return .text (if body.isEmpty then [] else s ++ ['\n'])
    | _ => .error .noSuchAttribute
  else if d.kind?.any Kind.isBlock then layout m.tab d.write body branches d.tail
  else d.write

structure Printed where
  datum : Datum
  own : Except Fault Datum
  parts : Except Fault (List (Except Fault Datum))

/-- The texts of the branches: those of the parts of the second field of an `if`, and that of its
third field unless it is empty. -/
def branchTexts (kind : Kind) (slots : List Printed) : Except Fault (List (Except Fault Datum)) :=
  match kind, slots with
  | .conditional, _ :: elseIfs :: alternate :: _ => do
    return (← elseIfs.parts) ++ (match alternate.datum with
      | .none => []
      | _ => [alternate.own])
  | _, _ => .ok []

def Printed.plain (d : Datum) : Printed where
  datum := d
  own := .error (.unprintable d.caption)
  parts := d.parts.map fun ps => ps.map fun p => .error (.unprintable p.caption)

mutual

def printed (m : Measures) : Datum → Printed
  | .list xs =>
    ⟨.list xs, .error (.unprintable (Datum.list xs).caption), .ok ((printedAll m xs).map (·.own))⟩
  | .element id k ss cs =>
    let d := Datum.element id k ss cs
    let children := (printedAll m cs).map (·.own)
    ⟨d, nodeText m Datum.write d children (branchTexts k (printedAll m ss)), .ok children⟩
  | d => .plain d

def printedAll (m : Measures) : List Datum → List Printed
  | [] => []
  | d :: ds => printed m d :: printedAll m ds

end

end Print

/-- The text of a node with all that belongs to it. Only elements can be printed. -/
def Datum.print (m : Measures) (d : Datum) : Except Fault Datum := (Print.printed m d).own

def Datum.branches (d : Datum) : Except Fault (List Datum) := do
  if d.kind? = some .conditional then
    let elseIfs ← ((d.slot? "else_ifs").getD .none).parts
    return elseIfs ++ (match (d.slot? "alternate").getD .none with
      | .none => []
      | a => [a])
  else return []

def Datum.printWith (m : Measures) (inner : Datum → Except Fault Datum) (d : Datum) :
    Except Fault Datum :=
  Print.nodeText m inner d (d.children.map inner) (d.branches.map fun bs => bs.map inner)

end Devalang.Draft
