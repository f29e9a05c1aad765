import Devalang.Document
import Devalang.Outline.Reading

/-! Formatting a document in place: a line is replaced by the text of its statement if that takes
one line and is not too wide. All other lines are kept as they were. -/
namespace Devalang

/-- The widest line that a replaced line may become. -/
structure Limit where
  /-- The greatest length that fits; none if every length does. -/
  most : Option Int
  /-- The width that remarks name. -/
  shown : Int
deriving DecidableEq, Repr

namespace Limit

def ofInt (width : Int) : Limit := ⟨some width, width⟩

def fits (l : Limit) (length : Nat) : Bool :=
  match l.most with
  | none => true
  | some m => (length : Int) ≤ m

end Limit

namespace Node

/-- The origin of a statement whose line may be replaced: a simple one that was read from one line
and is no chain of calls. -/
def replaceable? (n : Node) : Option Origin :=
  match n.statement, n.origin with
  | .simple (.arrow _ _ (_ :: _)), _ => none
  | .simple _, some o => if o.isMultiline then none else some o
  | _, _ => none

end Node

/-- The new text of a line, which keeps the carriage return at its end. -/
def replaceLine (new old : Text) : Text :=
  if old.getLast? = some '\r' then new ++ ['\r'] else new

structure Sheet where
  lines : List Text
  remarks : Array Remark

def Sheet.replace (limit : Limit) (text : Node → Text) (s : Sheet) (n : Node) : Sheet :=
  match n.replaceable? with
  | none => s
  | some o =>
    let new := o.leading ++ text n
    if (text n).contains '\n' then s
    else if limit.fits new.length then { s with lines := s.lines.modify o.line (replaceLine new) }
    else { s with remarks := s.remarks.push (.tooWide o.line limit.shown) }

namespace Document

def sheet (limit : Limit) (text : Node → Text) (d : Document) : Sheet :=
  d.walk.foldl (Sheet.replace limit text) ⟨d.lines, #[]⟩

def reformat (limit : Limit) (d : Document) : Text :=
  Text.ofLines (d.sheet limit Node.write).lines

/-- Some statement takes one line, so that the result depends on the width. -/
def hasLine (text : Node → Text) (d : Document) : Bool :=
  d.walk.any fun n => n.replaceable?.isSome && !(text n).contains '\n'

end Document

/-- Reads a source text and formats it in place. -/
def format (limit : Limit) (s : Text) : Text := (Document.read s).reformat limit

end Devalang
