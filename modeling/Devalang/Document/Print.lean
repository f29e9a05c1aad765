import Devalang.Document.Layout
import Devalang.Settings

/-! Printing documents under settings. A width that is no number is a fault only where it is needed:
the print width for a line that could be replaced, the tab width for a body. -/
namespace Devalang

namespace Settings

/-- The limit for documents, `needed` if one of their lines could be replaced. -/
def limitFor (s : Settings) (needed : Bool) : Except Fault Limit :=
  match s.limit with
  | .ok l => .ok l
  | .error f => if needed then .error f else .ok ⟨none, 0⟩

def tabFor (s : Settings) (needed : Bool) : Except Fault Nat :=
  match s.tab with
  | .ok n => .ok n
  | .error f => if needed then .error f else .ok 0

/-- The print width has a whole part, so that remarks can name it. -/
def hasNamedLimit (s : Settings) : Bool :=
  match s.value "print_width".toList with
  | .double x => x.isFinite
  | _ => true

end Settings

def Node.print (s : Settings) (n : Node) : Except Fault Text :=
  return n.layout (← s.tabFor n.hasBody)

namespace Document

def print (s : Settings) (d : Document) : Except Fault Text :=
  return d.reformat (← s.limitFor (d.hasLine Node.write))

def printTree (s : Settings) (d : Document) : Except Fault Text :=
  return layoutNodes (← s.tabFor (Node.anyBody d.nodes)) d.nodes

end Document

namespace Settings

/-- Reads a source text and formats it in place. -/
def format (s : Settings) (t : Text) : Except Fault Text := (Document.read t).print s

def remarks (s : Settings) (t : Text) : Except Fault (List Remark) := do
  let d := Document.read t
  let sheet := d.sheet (← s.limitFor (d.hasLine Node.write)) Node.write
  if sheet.remarks.isEmpty || s.hasNamedLimit then
    return (Reading.ofText t).remarks.toList ++ sheet.remarks.toList
  else throw .overflow

end Settings

def Options.format (options : Options) (t : Text) : Except Fault Text := do
  (← options.coerce).format t

end Devalang
