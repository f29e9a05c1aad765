import Devalang.Statement
import Devalang.Document

/-! The outline of a document: its statements in the order in which they were read, each with the
place it has in a block. A statement is referred to by its index, so that statements can be added
to any block that is still open. -/
namespace Devalang

inductive Role where
  | body | elseIf | alternate
deriving DecidableEq, Repr

/-- A statement of a document, with the index of the block that it belongs to; statements of the
document itself have no owner. -/
structure Entry where
  statement : Statement
  origin : Option Origin
  owner : Option Nat
  role : Role

abbrev Outline := Array Entry

structure Members where
  body : Option Nat → List Node
  elseIfs : Option Nat → List Node
  alternate : Option Nat → Option Node

namespace Members

def none : Members := ⟨fun _ => [], fun _ => [], fun _ => Option.none⟩

/-- Puts a node in front of the others of its role. A block keeps its last alternate. -/
def add (m : Members) (owner : Option Nat) (role : Role) (n : Node) : Members :=
  match role with
  | .body => { m with body := fun o => if o = owner then n :: m.body o else m.body o }
  | .elseIf => { m with elseIfs := fun o => if o = owner then n :: m.elseIfs o else m.elseIfs o }
  | .alternate =>
    { m with alternate := fun o => if o = owner then some ((m.alternate o).getD n) else m.alternate o }

end Members

namespace Outline

def node (m : Members) (index : Nat) (e : Entry) : Node :=
  .node e.statement e.origin (m.body (some index)) (m.elseIfs (some index)) (m.alternate (some index))

def members : (index : Nat) → List Entry → Members
  | _, [] => .none
  | index, e :: es =>
    let m := members (index + 1) es
    m.add e.owner e.role (node m index e)

def nodes (o : Outline) : List Node := (members 0 o.toList).body Option.none

def node? (o : Outline) (index : Nat) : Option Node :=
  o[index]?.map (node (members 0 o.toList) index)

def topCount (o : Outline) : Nat := o.countP fun e => e.owner.isNone

def hasAlternate (o : Outline) (index : Nat) : Bool :=
  o.any fun e => e.owner == some index && e.role == .alternate

/-- Moves the last line of an entry, as when the closing brace of its block is read. -/
def close (o : Outline) (index last : Nat) : Outline :=
  o.modify index fun e => { e with origin := e.origin.map fun p => { p with last := last } }

end Outline

end Devalang
