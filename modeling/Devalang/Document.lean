import Devalang.Statement

/-! Documents as trees of statements. -/
namespace Devalang

/-- Where a statement was read: its first and its last line, and the blanks that the first line
starts with. -/
structure Origin where
  line : Nat
  last : Nat
  leading : Text
deriving DecidableEq, Repr

namespace Origin

def indent (o : Origin) : Nat := o.leading.length

def isMultiline (o : Origin) : Bool := o.last != o.line

end Origin

/-- A statement with the statements in its body and, of an `if`, the branches that continue it. -/
inductive Node where
  | node (statement : Statement) (origin : Option Origin) (body : List Node) (elseIfs : List Node)
    (alternate : Option Node)

namespace Node

def statement : Node → Statement
  | node s _ _ _ _ => s

def origin : Node → Option Origin
  | node _ o _ _ _ => o

def body : Node → List Node
  | node _ _ b _ _ => b

def elseIfs : Node → List Node
  | node _ _ _ es _ => es

def alternate : Node → Option Node
  | node _ _ _ _ a => a

def branches (n : Node) : List Node := n.elseIfs ++ n.alternate.toList

def write (n : Node) : Text := n.statement.write

/-! Document order: a node, its body, its branches. -/

mutual

def walk : Node → List Node
  | node s o b es a => node s o b es a :: (walkAll b ++ walkAll es ++ walkOption a)

def walkAll : List Node → List Node
  | [] => []
  | n :: ns => n.walk ++ walkAll ns

def walkOption : Option Node → List Node
  | none => []
  | some n => n.walk

end

theorem walkAll_eq_flatMap (ns : List Node) : walkAll ns = ns.flatMap walk := by
  induction ns with
  | nil => rfl
  | cons n ns ih => rw [walkAll, ih, List.flatMap_cons]

/-! Comparison of trees, origins left out. -/

mutual

/-- The numbers of statements in the bodies are compared first, then the statements, the branches and
the bodies. -/
def compare : Node → Node → Comparison
  | node s _ b es a, node s' _ b' es' a' =>
    if b.length = b'.length then
      (s.compare s').and ((if es.length = es'.length then compareAll es es' else .differs).and
        ((compareOption a a').and (compareAll b b')))
    else .differs

def compareAll : List Node → List Node → Comparison
  | [], _ => .equal
  | _, [] => .equal
  | n :: ns, m :: ms => (compare n m).and (compareAll ns ms)

def compareOption : Option Node → Option Node → Comparison
  | none, none => .equal
  | some n, some m => compare n m
  | _, _ => .differs

end

end Node

/-- A document that was read, with the lines of its source. -/
structure Document where
  lines : List Text
  nodes : List Node

namespace Document

def walk (d : Document) : List Node := Node.walkAll d.nodes

def compare (d e : Document) : Comparison :=
  if d.nodes.length = e.nodes.length then Node.compareAll d.nodes e.nodes else .differs

end Document

end Devalang
