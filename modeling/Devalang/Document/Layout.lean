import Devalang.Document

/-! Writing documents from their trees. -/
namespace Devalang

/-- The text of a block: its header, its body indented by `tab` spaces, its branches, and the line
that closes it. -/
def layoutBlock (tab : Nat) (h : Header) (body branches : List Text) : Text :=
  Text.join ['\n'] (h.write ::
    ((if body.isEmpty then [] else [Text.indent tab (Text.join ['\n'] body)]) ++ branches ++
      h.tail?.toList))

namespace Node

mutual

def layout (tab : Nat) : Node → Text
  | node (.simple s) _ _ _ _ => s.write
  | node (.block h) _ b es a =>
    layoutBlock tab h (layoutAll tab b) (layoutAll tab es ++ layoutOption tab a)

def layoutAll (tab : Nat) : List Node → List Text
  | [] => []
  | n :: ns => layout tab n :: layoutAll tab ns

def layoutOption (tab : Nat) : Option Node → List Text
  | none => []
  | some n => [layout tab n]

end

theorem layoutAll_eq_map (tab : Nat) (ns : List Node) : layoutAll tab ns = ns.map (layout tab) := by
  induction ns with
  | nil => rfl
  | cons n ns ih => rw [layoutAll, ih, List.map_cons]

/-- The text of a statement when what belongs to it is written by `inner`. -/
def layoutWith (tab : Nat) (inner : Node → Text) (n : Node) : Text :=
  match n.statement with
  | .simple s => s.write
  | .block h => layoutBlock tab h (n.body.map inner) (n.branches.map inner)

theorem layout_eq_layoutWith (tab : Nat) (n : Node) : layout tab n = layoutWith tab (layout tab) n := by
  obtain ⟨s, o, b, es, a⟩ := n
  cases s with
  | simple s => rfl
  | block h =>
    cases a <;>
      simp [layout, layoutWith, layoutAll_eq_map, layoutOption, statement, body, branches, elseIfs,
        alternate]

mutual

/-- Some body below the node is not empty, so its layout depends on the width of a tab. -/
def hasBody : Node → Bool
  | node (.simple _) _ _ _ _ => false
  | node (.block _) _ b es a => !b.isEmpty || anyBody b || anyBody es || optionBody a

def anyBody : List Node → Bool
  | [] => false
  | n :: ns => hasBody n || anyBody ns

def optionBody : Option Node → Bool
  | none => false
  | some n => hasBody n

end

end Node

def layoutNodes (tab : Nat) (ns : List Node) : Text := Text.ofLines (ns.map (Node.layout tab))

end Devalang
