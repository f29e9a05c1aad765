import Devalang.Draft.Print
import Devalang.Proofs.Draft.Writing
import Devalang.Proofs.Document.Rewritten

/-! Printing the program of a document meets no fault: its elements can be walked, and the line of every
element that replaces one is among the lines of the program. -/
namespace Devalang
open Draft

/-! The walk. -/

def Node.Continues (n : Node) : Prop := ∀ b ∈ n.branches, n.statement.isConditional = true

namespace Draft

end Draft

namespace Node

end Node

namespace Draft

def places : List String := ["line", "end_line", "indent", "leading"]

end Draft

namespace Node

/-- The fields of the element of a node, those that its branches make included. -/
def allFields : Node → List Datum
  | node s _ _ es a =>
    if s.kind = .conditional then s.fields ++ [.list (formAll es), formOption a] else s.fields

theorem form_eq (n : Node) :
    n.form = Datum.form n.statement.kind n.allFields n.origin (formAll n.body) := by
  obtain ⟨s, o, b, es, a⟩ := n
  rfl

theorem kind_form (n : Node) : n.form.kind? = some n.statement.kind := by
  rw [form_eq]
  rfl

end Node

end Devalang
