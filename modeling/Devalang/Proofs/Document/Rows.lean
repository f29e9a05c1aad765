import Devalang.Document.Layout
import Devalang.Proofs.Text.Indent

/-! The lines in which a tree is written: the header of a block, its body indented by a tab, its branches,
and the line that closes it. -/
namespace Devalang
open Text

namespace Node
variable {tab : Nat}

def rows (tab : Nat) (n : Node) : List Text := splitOn '\n' (n.layout tab)

theorem newline_notMem_rows {n : Node} {row : Text} (h : row ∈ n.rows tab) : '\n' ∉ row :=
  notMem_of_mem_splitOn h

theorem rows_simple (tab : Nat) (s : Simple) (o : Option Origin) (b es : List Node) (a : Option Node) :
    (node (.simple s) o b es a).rows tab = splitOn '\n' s.write := rfl

theorem flatMap_splitOn_layoutAll (tab : Nat) (ns : List Node) :
    (layoutAll tab ns).flatMap (splitOn '\n') = ns.flatMap (rows tab) := by
  rw [layoutAll_eq_map, List.flatMap_map]
  rfl

theorem rows_block (tab : Nat) (h : Header) (o : Option Origin) (b es : List Node) (a : Option Node) :
    (node (.block h) o b es a).rows tab = splitOn '\n' h.write ++
      ((b.flatMap (rows tab)).map (indentLine tab) ++
        (es.flatMap (rows tab) ++ (a.toList.flatMap (rows tab) ++ h.tail?.toList))) := by
  have hbody : (if (layoutAll tab b).isEmpty then []
      else [indent tab (join ['\n'] (layoutAll tab b))]).flatMap (splitOn '\n') =
        (b.flatMap (rows tab)).map (indentLine tab) := by
    cases b with
    | nil => rfl
    | cons n ns =>
      rw [if_neg (by simp [layoutAll]), List.flatMap_singleton, splitOn_indent,
        splitOn_join_flatMap (by simp [layoutAll]), flatMap_splitOn_layoutAll]
  have hoption : (layoutOption tab a).flatMap (splitOn '\n') = a.toList.flatMap (rows tab) := by
    cases a <;> simp [layoutOption, rows]
  have htail : h.tail?.toList.flatMap (splitOn '\n') = h.tail?.toList := by
    cases h <;> rfl
  rw [rows, layout, layoutBlock, splitOn_join_flatMap (by simp), List.flatMap_cons, List.flatMap_append,
    List.flatMap_append, List.flatMap_append, hbody, flatMap_splitOn_layoutAll, hoption, htail,
    List.append_assoc, List.append_assoc]

end Node

theorem lines_layoutNodes (tab : Nat) (ns : List Node) :
    (layoutNodes tab ns).lines = ns.flatMap (Node.rows tab) := by
  rw [layoutNodes, lines_ofLines_flatMap, List.flatMap_map]
  rfl

end Devalang
