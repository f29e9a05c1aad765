import Devalang.Proofs.Outline.Comparison
import Devalang.Proofs.Reading.Likeness
import Devalang.Proofs.Statement.Following
import Devalang.Proofs.Text.Indent

/-! Only the relative indent of the lines matters: an indented text is read as a document that is equal
to that of the text itself. -/
namespace Devalang
open Text

/-- The same statements in lines that are indented by `k` more. -/
def Likeness.indented (k : Nat) : Likeness where
  shift := k
  Shown p q := q.1 = p.1
  header h := by rw [h]
  close _ h := h

/-- Every comparison of indents turns out the same, and dedenting cancels the shift on every line that a
statement takes. -/
theorem Likeness.preserves_indentLine (k : Nat) (line : Text) (following : List Text) :
    (indented k).Preserves (indentLine k) line following where
  content := trim_indentLine k line
  shown _ _ := rfl
  indent h := by
    rw [leading_indentLine h, List.length_append, length_spaces, Nat.add_comm]
    rfl
  reads h index := by
    have hread : Statement.read? (leading (trimReturns (indentLine k line))).length
        (following.map (indentLine k)) (trim line) =
          Statement.read? (leading (trimReturns line)).length following (trim line) := by
      refine Statement.read?_dedent ?_
      rw [leading_indentLine h, List.length_append, length_spaces, Nat.add_comm, List.map_map]
      exact List.map_congr_left fun l _ => dedent_indentLine k _ l
    cases hr : Statement.read? (leading (trimReturns line)).length following (trim line) with
    | none => exact .unknown rfl hr (hread.trans hr)
    | some x => exact .known x.1 x.1 x.2 rfl hr (hread.trans hr)

theorem Reading.like_indent (k : Nat) (s : Text) :
    (ofText s).Like (.indented k) (ofText (indent k s)) :=
  like_ofText (lines_indent k s) fun line following _ => Likeness.preserves_indentLine k line following

/-- A text that is indented by any number of blanks is read as an equal document: the same statements
with the same bodies and branches. -/
theorem Document.compare_indent (k : Nat) (s : Text) :
    (Document.read (indent k s)).compare (Document.read s) = .equal := by
  refine compare_eq_equal_iff.2 (Outline.nodes_equal ?_)
  refine ((Reading.like_indent k s).outline.forall₂ (R := fun e e' => e'.Equal e) ?_).flip
  intro e e' h
  refine ⟨?_, h.owner, h.role⟩
  rw [show e'.statement = e.statement from h.shown]
  exact e.statement.compare_self

end Devalang
