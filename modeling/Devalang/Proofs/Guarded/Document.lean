import Devalang.Proofs.Document.Branches
import Devalang.Proofs.Document.Settings
import Devalang.Proofs.Draft.Printing
import Devalang.Proofs.Guarded.Statement

/-! Reading and formatting a document with all checks in place meets no fault, and gives what reading and
formatting without them give. -/
namespace Devalang
open Draft

namespace Guarded

theorem make_unknown (t : Text) : make (.simple (.unknown t)) = .ok (.simple (.unknown t)) := make_eq rfl

theorem addStatement_eq (r : Reading) (index : Nat) (leading content : Text) (following : List Text) :
    addStatement r index leading content following =
      .ok (r.addStatement index leading content following) := by
  rw [addStatement, read?_eq, ok_bind, Reading.addStatement]
  cases Statement.read? leading.length following content with
  | none =>
    rw [make_unknown]
    rfl
  | some x =>
    obtain ⟨s, n⟩ := x
    cases s <;> rfl

theorem readLine_eq (r : Reading) (index : Nat) (line : Text) (following : List Text) :
    readLine r index line following = .ok (r.readLine index line following) := by
  have hblank : make (.simple .blank) = .ok (.simple .blank) := make_eq rfl
  have hbranch : make? ((Header.readBranch (Text.trim line)).map fun h => (.block h, 0)) =
      .ok ((Header.readBranch (Text.trim line)).map fun h => (.block h, 0)) := by
    refine make?_eq fun st n hst => ?_
    obtain ⟨h, hh, he⟩ := Option.map_eq_some_iff.1 hst
    cases he
    exact Statement.passes_of_readBranch hh
  rw [readLine, Reading.readLine]
  simp only [hblank, hbranch, make_unknown, ok_bind, addStatement_eq]
  split
  · rfl
  split
  · obtain ⟨r', joined, hadd⟩ : ∃ r' joined, r.addBranch index (Text.leading (Text.trimReturns line)).length
        (some ⟨index, index, Text.leading (Text.trimReturns line)⟩) (Text.trim line) = (r', joined) :=
      ⟨_, _, rfl⟩
    simp only [hadd]
    cases joined <;> rfl
  split
  · split <;> rfl
  split <;> rfl

theorem readLines_eq (r : Reading) (skip index : Nat) (lines : List Text) :
    readLines r skip index lines = .ok (r.readLines skip index lines) := by
  induction lines generalizing r skip index with
  | nil => cases skip <;> rfl
  | cons line lines ih =>
    cases skip with
    | succ skip => exact ih r skip (index + 1)
    | zero =>
      rw [readLines, readLine_eq, ok_bind]
      exact ih _ _ (index + 1)

theorem read_eq (s : Text) : read s = .ok (Document.read s) := by
  rw [read, readLines_eq]
  rfl

end Guarded

namespace Document
variable {s : Text} {n : Node} {o : Origin}

end Document

end Devalang
