import Devalang.Proofs.Text.Returns
import Devalang.Proofs.Token.Shape
import Mathlib.Data.List.Forall2

/-! Carriage returns at the ends of lines change nothing about what a text leaves open and where its
arrows are. After a backslash in a string they are read together with it, and the newline is then plain
text; but what is open after the newline is the same. -/
namespace Devalang.Text.Returned
open Nesting
variable {s s' : Text}

theorem next_line (ls : Nesting) : (ls.next '\r').next '\n' = ls.next '\n' := by
  cases ls with
  | nil => rfl
  | cons l ls =>
    cases l with
    | escaped => rfl
    | inside d => cases d <;> rfl

theorem delimiters_run (h : Returned s s') (ls : Nesting) :
    (ls.run s').delimiters = (ls.run s).delimiters := by
  induction h generalizing ls with
  | nil => rfl
  | last => exact delimiters_next_blank isBlank_return
  | cons c _ ih => exact ih (ls.next c)
  | line _ ih =>
    rw [run_cons, run_cons, run_cons, next_line]
    exact ih (ls.next '\n')

theorem openDelimiters (h : Returned s s') : s'.openDelimiters = s.openDelimiters := by
  rw [openDelimiters_eq, openDelimiters_eq, h.delimiters_run]

theorem cutAt (h : Returned s s') (ls : Nesting) :
    Returned (cutAt (· == .arrow) ls s).1 (cutAt (· == .arrow) ls s').1 ∧
      Option.Rel Returned (cutAt (· == .arrow) ls s).2 (cutAt (· == .arrow) ls s').2 := by
  have hsep (ls : Nesting) (c : Char) : ¬ (ls = [] ∧ PieceKind.separates (· == .arrow) c = true) := by
    simp [PieceKind.separates]
  have hplain (ls : Nesting) {c : Char} (hc : c ≠ '-') (s : Text) : Devalang.cutAt (· == .arrow) ls (c :: s) =
      (c :: (Devalang.cutAt (· == .arrow) (ls.next c) s).1,
        (Devalang.cutAt (· == .arrow) (ls.next c) s).2) := by
    rw [Devalang.cutAt, if_neg (hsep ls c), if_neg fun h => hc h.2.2.1]
  induction h generalizing ls with
  | nil => exact ⟨.nil, .none⟩
  | last =>
    rw [hplain ls (by decide)]
    exact ⟨.last, .none⟩
  | @cons c s s' h ih =>
    have hhead : s'.head? = some '>' ↔ s.head? = some '>' := h.head?_eq (by decide) (by decide)
    rw [Devalang.cutAt, Devalang.cutAt, if_neg (hsep ls c), if_neg (hsep ls c)]
    by_cases hc : ls = [] ∧ (PieceKind.arrow == .arrow) = true ∧ c = '-' ∧ s.head? = some '>'
    · rw [if_pos hc, if_pos ⟨hc.1, hc.2.1, hc.2.2.1, hhead.2 hc.2.2.2⟩]
      refine ⟨.nil, .some ?_⟩
      cases h with
      | cons d h => exact h
      | nil => exact .nil
      | last => cases hc.2.2.2
      | line h => cases hc.2.2.2
    · rw [if_neg hc, if_neg fun h => hc ⟨h.1, h.2.1, h.2.2.1, hhead.1 h.2.2.2⟩]
      exact ⟨.cons c (ih (ls.next c)).1, (ih (ls.next c)).2⟩
  | line _ ih =>
    rw [hplain ls (by decide), hplain ls (by decide), hplain _ (by decide), next_line]
    exact ⟨.line (ih _).1, (ih _).2⟩

theorem length_of_cutAt {K : PieceKind → Bool} {ls : Nesting} {t r : Text}
    (h : Devalang.cutAt K ls s = (t, some r)) : r.length < s.length := by
  induction s generalizing ls t with
  | nil => cases h
  | cons c s ih =>
    rw [Devalang.cutAt] at h
    split at h
    · cases h
      exact Nat.lt_succ_self _
    split at h
    · cases h
      rw [List.length_tail, List.length_cons]
      omega
    · have hcut : (Devalang.cutAt K (ls.next c) s).2 = some r := congrArg (fun cut => cut.2) h
      have hlt := ih (Prod.ext rfl hcut)
      rw [List.length_cons]
      omega

/-- The links of the two texts are the same up to carriage returns at the ends of their lines. -/
theorem links (h : Returned s s') : List.Forall₂ Returned (links s) (links s') := by
  induction hn : s.length using Nat.strongRecOn generalizing s s' with
  | ind n ih =>
    have hcut := h.cutAt []
    generalize hc : Devalang.cutAt (· == .arrow) [] s = cut at hcut
    generalize hc' : Devalang.cutAt (· == .arrow) [] s' = cut' at hcut
    obtain ⟨t, o⟩ := cut
    obtain ⟨t', o'⟩ := cut'
    obtain ⟨ht, ho⟩ : Returned t t' ∧ Option.Rel Returned o o' := hcut
    cases ho with
    | none =>
      rw [Text.links, Text.links, segments_of_cut_none rfl hc, segments_of_cut_none rfl hc']
      exact .cons ht.trim .nil
    | some hr =>
      rw [links_of_cut hc, links_of_cut hc']
      exact .cons ht.trim (ih _ (hn ▸ length_of_cutAt hc) hr rfl)

theorem trimmed_of_mem_links {t : Text} (h : t ∈ Text.links s) : Trimmed t := by
  obtain ⟨u, -, rfl⟩ := List.mem_map.1 h
  exact trimmed_trim u

end Devalang.Text.Returned
