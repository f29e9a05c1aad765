import Devalang.Proofs.Document.Coverage
import Devalang.Proofs.Reading.Provenance
import Devalang.Proofs.Text.Lines
import Devalang.Document.Reformat
import Mathlib.Data.List.Pairwise

/-! Formatting in place, line by line: the line of a statement that takes one line and fits becomes
the text of the statement, and every other line stays as it is. -/
namespace Devalang

/-- The line that a statement rewrites, and its new text without the carriage return at its end. -/
def Node.rewrite? (limit : Limit) (n : Node) : Option (Nat × Text) :=
  n.replaceable?.bind fun o =>
    if !n.write.contains '\n' && limit.fits (o.leading ++ n.write).length then
      some (o.line, o.leading ++ n.write)
    else none

theorem Node.rewrite?_eq_some_iff {limit : Limit} {n : Node} {i : Nat} {t : Text} :
    n.rewrite? limit = some (i, t) ↔ ∃ o, n.replaceable? = some o ∧ '\n' ∉ n.write ∧
      limit.fits (o.leading ++ n.write).length = true ∧ o.line = i ∧ t = o.leading ++ n.write := by
  simp only [Node.rewrite?, Option.bind_eq_some_iff, Option.ite_none_right_eq_some,
    Bool.and_eq_true, Bool.not_eq_true', List.contains_eq_mem, decide_eq_false_iff_not,
    Option.some.injEq, Prod.mk.injEq, and_assoc]
  grind

theorem Node.origin_of_replaceable? {n : Node} {o : Origin} (h : n.replaceable? = some o) :
    n.origin = some o ∧ o.last = o.line ∧ ∃ s, n.statement = .simple s := by
  simp only [Node.replaceable?] at h
  split at h
  · cases h
  · rename_i s p hne hs hp
    split at h
    · cases h
    · rename_i hm
      cases h
      exact ⟨hp, by simpa [Origin.isMultiline] using hm, s, hs⟩
  · cases h

theorem replaceLine_eq (new old : Text) :
    replaceLine new old = new ++ if old.getLast? = some '\r' then ['\r'] else [] := by
  unfold replaceLine
  split <;> simp

section Edits

def applyEdits (edits : List (Nat × Text)) (lines : List Text) : List Text :=
  edits.foldl (fun ls e => ls.modify e.1 (replaceLine e.2)) lines

variable {edits : List (Nat × Text)} {lines : List Text} {i : Nat} {t : Text}

theorem length_applyEdits (edits : List (Nat × Text)) (lines : List Text) :
    (applyEdits edits lines).length = lines.length := by
  induction edits generalizing lines with
  | nil => rfl
  | cons e edits ih =>
    have h := ih (lines.modify e.1 (replaceLine e.2))
    rwa [List.length_modify] at h

theorem getElem?_applyEdits_of_notMem (h : i ∉ edits.map Prod.fst) :
    (applyEdits edits lines)[i]? = lines[i]? := by
  induction edits generalizing lines with
  | nil => rfl
  | cons e edits ih =>
    rw [List.map_cons, List.mem_cons, not_or] at h
    have hi := @ih (lines.modify e.1 (replaceLine e.2)) h.2
    rw [List.getElem?_modify_ne _ _ (Ne.symm h.1)] at hi
    simpa [applyEdits] using hi

theorem getElem?_applyEdits_of_mem (hn : (edits.map Prod.fst).Nodup) (h : (i, t) ∈ edits) :
    (applyEdits edits lines)[i]? = lines[i]?.map (replaceLine t) := by
  induction edits generalizing lines with
  | nil => simp at h
  | cons e edits ih =>
    rw [List.map_cons, List.nodup_cons] at hn
    rcases List.mem_cons.1 h with rfl | h
    · have hi := @getElem?_applyEdits_of_notMem _ (lines.modify i (replaceLine t)) _ hn.1
      rw [List.getElem?_modify_eq] at hi
      simpa [applyEdits] using hi
    · have hne : e.1 ≠ i := by
        rintro rfl
        exact hn.1 (List.mem_map.2 ⟨_, h, rfl⟩)
      have hi := @ih (lines.modify e.1 (replaceLine e.2)) hn.2 h
      rw [List.getElem?_modify_ne _ _ hne] at hi
      simpa [applyEdits] using hi

end Edits

theorem Sheet.replace_lines (limit : Limit) (s : Sheet) (n : Node) :
    (Sheet.replace limit Node.write s n).lines =
      applyEdits (n.rewrite? limit).toList s.lines := by
  simp only [Sheet.replace, Node.rewrite?]
  cases n.replaceable? with
  | none => rfl
  | some o =>
    simp only [Option.bind_some]
    by_cases hc : n.write.contains '\n' = true
    · rw [if_pos hc, hc]
      rfl
    · rw [if_neg hc, Bool.eq_false_iff.2 hc]
      by_cases hf : limit.fits (o.leading ++ n.write).length = true
      · rw [if_pos hf, hf]
        rfl
      · rw [if_neg hf, Bool.eq_false_iff.2 hf]
        rfl

theorem Sheet.foldl_replace_lines (limit : Limit) (ns : List Node) (s : Sheet) :
    (ns.foldl (Sheet.replace limit Node.write) s).lines =
      applyEdits (ns.filterMap (Node.rewrite? limit)) s.lines := by
  induction ns generalizing s with
  | nil => rfl
  | cons n ns ih =>
    rw [List.foldl_cons, ih, Sheet.replace_lines]
    cases h : n.rewrite? limit with
    | none => simp [h, applyEdits]
    | some e => simp [h, applyEdits]

namespace Document
variable {limit : Limit} {s : Text} {n : Node} {o : Origin} {i : Nat} {t : Text}

theorem readsFrom (h : n ∈ (Document.read s).walk) : n.statement.ReadsFrom s.lines n.origin := by
  have hm : n.shown ∈ (Reading.ofText s).outline.toList.map Entry.shown :=
    (walk_shown s).subset (List.mem_map_of_mem h)
  obtain ⟨e, he, hs⟩ := List.mem_map.1 hm
  simp only [Entry.shown, Node.shown, Prod.mk.injEq] at hs
  rw [← hs.1, ← hs.2]
  exact Reading.faithful_ofText s e he

theorem eq_of_mem_stretches {m : Node} (hm : m ∈ (Document.read s).walk)
    (hn : n ∈ (Document.read s).walk) (hi : ∃ t ∈ m.stretches, i ∈ t)
    (hj : ∃ t ∈ n.stretches, i ∈ t) : m = n := by
  by_contra hne
  have : Std.Symm fun m n : Node => m.stretches.flatten.Disjoint n.stretches.flatten :=
    ⟨fun _ _ h _ hm hn => h hn hm⟩
  have hd := (walk_disjoint s).forall hm hn hne
  obtain ⟨t, ht, hit⟩ := hi
  obtain ⟨u, hu, hju⟩ := hj
  exact hd (List.mem_flatten.2 ⟨t, ht, hit⟩) (List.mem_flatten.2 ⟨u, hu, hju⟩)

theorem line_mem_of_replaceable? (h : n.replaceable? = some o) : ∃ t ∈ n.stretches, o.line ∈ t := by
  obtain ⟨ho, hl, -⟩ := Node.origin_of_replaceable? h
  exact line_mem_stretches ho (Nat.le_of_eq hl.symm)

theorem line_mem_of_rewrite? (h : n.rewrite? limit = some (i, t)) : ∃ t ∈ n.stretches, i ∈ t := by
  obtain ⟨o, ho, -, -, rfl, -⟩ := Node.rewrite?_eq_some_iff.1 h
  exact line_mem_of_replaceable? ho

def edits (limit : Limit) (d : Document) : List (Nat × Text) := d.walk.filterMap (Node.rewrite? limit)

theorem nodup_edits (limit : Limit) (s : Text) :
    (((Document.read s).edits limit).map Prod.fst).Nodup := by
  rw [List.Nodup, List.pairwise_map, edits, List.pairwise_filterMap]
  refine (walk_disjoint s).imp ?_
  rintro m n hd ⟨i, t⟩ hm ⟨j, u⟩ hn hij
  obtain ⟨v, hv, hi⟩ := line_mem_of_rewrite? hm
  obtain ⟨w, hw, hj⟩ := line_mem_of_rewrite? hn
  have hij : i = j := hij
  exact hd (List.mem_flatten.2 ⟨v, hv, hi⟩) (List.mem_flatten.2 ⟨w, hw, hij ▸ hj⟩)

theorem sheet_lines (limit : Limit) (d : Document) :
    (d.sheet limit Node.write).lines = applyEdits (d.edits limit) d.lines :=
  Sheet.foldl_replace_lines limit d.walk ⟨d.lines, #[]⟩

theorem getElem?_sheet_of_rewrite? (hn : n ∈ (Document.read s).walk)
    (h : n.rewrite? limit = some (i, t)) :
    ((Document.read s).sheet limit Node.write).lines[i]? = s.lines[i]?.map (replaceLine t) := by
  rw [sheet_lines]
  exact getElem?_applyEdits_of_mem (nodup_edits limit s) (List.mem_filterMap.2 ⟨n, hn, h⟩)

theorem getElem?_sheet_of_keep
    (h : ∀ n ∈ (Document.read s).walk, ∀ t, n.rewrite? limit ≠ some (i, t)) :
    ((Document.read s).sheet limit Node.write).lines[i]? = s.lines[i]? := by
  rw [sheet_lines]
  refine getElem?_applyEdits_of_notMem ?_
  rintro hm
  obtain ⟨⟨j, t⟩, he, rfl⟩ := List.mem_map.1 hm
  obtain ⟨n, hn, hr⟩ := List.mem_filterMap.1 he
  exact h n hn t hr

theorem getElem?_line (hn : n ∈ (Document.read s).walk) (ho : n.origin = some o) :
    ∃ line, s.lines[o.line]? = some line ∧ o.leading = Text.leading (Text.trimReturns line) := by
  obtain ⟨p, line, following, k, hp, hdrop, hlead, -⟩ := readsFrom hn
  obtain rfl : o = p := by simpa [ho] using hp
  refine ⟨line, ?_, hlead⟩
  rw [← List.head?_drop, hdrop, List.head?_cons]

theorem newline_notMem_sheet {line : Text}
    (h : line ∈ ((Document.read s).sheet limit Node.write).lines) : '\n' ∉ line := by
  obtain ⟨i, hi⟩ := List.mem_iff_getElem?.1 h
  by_cases hr : ∃ n ∈ (Document.read s).walk, ∃ t, n.rewrite? limit = some (i, t)
  · obtain ⟨n, hn, t, ht⟩ := hr
    rw [getElem?_sheet_of_rewrite? hn ht] at hi
    obtain ⟨old, hold, rfl⟩ := Option.map_eq_some_iff.1 hi
    obtain ⟨o, ho, hw, -, rfl, rfl⟩ := Node.rewrite?_eq_some_iff.1 ht
    obtain ⟨line, hline, hlead⟩ := getElem?_line hn (Node.origin_of_replaceable? ho).1
    obtain rfl : line = old := by simpa [hold] using hline.symm
    have hnl : '\n' ∉ line := Text.newline_notMem_of_mem_lines (List.mem_of_getElem? hold)
    have hnlead : '\n' ∉ o.leading := by
      rw [hlead]
      intro hm
      have hm := (List.takeWhile_prefix _).subset hm
      rw [Text.trimReturns, List.mem_reverse] at hm
      exact hnl (List.mem_reverse.1 ((List.dropWhile_suffix _).subset hm))
    rw [replaceLine_eq]
    split <;> simp [hw, hnlead]
  · rw [getElem?_sheet_of_keep (fun n hn t ht => hr ⟨n, hn, t, ht⟩)] at hi
    exact Text.newline_notMem_of_mem_lines (List.mem_of_getElem? hi)

end Document

section Format
variable {limit : Limit} {s : Text} {n : Node} {i : Nat} {t : Text}

theorem lines_format (limit : Limit) (s : Text) :
    (format limit s).lines = ((Document.read s).sheet limit Node.write).lines :=
  Text.lines_ofLines fun _ h => Document.newline_notMem_sheet h

theorem length_lines_format (limit : Limit) (s : Text) :
    (format limit s).lines.length = s.lines.length := by
  rw [lines_format, Document.sheet_lines, length_applyEdits]
  rfl

theorem format_eq_ofLines (limit : Limit) (s : Text) :
    format limit s = Text.ofLines (format limit s).lines := by
  rw [lines_format]
  rfl

theorem format_eq_nil_iff : format limit s = [] ↔ s = [] := by
  rw [format_eq_ofLines, Text.ofLines_eq_nil_iff, ← List.length_eq_zero_iff, length_lines_format,
    List.length_eq_zero_iff, Text.lines_eq_nil_iff]

theorem getLast?_format (h : s ≠ []) : (format limit s).getLast? = some '\n' := by
  rw [format_eq_ofLines]
  refine Text.getLast?_ofLines fun hn => h ?_
  rw [← List.length_eq_zero_iff, length_lines_format, List.length_eq_zero_iff] at hn
  exact Text.lines_eq_nil_iff.1 hn

theorem getElem?_format_of_rewrite? (hn : n ∈ (Document.read s).walk)
    (h : n.rewrite? limit = some (i, t)) :
    (format limit s).lines[i]? = s.lines[i]?.map (replaceLine t) := by
  rw [lines_format]
  exact Document.getElem?_sheet_of_rewrite? hn h

theorem getElem?_format_of_keep
    (h : ∀ n ∈ (Document.read s).walk, ∀ t, n.rewrite? limit ≠ some (i, t)) :
    (format limit s).lines[i]? = s.lines[i]? := by
  rw [lines_format]
  exact Document.getElem?_sheet_of_keep h

theorem getElem?_format_of_replaceable? (hn : n ∈ (Document.read s).walk) (hk : n.replaceable? = none)
    (hi : ∃ t ∈ n.stretches, i ∈ t) : (format limit s).lines[i]? = s.lines[i]? := by
  refine getElem?_format_of_keep fun m hm u hu => ?_
  obtain rfl := Document.eq_of_mem_stretches hm hn (Document.line_mem_of_rewrite? hu) hi
  obtain ⟨o, ho, -⟩ := Node.rewrite?_eq_some_iff.1 hu
  rw [hk] at ho
  cases ho

end Format

end Devalang
