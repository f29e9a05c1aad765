import Devalang.Proofs.Text.Lines
import Devalang.Proofs.Text.Trim

/-! The lines of an indented text. All that dedenting leaves of them is the same. -/
namespace Devalang.Text
variable {k i : Nat} {line s t : Text}

def indentLine (k : Nat) (line : Text) : Text := if line.isEmpty then line else spaces k ++ line

theorem indentLine_nil (k : Nat) : indentLine k [] = [] := rfl

theorem indentLine_of_ne_nil (h : line ≠ []) : indentLine k line = spaces k ++ line :=
  if_neg (by simpa using h)

theorem indentLine_eq_nil_iff : indentLine k line = [] ↔ line = [] := by
  by_cases h : line = []
  · simp [h, indentLine_nil]
  · simp [indentLine_of_ne_nil h, h]

theorem blank_spaces (k : Nat) : Blank (spaces k) := by
  intro c hc
  rw [List.eq_of_mem_replicate hc]
  decide

theorem length_spaces (k : Nat) : (spaces k).length = k := List.length_replicate

theorem newline_notMem_spaces (k : Nat) : '\n' ∉ spaces k := by simp [spaces]

theorem newline_notMem_indentLine (h : '\n' ∉ line) : '\n' ∉ indentLine k line := by
  by_cases hl : line = []
  · simp [hl, indentLine_nil]
  · simp [indentLine_of_ne_nil hl, newline_notMem_spaces, h]

theorem splitOn_indent (k : Nat) (s : Text) :
    splitOn '\n' (indent k s) = (splitOn '\n' s).map (indentLine k) := by
  refine splitOn_join (by simpa using splitOn_ne_nil '\n' s) fun t ht => ?_
  obtain ⟨line, hline, rfl⟩ := List.mem_map.1 ht
  exact newline_notMem_indentLine (notMem_of_mem_splitOn hline)

theorem lines_indent (k : Nat) (s : Text) : (indent k s).lines = s.lines.map (indentLine k) := by
  have hlast : (splitOn '\n' (indent k s)).getLast? = some [] ↔ (splitOn '\n' s).getLast? = some [] := by
    rw [splitOn_indent, List.getLast?_map, Option.map_eq_some_iff]
    simp [indentLine_eq_nil_iff]
  simp only [lines, hlast]
  split <;> simp [splitOn_indent, List.map_dropLast]

theorem trimStart_indentLine (k : Nat) (line : Text) : trimStart (indentLine k line) = trimStart line := by
  by_cases h : line = []
  · rw [h, indentLine_nil]
  · rw [indentLine_of_ne_nil h, trimStart_blank_append (blank_spaces k)]

theorem trim_indentLine (k : Nat) (line : Text) : trim (indentLine k line) = trim line := by
  rw [trim, trimStart_indentLine, trim]

theorem leading_blank_append (h : Blank s) (t : Text) : leading (s ++ t) = s ++ leading t :=
  List.takeWhile_append_of_pos h

theorem trimReturns_ne_nil (h : trim line ≠ []) : trimReturns line ≠ [] := by
  intro hn
  refine h (trim_eq_nil_iff.2 fun c hc => ?_)
  have hall := List.dropWhile_eq_nil_iff.1 (List.reverse_eq_nil_iff.1 hn) c (List.mem_reverse.2 hc)
  rw [beq_iff_eq.1 hall]
  exact isBlank_return

theorem append_trimReturns (h : trimReturns t ≠ []) : trimReturns (s ++ t) = s ++ trimReturns t := by
  have hne : t.reverse.dropWhile (· == '\r') ≠ [] := fun hn => h (by rw [trimReturns, hn]; rfl)
  rw [trimReturns, List.reverse_append, List.dropWhile_append, if_neg (by simpa using hne),
    List.reverse_append, List.reverse_reverse, trimReturns]

theorem leading_indentLine (h : trim line ≠ []) :
    leading (trimReturns (indentLine k line)) = spaces k ++ leading (trimReturns line) := by
  have hne : line ≠ [] := by
    rintro rfl
    exact h rfl
  rw [indentLine_of_ne_nil hne, append_trimReturns (trimReturns_ne_nil h),
    leading_blank_append (blank_spaces k)]

theorem length_leading_indentLine (h : trim line ≠ []) (hw : ∀ c, line.head? = some c → isBlank c = false)
    (k : Nat) : (leading (trimReturns (indentLine k line))).length = k := by
  have hnil : leading (trimReturns line) = [] := by
    obtain ⟨b, hb⟩ := trimReturns_isPrefix line
    cases ht : trimReturns line with
    | nil => rfl
    | cons c t =>
      rw [leading, List.takeWhile_cons_of_neg]
      simpa using hw c (by rw [← hb, ht]; rfl)
  rw [leading_indentLine h, hnil, List.append_nil, length_spaces]

/-- A line that is indented further loses as much more when it is dedented. -/
theorem dedent_indentLine (k i : Nat) (line : Text) :
    dedent (i + k) (indentLine k line) = dedent i line := by
  by_cases h : line = []
  · simp [h, indentLine_nil, dedent]
  · have hmin : min (i + k) (k + (leading line).length) = k + min i (leading line).length := by omega
    rw [indentLine_of_ne_nil h, dedent, dedent, leading_blank_append (blank_spaces k), List.length_append,
      length_spaces, hmin, List.drop_append, length_spaces, Nat.add_sub_cancel_left,
      List.drop_eq_nil_of_le (by rw [length_spaces]; omega), List.nil_append]

theorem dedent_zero (line : Text) : dedent 0 line = line := by simp [dedent]

theorem dedent_indentLine_self (k : Nat) (line : Text) : dedent k (indentLine k line) = line := by
  have h := dedent_indentLine k 0 line
  rwa [Nat.zero_add, dedent_zero] at h

theorem indentLine_indentLine (k i : Nat) (line : Text) :
    indentLine k (indentLine i line) = indentLine (k + i) line := by
  by_cases h : line = []
  · simp [h, indentLine_nil]
  · rw [indentLine_of_ne_nil h, indentLine_of_ne_nil h, indentLine_of_ne_nil (by simp [h]),
      ← List.append_assoc, spaces, spaces, spaces, List.replicate_append_replicate]

theorem indentLine_zero (line : Text) : indentLine 0 line = line := by
  by_cases h : line = []
  · rw [h, indentLine_nil]
  · rw [indentLine_of_ne_nil h]
    rfl

end Devalang.Text
