import Devalang.Proofs.Text.Lines
import Devalang.Proofs.Text.Trim

/-! Carriage returns at the ends of the lines of a text. -/
namespace Devalang.Text

def crlf (s : Text) : Text := s.flatMap fun c => if c = '\n' then ['\r', '\n'] else [c]

/-- The second text is the first one with carriage returns put in front of some of its newlines, and
perhaps one at its end. -/
inductive Returned : Text → Text → Prop where
  | nil : Returned [] []
  | last : Returned [] ['\r']
  | cons (c : Char) {s s' : Text} (h : Returned s s') : Returned (c :: s) (c :: s')
  | line {s s' : Text} (h : Returned s s') : Returned ('\n' :: s) ('\r' :: '\n' :: s')

section Lines
variable {s t : Text} {ls : List Text}

theorem crlf_append (s t : Text) : crlf (s ++ t) = crlf s ++ crlf t := List.flatMap_append

theorem crlf_of_notMem (h : '\n' ∉ s) : crlf s = s := by
  induction s with
  | nil => rfl
  | cons c s ih =>
    simp only [List.mem_cons, not_or] at h
    have hc : crlf (c :: s) = c :: crlf s := by simp [crlf, Ne.symm h.1]
    rw [hc, ih h.2]

theorem crlf_join (h : ∀ l ∈ ls, '\n' ∉ l) (hne : ls ≠ []) :
    crlf (join ['\n'] ls ++ ['\n']) = join ['\n'] (ls.map (· ++ ['\r'])) ++ ['\n'] := by
  have hnl : crlf ['\n'] = ['\r', '\n'] := rfl
  induction ls with
  | nil => exact absurd rfl hne
  | cons l ls ih =>
    have hl := crlf_of_notMem (h l (by simp))
    cases ls with
    | nil => simp [join, crlf_append, hl, hnl]
    | cons m ms =>
      have hi := ih (fun t ht => h t (List.mem_cons_of_mem l ht)) (by simp)
      simp only [List.map_cons, join, List.append_assoc] at hi ⊢
      rw [crlf_append, crlf_append, hi, hl, hnl]
      rfl

theorem crlf_ofLines (h : ∀ l ∈ ls, '\n' ∉ l) : crlf (ofLines ls) = ofLines (ls.map (· ++ ['\r'])) := by
  cases ls with
  | nil => rfl
  | cons l ls => exact crlf_join h (by simp)

theorem ofLines_lines (h : s = [] ∨ s.getLast? = some '\n') : ofLines s.lines = s := by
  rcases h with rfl | h
  · rfl
  obtain ⟨t, rfl⟩ := List.getLast?_eq_some_iff.1 h
  have hsplit (t : Text) : splitOn '\n' (t ++ ['\n']) = splitOn '\n' t ++ [[]] := by
    have hj : t ++ ['\n'] = join ['\n'] (splitOn '\n' t ++ [[]]) := by
      rw [← join_append_newline (splitOn_ne_nil '\n' t), join_splitOn]
    have hmem : ∀ u ∈ splitOn '\n' t ++ [[]], '\n' ∉ u := by
      intro u hu
      rcases List.mem_append.1 hu with hu | hu
      · exact notMem_of_mem_splitOn hu
      · simp [List.mem_singleton.1 hu]
    rw [hj, splitOn_join (by simp) hmem]
  have hlines : lines (t ++ ['\n']) = splitOn '\n' t := by
    simp only [lines, hsplit, List.getLast?_concat, List.dropLast_concat, if_true]
  rw [hlines, ofLines, if_neg (by simpa using splitOn_ne_nil '\n' t), join_splitOn]

theorem lines_crlf (h : s = [] ∨ s.getLast? = some '\n') :
    (crlf s).lines = s.lines.map (· ++ ['\r']) := by
  have hs := crlf_ofLines fun l (hl : l ∈ s.lines) => newline_notMem_of_mem_lines hl
  rw [ofLines_lines h] at hs
  rw [hs]
  refine lines_ofLines fun l hl => ?_
  obtain ⟨m, hm, rfl⟩ := List.mem_map.1 hl
  simp [newline_notMem_of_mem_lines hm]

end Lines

namespace Returned
variable {s s' t t' : Text} {p : Char → Bool}

theorem refl : (s : Text) → Returned s s
  | [] => .nil
  | c :: s => .cons c (refl s)

theorem append_return : (s : Text) → Returned s (s ++ ['\r'])
  | [] => .last
  | c :: s => .cons c (append_return s)

theorem newline (h : Returned s s') (ht : Returned t t') : Returned (s ++ '\n' :: t) (s' ++ '\n' :: t') := by
  induction h with
  | nil => exact .cons '\n' ht
  | last => exact .line ht
  | cons c _ ih => exact .cons c ih
  | line _ ih => exact .line ih

theorem head?_eq (h : Returned s s') {c : Char} (hn : c ≠ '\n') (hr : c ≠ '\r') :
    s'.head? = some c ↔ s.head? = some c := by
  cases h <;> simp [Ne.symm hn, Ne.symm hr]

theorem getLast?_eq (h : Returned s s') :
    s'.getLast? = s.getLast? ∨ s'.getLast? = some '\r' := by
  induction h with
  | nil => exact Or.inl rfl
  | last => exact Or.inr rfl
  | cons c _ ih =>
    rw [List.getLast?_cons, List.getLast?_cons]
    rcases ih with h | h <;> simp [h]
  | @line s s' _ ih =>
    rw [List.getLast?_cons_cons, List.getLast?_cons, List.getLast?_cons]
    rcases ih with h | h <;> simp [h]

theorem startsWith_eq {w : Text} (h : Returned s s') (hw : ∀ c ∈ w, c ≠ '\n' ∧ c ≠ '\r') :
    startsWith w s' = startsWith w s := by
  induction w generalizing s s' with
  | nil => rfl
  | cons a w ih =>
    have ha := hw a (by simp)
    cases h with
    | nil => rfl
    | last => simp [startsWith, after, ha.2]
    | cons c h =>
      have hi := ih h fun d hd => hw d (List.mem_cons_of_mem a hd)
      by_cases hc : a = c
      · simpa [startsWith, after, hc] using hi
      · simp [startsWith, after, hc]
    | line h => simp [startsWith, after, ha]

theorem takeWhile_eq (h : Returned s s') (hn : p '\n' = false) (hr : p '\r' = false) :
    s'.takeWhile p = s.takeWhile p := by
  induction h with
  | nil => rfl
  | last => simp [hr]
  | cons c _ ih => simp only [List.takeWhile_cons, ih]
  | line _ ih => simp [hn, hr]

theorem dropWhile (h : Returned s s') (hp : p '\n' = p '\r') :
    Returned (s.dropWhile p) (s'.dropWhile p) := by
  induction h with
  | nil => exact .nil
  | last => cases hr : p '\r' <;> simp [hr, Returned.nil, Returned.last]
  | cons c h ih =>
    rw [List.dropWhile_cons, List.dropWhile_cons]
    split
    · exact ih
    · exact .cons c h
  | line h ih =>
    cases hr : p '\r' with
    | true => simpa [hr, hp] using ih
    | false => simpa [hr, hp] using Returned.line h

theorem eq_nil_iff (h : Returned s s') (hl : s'.getLast? ≠ some '\r') : s' = [] ↔ s = [] := by
  cases h with
  | nil => simp
  | last => exact absurd rfl hl
  | cons c h => simp
  | line h => simp

theorem trimStart (h : Returned s s') : Returned (trimStart s) (trimStart s') := h.dropWhile (by decide)

theorem trimEnd_cons_blank {c : Char} (hc : isBlank c = true) (h : Text.trimEnd s = []) :
    Text.trimEnd (c :: s) = [] := by
  have hs : s.reverse.dropWhile isBlank = [] := List.reverse_eq_nil_iff.1 h
  simp [Text.trimEnd, List.dropWhile_append, hs, hc]

theorem trimEnd_cons {c : Char} (h : isBlank c = false ∨ Text.trimEnd s ≠ []) :
    Text.trimEnd (c :: s) = c :: Text.trimEnd s := by
  by_cases hs : s.reverse.dropWhile isBlank = []
  · have hc : isBlank c = false := h.resolve_right fun hne => hne (by rw [Text.trimEnd, hs]; rfl)
    simp [Text.trimEnd, List.dropWhile_append, hs, hc]
  · simp [Text.trimEnd, List.dropWhile_append, hs]

theorem getLast?_trimEnd (s : Text) : (trimEnd s).getLast? ≠ some '\r' := by
  intro h
  have hb := last_trimEnd h
  rw [isBlank_return] at hb
  cases hb

theorem trimEnd (h : Returned s s') : Returned (trimEnd s) (trimEnd s') := by
  induction h with
  | nil => exact .nil
  | last => exact .nil
  | @cons c s s' _ ih =>
    have hn := ih.eq_nil_iff (getLast?_trimEnd s')
    by_cases hc : isBlank c = true ∧ Text.trimEnd s = []
    · rw [trimEnd_cons_blank hc.1 hc.2, trimEnd_cons_blank hc.1 (hn.2 hc.2)]
      exact .nil
    · have hor : isBlank c = false ∨ Text.trimEnd s ≠ [] := by
        rw [← Bool.not_eq_true]
        exact not_and_or.1 hc
      rw [trimEnd_cons hor, trimEnd_cons (hor.imp_right fun hs => mt hn.1 hs)]
      exact .cons c ih
  | @line s s' _ ih =>
    have hn := ih.eq_nil_iff (getLast?_trimEnd s')
    have hblank : isBlank '\n' = true := by decide
    by_cases hs : Text.trimEnd s = []
    · rw [trimEnd_cons_blank hblank hs,
        trimEnd_cons_blank isBlank_return (trimEnd_cons_blank hblank (hn.2 hs))]
      exact .nil
    · have hs' : Text.trimEnd s' ≠ [] := mt hn.1 hs
      have hline : Text.trimEnd ('\n' :: s') ≠ [] := by simp [trimEnd_cons (Or.inr hs')]
      rw [trimEnd_cons (Or.inr hs), trimEnd_cons (Or.inr hline), trimEnd_cons (Or.inr hs')]
      exact .line ih

theorem trim (h : Returned s s') : Returned (trim s) (trim s') := h.trimStart.trimEnd

theorem getLast?_of_trimmed (h : Returned s s') (ht : Trimmed s') : s'.getLast? = s.getLast? := by
  rcases h.getLast?_eq with hl | hl
  · exact hl
  · have hb := ht.last _ hl
    rw [isBlank_return] at hb
    cases hb

/-- Dedenting leaves of a line with a carriage return what it leaves of the line, and perhaps the
carriage return. -/
theorem dedent (i : Nat) (line : Text) : Returned (dedent i line) (dedent i (line ++ ['\r'])) := by
  by_cases hb : Blank line
  · have hlead : leading line = line := List.takeWhile_eq_self_iff.2 hb
    have hlead' : leading (line ++ ['\r']) = line ++ ['\r'] :=
      List.takeWhile_eq_self_iff.2 (hb.append (blank_singleton isBlank_return))
    rw [Text.dedent, Text.dedent, hlead, hlead', List.length_append, List.length_singleton]
    by_cases hi : i ≤ line.length
    · rw [Nat.min_eq_left hi, Nat.min_eq_left (by omega), List.drop_append_of_le_length hi]
      exact append_return _
    · rw [Nat.min_eq_right (by omega), Nat.min_eq_right (by omega), List.drop_length,
        List.drop_eq_nil_of_le (by simp)]
      exact .nil
  · have hlead : leading (line ++ ['\r']) = leading line := by
      rw [leading, List.takeWhile_append, if_neg, leading]
      intro hall
      exact hb (List.takeWhile_eq_self_iff.1 ((List.takeWhile_prefix _).eq_of_length hall))
    have hle : min i (leading line).length ≤ line.length :=
      Nat.le_trans (Nat.min_le_right _ _) (List.takeWhile_prefix _).length_le
    rw [Text.dedent, Text.dedent, hlead, List.drop_append_of_le_length hle]
    exact append_return _

end Returned

end Devalang.Text
