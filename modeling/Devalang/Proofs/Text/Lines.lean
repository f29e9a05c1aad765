import Devalang.Text.Basic

/-! The lines of a text and the text of lines are inverse to one another, as long as no line holds
a newline. -/
namespace Devalang.Text

variable {sep : Char}

theorem splitOn_of_notMem {t : Text} (h : sep ∉ t) : splitOn sep t = [t] := by
  induction t with
  | nil => rfl
  | cons c t ih =>
    have hc : c ≠ sep := fun he => h (by simp [he])
    have ht : sep ∉ t := fun hm => h (List.mem_cons_of_mem c hm)
    simp [splitOn, hc, ih ht]

theorem splitOn_append (t u : Text) : splitOn sep (t ++ sep :: u) = splitOn sep t ++ splitOn sep u := by
  induction t with
  | nil => simp [splitOn]
  | cons c t ih =>
    by_cases hc : c = sep
    · simp [splitOn, hc, ih]
    · cases ht : splitOn sep t with
      | nil => exact absurd ht (splitOn_ne_nil sep t)
      | cons l ls => simp [splitOn, hc, ih, ht]

theorem notMem_of_mem_splitOn {s t : Text} (h : t ∈ splitOn sep s) : sep ∉ t := by
  induction s generalizing t with
  | nil =>
    have ht : t = [] := by simpa [splitOn] using h
    simp [ht]
  | cons c s ih =>
    by_cases hc : c = sep
    · have ht : t = [] ∨ t ∈ splitOn sep s := by simpa [splitOn, hc] using h
      rcases ht with rfl | ht
      · simp
      · exact ih ht
    · cases hs : splitOn sep s with
      | nil => exact absurd hs (splitOn_ne_nil sep s)
      | cons l ls =>
        have ht : t = c :: l ∨ t ∈ ls := by simpa [splitOn, hc, hs] using h
        rcases ht with rfl | ht
        · have hl : sep ∉ l := ih (by simp [hs])
          simp [Ne.symm hc, hl]
        · exact ih (by simp [hs, ht])

theorem splitOn_join_flatMap {ts : List Text} (hne : ts ≠ []) :
    splitOn sep (join [sep] ts) = ts.flatMap (splitOn sep) := by
  induction ts with
  | nil => exact absurd rfl hne
  | cons t ts ih =>
    cases ts with
    | nil => simp [join]
    | cons u us =>
      rw [join, List.append_assoc, List.singleton_append, splitOn_append, ih (by simp)]
      rfl

theorem flatMap_splitOn {ts : List Text} (h : ∀ t ∈ ts, sep ∉ t) : ts.flatMap (splitOn sep) = ts := by
  induction ts with
  | nil => rfl
  | cons t ts ih =>
    rw [List.flatMap_cons, splitOn_of_notMem (h t (by simp)), ih fun u hu => h u (List.mem_cons_of_mem t hu)]
    rfl

theorem splitOn_join {ts : List Text} (hne : ts ≠ []) (h : ∀ t ∈ ts, sep ∉ t) :
    splitOn sep (join [sep] ts) = ts := by
  rw [splitOn_join_flatMap hne, flatMap_splitOn h]

theorem length_splitOn (s : Text) : (splitOn sep s).length = s.count sep + 1 := by
  induction s with
  | nil => rfl
  | cons c s ih =>
    by_cases hc : c = sep
    · simp [splitOn, hc, ih]
    · cases hs : splitOn sep s with
      | nil => exact absurd hs (splitOn_ne_nil sep s)
      | cons l ls =>
        rw [hs] at ih
        simp only [splitOn, hs, if_neg hc, List.length_cons] at ih ⊢
        rw [List.count_cons_of_ne hc, ih]

theorem mem_join {c : Char} {u : Text} {ts : List Text} (h : c ∈ join u ts) :
    c ∈ u ∨ ∃ t ∈ ts, c ∈ t := by
  induction ts with
  | nil => simp [join] at h
  | cons t ts ih =>
    cases ts with
    | nil => exact Or.inr ⟨t, by simp, h⟩
    | cons v ts =>
      rw [join, List.mem_append, List.mem_append] at h
      rcases h with (h | h) | h
      · exact Or.inr ⟨t, by simp, h⟩
      · exact Or.inl h
      · rcases ih h with h | ⟨x, hx, hc⟩
        · exact Or.inl h
        · exact Or.inr ⟨x, List.mem_cons_of_mem t hx, hc⟩

/-- Joining lines and ending the last one is joining them with an empty text after them. -/
theorem join_append_newline {ls : List Text} (hne : ls ≠ []) :
    join ['\n'] ls ++ ['\n'] = join ['\n'] (ls ++ [[]]) := by
  induction ls with
  | nil => exact absurd rfl hne
  | cons l ls ih =>
    cases ls with
    | nil => simp [join]
    | cons m ms =>
      have hi := ih (by simp)
      simp only [join, List.cons_append, List.append_assoc] at hi ⊢
      rw [hi]

theorem newline_notMem_of_mem_lines {s t : Text} (h : t ∈ lines s) : '\n' ∉ t := by
  simp only [lines] at h
  split at h
  · exact notMem_of_mem_splitOn (List.dropLast_subset _ h)
  · exact notMem_of_mem_splitOn h

theorem lines_ofLines_flatMap (ts : List Text) : lines (ofLines ts) = ts.flatMap (splitOn '\n') := by
  cases ts with
  | nil => rfl
  | cons t ts =>
    have hs : splitOn '\n' (ofLines (t :: ts)) = (t :: ts).flatMap (splitOn '\n') ++ [[]] := by
      rw [ofLines, if_neg (by simp), splitOn_append, splitOn_join_flatMap (by simp)]
      rfl
    simp only [lines, hs, List.getLast?_concat, List.dropLast_concat, if_true]

theorem lines_ofLines {ls : List Text} (h : ∀ l ∈ ls, '\n' ∉ l) : lines (ofLines ls) = ls := by
  rw [lines_ofLines_flatMap, flatMap_splitOn h]

theorem lines_append (t u : Text) : lines (t ++ '\n' :: u) = splitOn '\n' t ++ lines u := by
  have hlast : (splitOn '\n' t ++ splitOn '\n' u).getLast? = (splitOn '\n' u).getLast? := by
    rw [List.getLast?_append, List.getLast?_eq_some_getLast (splitOn_ne_nil '\n' u), Option.some_or]
  simp only [lines, splitOn_append, hlast]
  split
  · exact List.dropLast_append_of_ne_nil (splitOn_ne_nil '\n' u)
  · rfl

theorem lines_append_ofLines (t : Text) {ls : List Text} (h : ∀ l ∈ ls, '\n' ∉ l) :
    lines (t ++ '\n' :: ofLines ls) = splitOn '\n' t ++ ls := by
  rw [lines_append, lines_ofLines h]

theorem head?_lines {s line : Text} (h : (lines s).head? = some line) : (splitOn '\n' s).head? = some line := by
  simp only [lines] at h
  split at h
  · rw [List.head?_dropLast] at h
    exact (Option.ite_none_right_eq_some.1 h).2
  · exact h

theorem infix_join {t u : Text} {ts : List Text} (h : t ∈ ts) : t <:+: join u ts := by
  induction ts with
  | nil => cases h
  | cons v ts ih =>
    cases ts with
    | nil =>
      rw [List.mem_singleton.1 h]
      exact List.infix_rfl
    | cons w ts =>
      rw [join]
      rcases List.mem_cons.1 h with rfl | h
      · rw [List.append_assoc]
        exact (List.prefix_append t _).isInfix
      · exact (ih h).trans (List.suffix_append _ _).isInfix

theorem infix_of_mem_lines {s t : Text} (h : t ∈ lines s) : t <:+: s := by
  have ht : t ∈ splitOn '\n' s := by
    simp only [lines] at h
    split at h
    · exact List.dropLast_subset _ h
    · exact h
  have hi := @infix_join t ['\n'] _ ht
  rwa [join_splitOn] at hi

theorem lines_eq_nil_iff {s : Text} : lines s = [] ↔ s = [] := by
  constructor
  · intro h
    have hj := join_splitOn '\n' s
    simp only [lines] at h
    split at h
    · rename_i hlast
      cases hs : splitOn '\n' s with
      | nil => exact absurd hs (splitOn_ne_nil '\n' s)
      | cons l ls =>
        rw [hs] at h hlast hj
        cases ls with
        | nil =>
          have hl : l = [] := by simpa using hlast
          simpa [join, hl] using hj.symm
        | cons m ms => simp at h
    · exact absurd h (splitOn_ne_nil '\n' s)
  · rintro rfl
    rfl

theorem ofLines_eq_nil_iff {ls : List Text} : ofLines ls = [] ↔ ls = [] := by
  cases ls <;> simp [ofLines]

theorem getLast?_ofLines {ls : List Text} (h : ls ≠ []) : (ofLines ls).getLast? = some '\n' := by
  cases ls with
  | nil => exact absurd rfl h
  | cons l ls => simp [ofLines]

end Devalang.Text
