import Devalang.Text.Basic
import Mathlib.Data.List.TakeWhile

/-! Blanks at the ends of a text: what trimming takes away, and texts that it leaves as they are. -/
namespace Devalang.Text

def Blank (s : Text) : Prop := ∀ c ∈ s, isBlank c = true

structure Trimmed (s : Text) : Prop where
  head : ∀ c, s.head? = some c → isBlank c = false
  last : ∀ c, s.getLast? = some c → isBlank c = false

variable {a b s t u : Text}

theorem forall_of_all {p : Char → Prop} [DecidablePred p] (h : s.all (p ·) = true) : ∀ c ∈ s, p c := by
  simpa using h

theorem blank_singleton {c : Char} (h : isBlank c = true) : Blank [c] := by simpa [Blank] using h

theorem blank_space : Blank [' '] := blank_singleton (by decide)

theorem Blank.append (ha : Blank a) (hb : Blank b) : Blank (a ++ b) := by
  intro c hc
  rcases List.mem_append.1 hc with hc | hc
  · exact ha c hc
  · exact hb c hc

theorem blank_leading (s : Text) : Blank (leading s) := fun _ hc => List.mem_takeWhile_imp hc

theorem trimStart_blank_append (hb : Blank b) (s : Text) : trimStart (b ++ s) = trimStart s :=
  List.dropWhile_append_of_pos hb

theorem trimStart_blank (hb : Blank b) : trimStart b = [] := List.dropWhile_eq_nil_iff.2 hb

theorem trimStart_of_head (h : ∀ c, s.head? = some c → isBlank c = false) : trimStart s = s := by
  cases s with
  | nil => rfl
  | cons c s => exact List.dropWhile_cons_of_neg (by simp [h c rfl])

theorem head_trimStart {c : Char} (h : (trimStart s).head? = some c) : isBlank c = false := by
  have hd := List.head?_dropWhile_not isBlank s
  rw [show s.dropWhile isBlank = trimStart s from rfl, h] at hd
  simpa using hd

theorem trimEnd_append_blank (s : Text) (hb : Blank b) : trimEnd (s ++ b) = trimEnd s := by
  have hr : ∀ c ∈ b.reverse, isBlank c = true := fun c hc => hb c (List.mem_reverse.1 hc)
  rw [trimEnd, List.reverse_append, List.dropWhile_append_of_pos hr, trimEnd]

theorem trimEnd_of_last (h : ∀ c, s.getLast? = some c → isBlank c = false) : trimEnd s = s := by
  have hr := trimStart_of_head (s := s.reverse) (by simpa [List.head?_reverse] using h)
  rw [trimEnd, show s.reverse.dropWhile isBlank = s.reverse from hr, List.reverse_reverse]

theorem exists_trimEnd (s : Text) : ∃ b, Blank b ∧ s = trimEnd s ++ b := by
  refine ⟨(leading s.reverse).reverse, fun c hc => blank_leading _ c (List.mem_reverse.1 hc), ?_⟩
  have h := congrArg List.reverse (leading_append_trimStart s.reverse)
  rw [List.reverse_append, List.reverse_reverse] at h
  exact h.symm

theorem last_trimEnd {c : Char} (h : (trimEnd s).getLast? = some c) : isBlank c = false := by
  rw [trimEnd, List.getLast?_reverse] at h
  exact head_trimStart h

theorem trimmed_nil : Trimmed [] := ⟨by simp, by simp⟩

theorem trimmed_singleton {c : Char} (h : isBlank c = false) : Trimmed [c] := by
  constructor <;> (rintro d ⟨⟩; exact h)

theorem trimmed_of_forall (h : ∀ c ∈ s, isBlank c = false) : Trimmed s :=
  ⟨fun c hc => h c (List.mem_of_mem_head? hc), fun c hc => h c (List.mem_of_mem_getLast? hc)⟩

theorem Trimmed.trim_eq (h : Trimmed s) : trim s = s := by
  rw [trim, trimStart_of_head h.head, trimEnd_of_last h.last]

/-- Trimming takes away blanks at both ends and nothing else. -/
theorem exists_trim (s : Text) : ∃ a b, Blank a ∧ Blank b ∧ s = a ++ trim s ++ b := by
  obtain ⟨b, hb, he⟩ := exists_trimEnd (trimStart s)
  refine ⟨leading s, b, blank_leading s, hb, ?_⟩
  rw [trim, List.append_assoc, ← he, leading_append_trimStart]

theorem infix_trim (s : Text) : trim s <:+: s := by
  obtain ⟨a, b, -, -, h⟩ := exists_trim s
  exact ⟨a, b, h.symm⟩

theorem mem_of_mem_trim {c : Char} (h : c ∈ trim s) : c ∈ s := (infix_trim s).subset h

theorem trimmed_trim (s : Text) : Trimmed (trim s) := by
  constructor
  · intro c hc
    obtain ⟨b, -, he⟩ := exists_trimEnd (trimStart s)
    refine head_trimStart (s := s) ?_
    rw [he, List.head?_append, show (trimEnd (trimStart s)).head? = some c from hc]
    rfl
  · intro c hc
    exact last_trimEnd hc

theorem Trimmed.of_trim_eq (h : trim s = s) : Trimmed s := h ▸ trimmed_trim s

@[simp] theorem trim_trim (s : Text) : trim (trim s) = trim s := (trimmed_trim s).trim_eq

theorem trim_blank_append (ha : Blank a) (s : Text) : trim (a ++ s) = trim s := by
  rw [trim, trimStart_blank_append ha, trim]

theorem trim_append_blank (s : Text) (hb : Blank b) : trim (s ++ b) = trim s := by
  by_cases hs : Blank s
  · rw [trim, trim, trimStart_blank hs, trimStart_blank (hs.append hb)]
  · have hne : trimStart s ≠ [] := fun hn => hs fun c hc => List.dropWhile_eq_nil_iff.1 hn c hc
    have hd : trimStart (s ++ b) = trimStart s ++ b := by
      rw [trimStart, List.dropWhile_append]
      simp only [trimStart] at hne
      simp [List.isEmpty_iff, hne, trimStart]
    rw [trim, trim, hd, trimEnd_append_blank _ hb]

theorem trim_blank (hb : Blank b) : trim b = [] := by rw [trim, trimStart_blank hb, trimEnd]; rfl

theorem trim_eq_nil_iff : trim s = [] ↔ Blank s := by
  constructor
  · intro h
    obtain ⟨a, b, ha, hb, he⟩ := exists_trim s
    rw [he, h, List.append_nil]
    exact ha.append hb
  · exact trim_blank

theorem Trimmed.trim_between (h : Trimmed s) (ha : Blank a) (hb : Blank b) :
    trim (a ++ s ++ b) = s := by
  rw [trim_append_blank _ hb, trim_blank_append ha, h.trim_eq]

theorem Trimmed.trimStart_right (h : Trimmed (a ++ s)) : Trimmed (trimStart s) := by
  refine ⟨fun c hc => head_trimStart hc, fun c hc => ?_⟩
  refine h.last c ?_
  rw [← leading_append_trimStart s, ← List.append_assoc, List.getLast?_append, hc]
  rfl

theorem Trimmed.exists_trim_left (h : Trimmed (s ++ a)) : ∃ b, Blank b ∧ s = trim s ++ b := by
  have hs : trimStart s = s := trimStart_of_head fun c hc => h.head c (by rw [List.head?_append, hc]; rfl)
  rw [trim, hs]
  exact exists_trimEnd s

theorem Trimmed.exists_trim_right (h : Trimmed (a ++ s)) : ∃ b, Blank b ∧ s = b ++ trim s := by
  refine ⟨leading s, blank_leading s, ?_⟩
  rw [trim, trimEnd_of_last h.trimStart_right.last, leading_append_trimStart]

theorem Trimmed.trimStart_ne_nil (h : Trimmed (a ++ s)) (hs : s ≠ []) : trimStart s ≠ [] := by
  intro hn
  have hblank : Blank s := List.dropWhile_eq_nil_iff.1 hn
  cases hl : s.getLast? with
  | none => exact hs (List.getLast?_eq_none_iff.1 hl)
  | some c =>
    have hc := h.last c (by rw [List.getLast?_append, hl]; rfl)
    rw [hblank c (List.mem_of_mem_getLast? hl)] at hc
    cases hc

theorem Trimmed.append (ha : Trimmed a) (hb : Trimmed b) (hne : b ≠ []) (hs : a = [] → s = []) :
    Trimmed (a ++ s ++ b) := by
  constructor
  · intro c hc
    cases a with
    | nil => exact hb.head c (by simpa [hs rfl] using hc)
    | cons d a => exact ha.head c (by simpa using hc)
  · intro c hc
    refine hb.last c ?_
    rw [List.getLast?_append] at hc
    cases hl : b.getLast? with
    | none => exact absurd (List.getLast?_eq_none_iff.1 hl) hne
    | some d => simpa [hl] using hc

theorem exists_dedent (i : Nat) (line : Text) : ∃ b, Blank b ∧ dedent i line = b ++ trimStart line := by
  refine ⟨(leading line).drop (min i (leading line).length),
    fun c hc => blank_leading line c (List.mem_of_mem_drop hc), ?_⟩
  have h := congrArg (List.drop (min i (leading line).length)) (leading_append_trimStart line)
  rw [List.drop_append_of_le_length (Nat.min_le_right _ _)] at h
  exact h.symm

theorem trimStart_trimStart (s : Text) : trimStart (trimStart s) = trimStart s :=
  trimStart_of_head fun _ hc => head_trimStart hc

theorem trimStart_dedent (i : Nat) (line : Text) : trimStart (dedent i line) = trimStart line := by
  obtain ⟨b, hb, h⟩ := exists_dedent i line
  rw [h, trimStart_blank_append hb, trimStart_trimStart]

/-! The blanks in front of a line whose carriage return does not count. -/

theorem trimReturns_append (s : Text) (h : ∀ c ∈ b, c = '\r') :
    trimReturns (s ++ b) = trimReturns s := by
  have hr : ∀ c ∈ b.reverse, (c == '\r') = true := fun c hc => by
    simp [h c (List.mem_reverse.1 hc)]
  rw [trimReturns, List.reverse_append, List.dropWhile_append_of_pos hr, trimReturns]

theorem trimReturns_of_last (h : ∀ c, s.getLast? = some c → c ≠ '\r') : trimReturns s = s := by
  have hr : s.reverse.dropWhile (· == '\r') = s.reverse := by
    cases hs : s.reverse with
    | nil => rfl
    | cons c t =>
      have hc : s.getLast? = some c := by rw [← List.head?_reverse, hs]; rfl
      exact List.dropWhile_cons_of_neg (by simpa using h c hc)
  rw [trimReturns, hr, List.reverse_reverse]

theorem last_trimReturns {c : Char} (h : (trimReturns s).getLast? = some c) : c ≠ '\r' := by
  rw [trimReturns, List.getLast?_reverse] at h
  have hd := List.head?_dropWhile_not (· == '\r') s.reverse
  rw [h] at hd
  simpa using hd

theorem mem_of_mem_trimReturns {c : Char} (h : c ∈ trimReturns s) : c ∈ s := by
  rw [trimReturns, List.mem_reverse] at h
  exact List.mem_reverse.1 ((List.dropWhile_suffix _).subset h)

theorem trimReturns_isPrefix (s : Text) : trimReturns s <+: s := by
  have h := List.reverse_prefix.2 (List.dropWhile_suffix (l := s.reverse) (· == '\r'))
  rwa [List.reverse_reverse] at h

theorem leading_append (hb : Blank b) (h : ∀ c, s.head? = some c → isBlank c = false) :
    leading (b ++ s) = b := by
  rw [leading, List.takeWhile_append_of_pos hb]
  cases s with
  | nil => simp
  | cons c s => simp [h c rfl]

theorem isBlank_return : isBlank '\r' = true := by decide

theorem last_rebuilt {line : Text} {c : Char} (ht : Trimmed t) (hne : t = [] → trim line = [])
    (hc : (leading (trimReturns line) ++ t).getLast? = some c) : c ≠ '\r' := by
  cases hte : t.getLast? with
  | some d =>
    rw [List.getLast?_append, hte] at hc
    rintro rfl
    cases hc
    have hd := ht.last _ hte
    rw [isBlank_return] at hd
    cases hd
  | none =>
    have htn := List.getLast?_eq_none_iff.1 hte
    have hline : Blank (trimReturns line) := fun d hd =>
      trim_eq_nil_iff.1 (hne htn) d (mem_of_mem_trimReturns hd)
    have hall : leading (trimReturns line) = trimReturns line := List.takeWhile_eq_self_iff.2 hline
    rw [htn, List.append_nil, hall] at hc
    exact last_trimReturns hc

/-- A line that is put together from the blanks in front of it, a trimmed text and perhaps a carriage
return has these blanks and this text. -/
theorem rebuilt_line {line r : Text} (ht : Trimmed t) (hne : t = [] → trim line = [])
    (hr : ∀ c ∈ r, c = '\r') :
    leading (trimReturns (leading (trimReturns line) ++ t ++ r)) = leading (trimReturns line) ∧
      trim (leading (trimReturns line) ++ t ++ r) = t := by
  have hlead := blank_leading (trimReturns line)
  have hrb : Blank r := fun c hc => by rw [hr c hc]; exact isBlank_return
  refine ⟨?_, ht.trim_between hlead hrb⟩
  rw [trimReturns_append _ hr, trimReturns_of_last fun _ hc => last_rebuilt ht hne hc,
    leading_append hlead ht.head]

end Devalang.Text
