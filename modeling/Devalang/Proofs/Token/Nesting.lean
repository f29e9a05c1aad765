import Devalang.Token
import Devalang.Proofs.Text.Trim

/-! The nesting of strings and groups, followed character by character. Unlike the pieces of a text it
goes on over texts that are put together. -/
namespace Devalang

/-- What a character can be inside of: a string or group, or a string in which it follows a
backslash. -/
inductive Level where
  | inside (d : Delimiter)
  | escaped
deriving DecidableEq

def Level.delimiter : Level → Delimiter
  | inside d => d
  | escaped => .quote

abbrev Nesting := List Level

namespace Nesting

def next : Nesting → Char → Nesting
  | [], c => ((Delimiter.ofOpener? c).map Level.inside).toList
  | .escaped :: ls, _ => .inside .quote :: ls
  | .inside d :: ls, c =>
    if c = d.closer then ls
    else if d = .quote then (if c = '\\' then .escaped else .inside d) :: ls
    else ((Delimiter.ofOpener? c).map Level.inside).toList ++ .inside d :: ls

def run (ls : Nesting) (s : Text) : Nesting := s.foldl next ls

def delimiters (ls : Nesting) : List Delimiter := ls.map Level.delimiter

/-- No character of the text that stands outside of strings and groups satisfies `p`. -/
def Quiet (p : Char → Bool) : Nesting → Text → Prop
  | _, [] => True
  | ls, c :: s => (ls = [] → p c = false) ∧ Quiet p (ls.next c) s

abbrev Inside : Nesting → Text → Prop := Quiet fun _ => true

variable {p q : Char → Bool} {ls outer : Nesting} {c : Char} {s t : Text} {d : Delimiter}

@[simp] theorem run_nil (ls : Nesting) : ls.run [] = ls := rfl

@[simp] theorem run_cons (ls : Nesting) (c : Char) (s : Text) :
    ls.run (c :: s) = (ls.next c).run s := rfl

@[simp] theorem run_append (ls : Nesting) (s t : Text) : ls.run (s ++ t) = (ls.run s).run t :=
  List.foldl_append

@[simp] theorem delimiters_append (ls ms : Nesting) :
    delimiters (ls ++ ms) = delimiters ls ++ delimiters ms := List.map_append

@[simp] theorem delimiters_cons (l : Level) (ls : Nesting) :
    delimiters (l :: ls) = l.delimiter :: delimiters ls := rfl

@[simp] theorem quiet_nil : Quiet p ls [] := trivial

@[simp] theorem quiet_cons :
    Quiet p ls (c :: s) ↔ (ls = [] → p c = false) ∧ Quiet p (ls.next c) s := Iff.rfl

@[simp] theorem quiet_append : Quiet p ls (s ++ t) ↔ Quiet p ls s ∧ Quiet p (ls.run s) t := by
  induction s generalizing ls with
  | nil => simp
  | cons c s ih => simp [ih, and_assoc]

theorem Quiet.mono (h : Quiet p ls s) (hpq : ∀ c ∈ s, p c = false → q c = false) : Quiet q ls s := by
  induction s generalizing ls with
  | nil => trivial
  | cons c s ih =>
    exact ⟨fun hl => hpq c (by simp) (h.1 hl),
      ih h.2 fun d hd => hpq d (List.mem_cons_of_mem c hd)⟩

theorem quiet_of_forall (h : ∀ c ∈ s, p c = false) : Quiet p ls s := by
  induction s generalizing ls with
  | nil => trivial
  | cons c s ih => exact ⟨fun _ => h c (by simp), ih fun d hd => h d (List.mem_cons_of_mem c hd)⟩

theorem run_of_forall (h : ∀ c ∈ s, Delimiter.ofOpener? c = none) : run [] s = [] := by
  induction s with
  | nil => rfl
  | cons c s ih =>
    have hn : next [] c = [] := by simp [next, h c (by simp)]
    rw [run_cons, hn, ih fun d hd => h d (List.mem_cons_of_mem c hd)]

/-! What stands around a text does not matter to it as long as none of its own levels is left. -/

theorem next_append (hne : ls ≠ []) : next (ls ++ outer) c = next ls c ++ outer := by
  cases ls with
  | nil => exact absurd rfl hne
  | cons l ls =>
    cases l with
    | escaped => rfl
    | inside d =>
      simp only [List.cons_append, next]
      split
      · rfl
      · split <;> simp

theorem next_group (hd : d ≠ .quote) (hc : c ≠ d.closer) :
    next (.inside d :: outer) c = next [] c ++ .inside d :: outer := by
  simp [next, hd, hc]

/-- In a group that is not closed a text is nested as it is on its own. -/
theorem run_group (hd : d ≠ .quote) (h : Quiet (· == d.closer) ls s) :
    run (ls ++ .inside d :: outer) s = run ls s ++ .inside d :: outer := by
  induction s generalizing ls with
  | nil => rfl
  | cons c s ih =>
    have hn : next (ls ++ .inside d :: outer) c = next ls c ++ .inside d :: outer := by
      cases ls with
      | nil => exact next_group hd (by simpa using h.1 rfl)
      | cons l ls => exact next_append (by simp)
    rw [run_cons, hn, ih h.2, run_cons]

theorem inside_group (hd : d ≠ .quote) (h : Quiet (· == d.closer) ls s) :
    Inside (ls ++ .inside d :: outer) s := by
  induction s generalizing ls with
  | nil => trivial
  | cons c s ih =>
    have hn : next (ls ++ .inside d :: outer) c = next ls c ++ .inside d :: outer := by
      cases ls with
      | nil => exact next_group hd (by simpa using h.1 rfl)
      | cons l ls => exact next_append (by simp)
    refine ⟨by simp, ?_⟩
    rw [hn]
    exact ih h.2

theorem run_inside (hd : d ≠ .quote) (h : Quiet (· == d.closer) [] s) :
    run [.inside d] s = run [] s ++ [.inside d] := run_group hd h

theorem inside_inside (hd : d ≠ .quote) (h : Quiet (· == d.closer) [] s) : Inside [.inside d] s :=
  inside_group hd h

/-- The text of a group that its last character closes does not close it, and leaves nothing open. -/
theorem quiet_of_inside (hd : d ≠ .quote) (hi : Inside (ls ++ [.inside d]) (s ++ [d.closer]))
    (hr : run (ls ++ [.inside d]) (s ++ [d.closer]) = []) :
    Quiet (· == d.closer) ls s ∧ run ls s = [] := by
  induction s generalizing ls with
  | nil =>
    cases ls with
    | nil => exact ⟨trivial, rfl⟩
    | cons l ls =>
      have hn : next (l :: ls ++ [.inside d]) d.closer = next (l :: ls) d.closer ++ [.inside d] :=
        next_append (by simp)
      rw [List.nil_append, run_cons, run_nil, hn] at hr
      simp at hr
  | cons c s ih =>
    cases ls with
    | nil =>
      by_cases hc : c = d.closer
      · have hn : next [.inside d] c = [] := by simp [next, hc]
        have hlast := hi.2
        rw [List.nil_append, hn, List.append_eq, quiet_append] at hlast
        cases s with
        | nil => exact absurd (hlast.2.1 rfl) (by simp)
        | cons e s => exact absurd (hlast.1.1 rfl) (by simp)
      · have hn : next [.inside d] c = next [] c ++ [.inside d] := next_group hd hc
        have hi2 := hi.2
        rw [List.nil_append, hn] at hi2
        rw [List.nil_append, List.cons_append, run_cons, hn] at hr
        obtain ⟨hq, hrun⟩ := ih hi2 hr
        exact ⟨⟨fun _ => by simpa using hc, hq⟩, hrun⟩
    | cons l ls =>
      have hn : next (l :: ls ++ [.inside d]) c = next (l :: ls) c ++ [.inside d] :=
        next_append (by simp)
      have hi2 := hi.2
      rw [hn] at hi2
      have hr2 : run (next (l :: ls) c ++ [.inside d]) (s ++ [d.closer]) = [] := by
        rw [← hn]
        exact hr
      obtain ⟨hq, hrun⟩ := ih hi2 hr2
      exact ⟨⟨by simp, hq⟩, hrun⟩

/-! Blanks open and close nothing. -/

theorem ofOpener?_blank (hc : Text.isBlank c = true) : Delimiter.ofOpener? c = none := by
  cases h : Delimiter.ofOpener? c with
  | none => rfl
  | some d =>
    rw [← Delimiter.opener_of_ofOpener? h] at hc
    cases d <;> revert hc <;> decide

theorem next_nil_blank (hc : Text.isBlank c = true) : next [] c = [] := by
  simp [next, ofOpener?_blank hc]

theorem delimiters_next_blank (hc : Text.isBlank c = true) :
    (ls.next c).delimiters = ls.delimiters := by
  cases ls with
  | nil => rw [next_nil_blank hc]
  | cons l ls =>
    cases l with
    | escaped => rfl
    | inside d =>
      have hclose : c ≠ d.closer := by
        rintro rfl
        revert hc
        cases d <;> decide
      have hback : c ≠ '\\' := by
        rintro rfl
        revert hc
        decide
      simp [next, ofOpener?_blank hc, hclose, hback]

/-- What is open after a character other than a quote depends on what was open before it. -/
theorem delimiters_next_congr {ms : Nesting} (hc : c ≠ '"') (h : ls.delimiters = ms.delimiters) :
    (ls.next c).delimiters = (ms.next c).delimiters := by
  have hquote (ls : Nesting) (l : Level) (hl : l.delimiter = .quote) :
      delimiters (next (l :: ls) c) = .quote :: delimiters ls := by
    cases l with
    | escaped => rfl
    | inside d =>
      obtain rfl : d = .quote := hl
      by_cases hb : c = '\\' <;> simp [next, Delimiter.closer, hc, hb, Level.delimiter]
  cases ls with
  | nil =>
    cases ms with
    | nil => rfl
    | cons m ms => cases h
  | cons l ls =>
    cases ms with
    | nil => cases h
    | cons m ms =>
      rw [delimiters_cons, delimiters_cons, List.cons.injEq] at h
      by_cases hl : l.delimiter = .quote
      · rw [hquote ls l hl, hquote ms m (by rw [← h.1, hl]), h.2]
      · cases l with
        | escaped => exact absurd rfl hl
        | inside d =>
          cases m with
          | escaped => exact absurd h.1 hl
          | inside e =>
            obtain rfl : d = e := h.1
            have hd : d ≠ .quote := hl
            by_cases hclose : c = d.closer
            · simp [next, hclose, h.2]
            · simp [next, hclose, hd, h.2]

theorem delimiters_run_string {ds : List Delimiter} (hs : '"' ∉ s)
    (h : ls.delimiters = .quote :: ds) : (ls.run s).delimiters = .quote :: ds := by
  induction s generalizing ls with
  | nil => exact h
  | cons c s ih =>
    simp only [List.mem_cons, not_or] at hs
    refine ih hs.2 ?_
    have hstep : delimiters (next (.inside .quote :: ls.tail) c) = .quote :: ds := by
      have htail : delimiters ls.tail = ds := by
        cases ls with
        | nil => cases h
        | cons l ls => exact (List.cons.inj h).2
      by_cases hb : c = '\\' <;> simp [next, Delimiter.closer, Ne.symm hs.1, hb, Level.delimiter, htail]
    rw [← hstep]
    refine delimiters_next_congr (Ne.symm hs.1) ?_
    cases ls with
    | nil => cases h
    | cons l ls =>
      have hl : l.delimiter = .quote := (List.cons.inj h).1
      rw [List.tail_cons, delimiters_cons, delimiters_cons, hl]
      rfl

theorem delimiters_run_blank (hs : Text.Blank s) : (ls.run s).delimiters = ls.delimiters := by
  induction s generalizing ls with
  | nil => rfl
  | cons c s ih =>
    rw [run_cons, ih fun d hd => hs d (List.mem_cons_of_mem c hd), delimiters_next_blank (hs c (by simp))]

@[simp] theorem delimiters_eq_nil_iff : ls.delimiters = [] ↔ ls = [] := List.map_eq_nil_iff

theorem run_blank_eq_nil_iff (hs : Text.Blank s) : ls.run s = [] ↔ ls = [] := by
  rw [← delimiters_eq_nil_iff, delimiters_run_blank hs, delimiters_eq_nil_iff]

theorem run_blank (hs : Text.Blank s) : run [] s = [] := (run_blank_eq_nil_iff hs).2 rfl

/-- Nothing is open, or just one group. -/
def Shallow (ls : Nesting) : Prop := ls = [] ∨ ∃ d, d ≠ .quote ∧ ls = [.inside d]

theorem run_append_shallow (h : Shallow outer) :
    ∃ o, Shallow o ∧ run (ls ++ outer) s = run ls s ++ o := by
  induction s generalizing ls outer with
  | nil => exact ⟨outer, h, rfl⟩
  | cons c s ih =>
    suffices hn : ∃ o, Shallow o ∧ next (ls ++ outer) c = next ls c ++ o by
      obtain ⟨o, ho, hn⟩ := hn
      obtain ⟨o', ho', hr⟩ := @ih (next ls c) o ho
      exact ⟨o', ho', by rw [run_cons, hn, hr, run_cons]⟩
    cases ls with
    | cons l ls => exact ⟨outer, h, next_append (by simp)⟩
    | nil =>
      rcases h with rfl | ⟨d, hd, rfl⟩
      · exact ⟨[], Or.inl rfl, (List.append_nil _).symm⟩
      · by_cases hc : c = d.closer
        · refine ⟨[], Or.inl rfl, ?_⟩
          subst hc
          cases d <;> first | exact absurd rfl hd | decide
        · exact ⟨[.inside d], Or.inr ⟨d, hd, rfl⟩, next_group hd hc⟩

theorem Shallow.run (h : Shallow outer) (hs : Nesting.run [] s = []) : Shallow (outer.run s) := by
  obtain ⟨o, ho, hr⟩ : ∃ o, Shallow o ∧ Nesting.run ([] ++ outer) s = Nesting.run [] s ++ o :=
    run_append_shallow h
  rw [hs, List.nil_append, List.nil_append] at hr
  rw [hr]
  exact ho

theorem Shallow.eq_of_delimiters (h : Shallow outer) (hd : ls.delimiters = outer.delimiters) :
    ls = outer := by
  rcases h with rfl | ⟨d, hq, rfl⟩
  · exact delimiters_eq_nil_iff.1 hd
  · cases ls with
    | nil => cases hd
    | cons l ls =>
      simp only [delimiters_cons, List.cons.injEq] at hd
      have hls : ls = [] := delimiters_eq_nil_iff.1 hd.2
      cases l with
      | escaped => exact absurd hd.1.symm hq
      | inside e => rw [hls, show e = d from hd.1]

theorem Shallow.run_blank (h : Shallow outer) (hs : Text.Blank s) : outer.run s = outer :=
  h.eq_of_delimiters (delimiters_run_blank hs)

theorem run_trim_eq_nil (hs : Nesting.run [] s = []) : Nesting.run [] (Text.trim s) = [] := by
  obtain ⟨a, b, ha, hb, he⟩ := Text.exists_trim s
  rw [he, run_append, run_append, Nesting.run_blank ha] at hs
  exact (run_blank_eq_nil_iff hb).1 hs

theorem Shallow.run_trim (h : Shallow outer) (hs : Nesting.run [] s = []) :
    outer.run (Text.trim s) = outer.run s := by
  obtain ⟨a, b, ha, hb, he⟩ := Text.exists_trim s
  have ho : Shallow (outer.run (Text.trim s)) := h.run (run_trim_eq_nil hs)
  rw [he, run_append, run_append, h.run_blank ha, ← he, ho.run_blank hb]

end Nesting

/-! The pieces of a text are found at the same places. -/

namespace Group
open Nesting

theorem head?_read (d : Delimiter) (s : Text) : (read d s).1.text.head? = s.head? := by
  rw [read.eq_def]
  split
  · rfl
  · split
    · split
      · rfl
      · split
        · rfl
        · split <;> rfl
    · split
      · rfl
      · split <;> rfl

/-- The text of a group leads from the levels `ls` out to the levels `outer`, or else its delimiters
stay open to the end of the whole text. -/
structure Leads (ls outer : Nesting) (g : Group) : Prop where
  inside : Inside ls g.text
  delimiters : (ls.run g.text).delimiters = g.opens.reverse ++ outer.delimiters
  closed : g.opens = [] → ls.run g.text = outer
  rest : g.opens ≠ [] → g.rest = []

theorem Leads.cons {ls outer : Nesting} {g : Group} {c : Char} (hne : ls ≠ [])
    (h : Leads (ls.next c) outer g) : Leads ls outer (g.cons c) :=
  ⟨⟨fun hn => absurd hn hne, h.inside⟩, h.delimiters, h.closed, h.rest⟩

theorem Leads.nest {ls outer : Nesting} {g h : Group} {c : Char} (hne : ls ≠ []) (hopen : g.opens = [])
    (hg : Leads (ls.next c) ls g) (hh : Leads ls outer h) : Leads ls outer (nest c g h) := by
  have hopens : (Group.nest c g h).opens = h.opens := by
    simp only [Group.nest, hopen, List.nil_append]
    cases h.opens <;> rfl
  have hrun : ls.run (Group.nest c g h).text = ls.run h.text := by
    simp only [Group.nest, List.cons_append, run_cons, run_append, hg.closed hopen]
  exact {
    inside := by
      simp only [Group.nest, List.cons_append, quiet_cons, quiet_append, hg.closed hopen]
      exact ⟨fun hn => absurd hn hne, hg.inside, hh.inside⟩
    delimiters := by rw [hrun, hopens, hh.delimiters]
    closed := by
      rw [hrun, hopens]
      exact hh.closed
    rest := by
      rw [hopens]
      exact hh.rest }

theorem Leads.nest_open {ls outer : Nesting} {g : Group} {d : Delimiter} {c : Char} (hne : ls ≠ [])
    (hls : ls.delimiters = d :: outer.delimiters) (hopen : g.opens ≠ [])
    (hg : Leads (ls.next c) ls g) : Leads ls outer (Group.nest c g (read d g.rest).1) := by
  have hread : (read d g.rest).1 = ⟨[], [d], []⟩ := by rw [hg.rest hopen, read]
  have hnest : Group.nest c g (read d g.rest).1 = ⟨c :: g.text, d :: g.opens, []⟩ := by
    simp [Group.nest, hread]
  rw [hnest]
  exact {
    inside := ⟨fun hn => absurd hn hne, hg.inside⟩
    delimiters := by
      rw [run_cons, hg.delimiters, hls]
      simp
    closed := by simp
    rest := by simp }

/-- A newline is read in the same way after a backslash and without it. -/
theorem Leads.escaped {outer : Nesting} {g : Group} (hg : g.text.head? = some '\n')
    (h : Leads (.inside .quote :: outer) outer g) : Leads (.escaped :: outer) outer g := by
  obtain ⟨u, hu⟩ := List.head?_eq_some_iff.1 hg
  have hstep : next (.escaped :: outer) '\n' = next (.inside .quote :: outer) '\n' := by
    simp [next, Delimiter.closer]
  have hrun : run (.escaped :: outer) g.text = run (.inside .quote :: outer) g.text := by
    rw [hu, run_cons, run_cons, hstep]
  have hin : Inside (.escaped :: outer) g.text := by
    have hi := h.inside
    rw [hu] at hi ⊢
    refine ⟨by simp, ?_⟩
    rw [hstep]
    exact hi.2
  exact ⟨hin, by rw [hrun, h.delimiters], by rw [hrun]; exact h.closed, h.rest⟩

/-- Every group leads out of its delimiter. -/
theorem leads_read (d : Delimiter) (s : Text) (outer : Nesting) :
    Leads (.inside d :: outer) outer (read d s).1 := by
  fun_induction read d s generalizing outer with
  | case1 d => exact ⟨trivial, rfl, by simp, by simp⟩
  | case2 s => exact ⟨by simp, by simp [next, Delimiter.closer], by simp [next, Delimiter.closer], by simp⟩
  | case3 c hc =>
    have hd : (next (.inside .quote :: outer) c).delimiters = .quote :: outer.delimiters := by
      by_cases hb : c = '\\' <;> simp [next, Delimiter.closer, hc, hb, Level.delimiter]
    exact ⟨by simp, by simpa using hd, by simp, by simp⟩
  | case4 c hc e t hp g hg hr ih =>
    have hn : next (.inside .quote :: outer) c = .escaped :: outer := by
      simp [next, Delimiter.closer, hp.1]
    have hg : Leads (.inside .quote :: outer) outer g := by simpa [hr] using ih outer
    refine .cons (by simp) ?_
    rw [hn]
    exact .cons (by simp) hg
  | case5 c hc e t hp g hg hr ih =>
    have hl : Leads (.inside .quote :: outer) outer g := by simpa [hr] using ih outer
    refine .cons (by simp) ?_
    by_cases hb : c = '\\'
    · -- the newline after a backslash is read on its own
      have he : e = '\n' := by simpa [hb] using hp
      have hn : next (.inside .quote :: outer) c = .escaped :: outer := by
        simp [next, Delimiter.closer, hb]
      have hh := head?_read .quote (e :: t)
      rw [hr, he] at hh
      rw [hn]
      exact hl.escaped hh
    · have hn : next (.inside .quote :: outer) c = .inside .quote :: outer := by
        simp [next, Delimiter.closer, hb, hc]
      rw [hn]
      exact hl
  | case6 d s hd => exact ⟨by simp, by simp [next], by simp [next], by simp⟩
  | case7 d c s hd hc inner ho g hg hr h hh hr' ihg ihh =>
    have hn : next (.inside d :: outer) c = .inside inner :: .inside d :: outer := by
      simp [next, hd, hc, ho]
    have hlg : Leads (next (.inside d :: outer) c) (.inside d :: outer) g := by
      rw [hn]
      simpa [hr] using ihg (.inside d :: outer)
    have hlh : Leads (.inside d :: outer) outer h := by simpa [hr'] using ihh outer
    by_cases hg : g.opens = []
    · exact .nest (by simp) hg hlg hlh
    · have hopen : Leads (.inside d :: outer) outer (Group.nest c g (read d g.rest).1) :=
        .nest_open (by simp) rfl hg hlg
      rwa [hr'] at hopen
  | case8 d c s hd hc ho g hg hr ih =>
    have hn : next (.inside d :: outer) c = .inside d :: outer := by simp [next, hd, hc, ho]
    refine .cons (by simp) ?_
    rw [hn]
    simpa [hr] using ih outer

end Group

end Devalang
