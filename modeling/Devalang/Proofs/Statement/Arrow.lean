import Devalang.Proofs.Statement.Restated

/-! A call of a target: the parts of its text, and what its text as it is written has in common with
the text that it was read from. -/
namespace Devalang
open Text Nesting

def isMethodChar (c : Char) : Bool := isWord c || c == '.'

theorem isBlank_of_isMethodChar {c : Char} (h : isMethodChar c = true) : isBlank c = false := by
  rw [Bool.eq_false_iff]
  intro hb
  rw [isMethodChar, isWord_blank hb, Bool.false_or, beq_iff_eq] at h
  subst h
  revert hb
  decide

theorem ne_of_isMethodChar {c d : Char} (h : isMethodChar c = true) (hd : isMethodChar d = false) :
    c ≠ d := by
  rintro rfl
  rw [h] at hd
  cases hd

theorem ofOpener?_of_isMethodChar {c : Char} (h : isMethodChar c = true) :
    Delimiter.ofOpener? c = none := by
  have hne : c ≠ '"' ∧ c ≠ '{' ∧ c ≠ '(' ∧ c ≠ '[' :=
    ⟨ne_of_isMethodChar h (by decide +kernel), ne_of_isMethodChar h (by decide +kernel),
      ne_of_isMethodChar h (by decide +kernel), ne_of_isMethodChar h (by decide +kernel)⟩
  simp [Delimiter.ofOpener?, hne]

/-- The text `s` calls the method `m` of the target `t`. The blanks `x`, `y` and `z` stand around the
arrow and after the method, and `u` between the parentheses. -/
structure Calls (s t x y m z u : Text) : Prop where
  trimmed : Trimmed t
  nonempty : t ≠ []
  closed : run [] t = []
  arrowless : Arrowless [] t
  blanks : Blank x ∧ Blank y ∧ Blank z
  named : m ≠ []
  method : ∀ c ∈ m, isMethodChar c = true
  inner : Arrowless [.inside .paren] u
  text : s = t ++ (x ++ '-' :: '>' :: (y ++ (m ++ (z ++ '(' :: (u ++ [')'])))))

theorem Call.read_eq_some_iff {s : Text} {c : Call} : Call.read s = some c ↔
    ∃ z u, c.method ≠ [] ∧ (∀ x ∈ c.method, isMethodChar x = true) ∧ Blank z ∧
      c.arguments = items u ∧ s = c.method ++ (z ++ '(' :: (u ++ [')'])) := by
  constructor
  · intro h
    simp only [Call.read, Option.bind_eq_bind, Option.bind_eq_some_iff, Prod.exists,
      run?_eq_some_iff, between?_eq_some_iff, Option.pure_def, Option.some.injEq] at h
    obtain ⟨m, rest, ⟨hne, hm, -, rfl⟩, u, hu, rfl⟩ := h
    refine ⟨leading rest, u, hne, hm, blank_leading rest, rfl, ?_⟩
    rw [← hu, leading_append_trimStart]
  · rintro ⟨z, u, hne, hm, hz, hu, rfl⟩
    have hstop : Stops isMethodChar (z ++ '(' :: (u ++ [')'])) := by
      cases z with
      | nil => exact stops_cons (by decide +kernel) _
      | cons d z =>
        refine stops_cons ?_ _
        rw [Bool.eq_false_iff]
        intro hd
        have hb := hz d (by simp)
        rw [isBlank_of_isMethodChar hd] at hb
        cases hb
    have hrun : run? (fun c => isWord c || c == '.') (c.method ++ (z ++ '(' :: (u ++ [')']))) =
        some (c.method, z ++ '(' :: (u ++ [')'])) := run?_eq_some_iff.2 ⟨hne, hm, hstop, rfl⟩
    have htrim : trimStart (z ++ '(' :: (u ++ [')'])) = '(' :: (u ++ [')']) := by
      rw [trimStart_blank_append hz, trimStart_of_head (stops_cons (by decide) _)]
    have hbetween : between? '(' ')' ('(' :: (u ++ [')'])) = some u := between?_eq_some_iff.2 rfl
    simp only [Call.read, hrun, htrim, hbetween, Option.bind_eq_bind, Option.bind_some,
      Option.pure_def, ← hu]

theorem arrowless_blank {ls : Nesting} {b : Text} (h : Blank b) : Arrowless ls b := by
  have ha := @arrowless_append_of_forall b [] ls (fun c hc hd => ?_) trivial
  · rwa [List.append_nil] at ha
  · have hb := h c hc
    subst hd
    revert hb
    decide

namespace Calls
variable {s t x y m z u : Text}

theorem closed_blank (h : Calls s t x y m z u) : run [] (t ++ x) = [] := by
  rw [run_append, h.closed, run_blank h.blanks.1]

theorem closed_method (h : Calls s t x y m z u) : run [] m = [] :=
  run_of_forall fun c hc => ofOpener?_of_isMethodChar (h.method c hc)

theorem arrowless_call (h : Calls s t x y m z u) :
    Arrowless [] (y ++ (m ++ (z ++ '(' :: (u ++ [')'])))) := by
  have hn : next [] '(' = [.inside .paren] := by decide
  have hinner : Arrowless [] ('(' :: (u ++ [')'])) := by
    refine ⟨fun _ hc => absurd hc (by decide), ?_⟩
    rw [hn]
    exact h.inner.append ⟨fun _ hc => absurd hc (by decide), trivial⟩ (by simp)
  have hdash (b : Text) (hb : Blank b) : ∀ c ∈ b, c ≠ '-' := by
    rintro c hc rfl
    exact absurd (hb _ hc) (by decide)
  refine arrowless_append_of_forall (hdash y h.blanks.2.1) ?_
  rw [run_blank h.blanks.2.1]
  refine arrowless_append_of_forall (fun c hc => ne_of_isMethodChar (h.method c hc) (by decide +kernel)) ?_
  rw [h.closed_method]
  refine arrowless_append_of_forall (hdash z h.blanks.2.2) ?_
  rw [run_blank h.blanks.2.2]
  exact hinner

theorem trimmed_call (h : Calls s t x y m z u) : Trimmed (m ++ (z ++ '(' :: (u ++ [')']))) := by
  have hm : Trimmed m := trimmed_of_forall fun c hc => isBlank_of_isMethodChar (h.method c hc)
  have ht := hm.append (s := z ++ '(' :: u) (trimmed_singleton (c := ')') (by decide)) (by simp)
    fun hn => absurd hn h.named
  simpa using ht

theorem links_eq (h : Calls s t x y m z u) : links s = [t, m ++ (z ++ '(' :: (u ++ [')']))] := by
  have ha : Arrowless [] (t ++ x) := by
    refine h.arrowless.append (arrowless_blank h.blanks.1) ?_
    intro hh
    have hb := h.blanks.1 '>' (List.mem_of_mem_head? hh)
    revert hb
    decide
  have hs : s = (t ++ x) ++ '-' :: '>' :: (y ++ (m ++ (z ++ '(' :: (u ++ [')'])))) := by
    rw [h.text, List.append_assoc]
  rw [hs, links_append ha h.closed_blank, links_arrowless h.arrowless_call,
    trim_append_blank t h.blanks.1, h.trimmed.trim_eq, trim_blank_append h.blanks.2.1,
    h.trimmed_call.trim_eq]

theorem openDelimiters_eq (h : Calls s t x y m z u) :
    s.openDelimiters = (run [.inside .paren] (u ++ [')'])).delimiters.reverse := by
  have hdash : next [] '-' = [] ∧ next [] '>' = [] := by decide
  have hparen : next [] '(' = [.inside .paren] := by decide
  rw [Text.openDelimiters_eq, h.text, run_append, h.closed, run_append, run_blank h.blanks.1, run_cons,
    run_cons, hdash.1, hdash.2, run_append, run_blank h.blanks.2.1, run_append, h.closed_method,
    run_append, run_blank h.blanks.2.2, run_cons, hparen]

theorem trimmed_text (h : Calls s t x y m z u) : Trimmed s := by
  have ht := h.trimmed.append (s := x ++ '-' :: '>' :: y) h.trimmed_call (by simp)
    fun hn => absurd hn h.nonempty
  rw [h.text]
  simpa using ht

theorem last (h : Calls s t x y m z u) : s.getLast? = some ')' := by
  have hs : s = (t ++ (x ++ '-' :: '>' :: (y ++ (m ++ (z ++ '(' :: u))))) ++ [')'] := by
    rw [h.text]
    simp
  rw [hs, List.getLast?_append_of_ne_nil _ (by simp)]
  rfl

theorem arrowless_inner (hy : Blank y) (hm : ∀ c ∈ m, isMethodChar c = true) (hz : Blank z)
    (h : Arrowless [] (y ++ (m ++ (z ++ '(' :: (u ++ [')']))))) : Arrowless [.inside .paren] u := by
  have hn : next [] '(' = [.inside .paren] := by decide
  have hclosed : run [] m = [] := run_of_forall fun c hc => ofOpener?_of_isMethodChar (hm c hc)
  have h1 := h.right
  rw [run_blank hy] at h1
  have h2 := h1.right
  rw [hclosed] at h2
  have h3 := h2.right
  rw [run_blank hz] at h3
  have h4 := h3.2
  rw [hn] at h4
  exact h4.left

theorem of_readArrow {indent : Nat} {following : List Text} {r : Simple} (ht : Trimmed s)
    (h : Simple.readArrow indent following s = some (r, 0)) (hr : r.isChain = false) :
    ∃ t x y m z u, Calls s t x y m z u ∧ r = .arrow t ⟨m, items u⟩ [] := by
  obtain ⟨-, hn, target, first, more, call, calls, hlinks, hne, hfirst, hmore, rfl⟩ :=
    Simple.readArrow_eq_some_iff.1 h
  rw [continueChain_zero hn] at hlinks
  cases calls with
  | cons d calls => cases hr
  | nil =>
    have hm : more = [] := by
      cases more with
      | nil => rfl
      | cons l more => simp [List.mapM_cons, Option.bind_eq_some_iff] at hmore
    rw [hm] at hlinks
    obtain ⟨a, b, hs, ha, hra, rfl, hb, rfl⟩ := links_eq_pair hlinks
    obtain ⟨z, u, hmne, hmc, hz, hargs, hcall⟩ := Call.read_eq_some_iff.1 hfirst
    obtain ⟨x, hx, hae⟩ : ∃ x, Blank x ∧ a = trim a ++ x := by
      rw [hs] at ht
      exact ht.exists_trim_left
    obtain ⟨y, hy, hbe⟩ : ∃ y, Blank y ∧ b = y ++ trim b := by
      rw [hs, List.append_cons, List.append_cons] at ht
      exact ht.exists_trim_right
    rw [hcall] at hbe
    refine ⟨trim a, x, y, call.method, z, u, ?_, by rw [← hargs]⟩
    exact {
      trimmed := trimmed_trim a
      nonempty := hne
      closed := run_trim_eq_nil hra
      arrowless := by
        rw [hae] at ha
        exact ha.left
      blanks := ⟨hx, hy, hz⟩
      named := hmne
      method := hmc
      inner := arrowless_inner hy hmc hz (hbe ▸ hb)
      text := by
        rw [← hbe, ← List.append_assoc, ← hae]
        exact hs }

/-- The text of a call has the same parts, one space on both sides of the arrow, and the arguments put
together again. -/
theorem write (h : Calls s t x y m z u) :
    Calls (Simple.arrow t ⟨m, items u⟩ []).write t [' '] [' '] m [] (Text.join comma (items u)) where
  trimmed := h.trimmed
  nonempty := h.nonempty
  closed := h.closed
  arrowless := h.arrowless
  blanks := ⟨blank_space, blank_space, by simp [Blank]⟩
  named := h.named
  method := h.method
  inner := arrowless_separatedBy rfl rfl (by decide) blank_space (Or.inr ⟨.paren, by decide, rfl⟩) h.inner
  text := by
    have hw : (Simple.arrow t ⟨m, items u⟩ []).write =
      t ++ " -> ".toList ++ (m ++ '(' :: Text.join comma (items u) ++ [')']) := rfl
    rw [hw]
    simp

theorem items_write (u : Text) : items (Text.join comma (items u)) = items u :=
  (tidy_separatedBy rfl rfl u).separatedBy_join rfl rfl (by decide) blank_space

theorem openDelimiters_write (h : Calls s t x y m z u) :
    (Simple.arrow t ⟨m, items u⟩ []).write.openDelimiters = s.openDelimiters := by
  have hd : (run [.inside .paren] (Text.join comma (items u))).delimiters =
      (run [.inside .paren] u).delimiters :=
    delimiters_separatedBy rfl rfl (by decide) blank_space (Or.inr ⟨.paren, by decide, rfl⟩) u
  rw [h.write.openDelimiters_eq, h.openDelimiters_eq, run_append, run_append, run_cons,
    run_cons, run_nil, run_nil, delimiters_next_congr (by decide) hd]

end Calls

end Devalang
