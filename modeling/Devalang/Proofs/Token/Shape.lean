import Devalang.Proofs.Token.Parts

/-! What a text leaves open, whether it is one closed group, the key and the value of a pair, and the
links of a chain. -/
namespace Devalang.Text
open Nesting
variable {s t u : Text} {c : Char}

theorem run_plainText (s : Text) : run [] (plainText s).1 = [] := by
  induction s with
  | nil => rfl
  | cons c s ih =>
    rw [plainText]
    split
    · rfl
    · rename_i h
      have ho := (stopsText_iff.1 (Bool.not_eq_true _ ▸ h)).2.2.2.2
      have hn : next [] c = [] := by simp [next, ho]
      rw [run_cons, hn, ih]

theorem openDelimiters_eq (s : Text) : s.openDelimiters = (run [] s).delimiters.reverse := by
  unfold openDelimiters
  fun_induction Tokens.ofText s with
  | case1 => rfl
  | case2 s ih =>
    have hn : next [] '-' = [] ∧ next [] '>' = [] := by decide
    rw [run_cons, run_cons, hn.1, hn.2]
    exact ih
  | case3 c s hne hb ih =>
    have hs : run [] s = run [] (s.dropWhile isBlank) := by
      have h := run_append [] (leading s) (trimStart s)
      rwa [leading_append_trimStart, run_blank (blank_leading s)] at h
    rw [run_cons, next_nil_blank hb, hs]
    exact ih
  | case4 s hne hb ih =>
    have hn : next [] ',' = [] := by decide
    rw [run_cons, hn]
    exact ih
  | case5 s hne hb _ ih =>
    have hn : next [] ':' = [] := by decide
    rw [run_cons, hn]
    exact ih
  | case6 c s hne hb hcomma hcolon d ho g hg hr t ih =>
    have hl : Group.Leads [.inside d] [] g := by simpa [hr] using Group.leads_read d s []
    have hs : g.text ++ g.rest = s := by simpa [hr] using Group.text_append_rest d s
    have hn : next [] c = [.inside d] := by simp [next, ho]
    rw [run_cons, hn, ← hs, run_append]
    by_cases hopen : g.opens = []
    · rw [hl.closed hopen, hopen]
      exact ih
    · have ht : t.opens = [] := by simp [t, hl.rest hopen, Tokens.ofText]
      rw [hl.rest hopen, run_nil, hl.delimiters, ht]
      simp [delimiters]
  | case7 c s hne hb hcomma hcolon ho ih =>
    have hn : next [] c = [] := by simp [next, ho]
    have hs : run [] s = run [] (plainText s).2 := by
      have h := run_append [] (plainText s).1 (plainText s).2
      rwa [plainText_append, run_plainText] at h
    rw [run_cons, hn, hs]
    exact ih

/-! A whole string or group. -/

theorem ofText_opener {d : Delimiter} (hc : Delimiter.ofOpener? c = some d) (s : Text) :
    Tokens.ofText (c :: s) =
      ⟨⟨.text, c :: (Group.read d s).1.text⟩ :: (Tokens.ofText (Group.read d s).1.rest).pieces,
        (Group.read d s).1.opens ++ (Tokens.ofText (Group.read d s).1.rest).opens⟩ := by
  obtain rfl := Delimiter.opener_of_ofOpener? hc
  have hblank : isBlank d.opener = false := by cases d <;> decide
  rw [Tokens.ofText.eq_def]
  cases d <;> simp_all [Delimiter.opener]

theorem pieces_eq_nil_iff : (Tokens.ofText s).pieces = [] ↔ s = [] := by
  constructor
  · intro h
    have ht := Tokens.flatMap_text_ofText s
    rw [h] at ht
    exact ht.symm
  · rintro rfl
    rw [Tokens.ofText]

/-- A text that starts with an opening delimiter is whole exactly if the string or group is all of it
and leaves nothing open. -/
theorem isWhole_opener_iff {d : Delimiter} (hc : Delimiter.ofOpener? c = some d) (s : Text) :
    isWhole (c :: s) = true ↔
      (Group.read d s).1.rest = [] ∧ (Group.read d s).1.opens = [] := by
  rw [isWhole, ofText_opener hc]
  simp only [List.length_cons, Bool.and_eq_true, beq_iff_eq, Nat.add_eq_right,
    List.length_eq_zero_iff, List.isEmpty_iff, List.append_eq_nil_iff, pieces_eq_nil_iff]
  constructor
  · rintro ⟨h1, h2, -⟩
    exact ⟨h1, h2⟩
  · rintro ⟨h1, h2⟩
    exact ⟨h1, h2, by rw [h1, Tokens.ofText]⟩

theorem isWhole_braces_iff : isWhole ('{' :: (s ++ ['}'])) = true ↔
    Quiet (· == '}') [] s ∧ run [] s = [] := by
  have hl := Group.leads_read .brace (s ++ ['}']) []
  have ht := Group.text_append_rest .brace (s ++ ['}'])
  rw [isWhole_opener_iff (d := .brace) rfl]
  obtain ⟨g, hg⟩ : ∃ g, (Group.read .brace (s ++ ['}'])).1 = g := ⟨_, rfl⟩
  rw [hg] at hl ht ⊢
  constructor
  · rintro ⟨hrest, hopen⟩
    rw [hrest, List.append_nil] at ht
    have hi := hl.inside
    have hr := hl.closed hopen
    rw [ht] at hi hr
    exact quiet_of_inside (d := .brace) (by decide) hi hr
  · rintro ⟨hq, hr⟩
    have hrun : run [.inside .brace] (s ++ ['}']) = [] := by
      rw [run_append, run_inside (d := .brace) (by decide) hq, hr]
      rfl
    have hopen : g.opens = [] := by
      by_contra hne
      have hd := hl.delimiters
      rw [hl.rest hne, List.append_nil] at ht
      rw [ht, hrun] at hd
      exact hne (by simpa [delimiters] using hd.symm)
    refine ⟨?_, hopen⟩
    have hi : Inside [.inside .brace] (s ++ ['}']) := by
      refine quiet_append.2 ⟨inside_inside (d := .brace) (by decide) hq, ?_⟩
      rw [run_inside (d := .brace) (by decide) hq, hr]
      simp
    rw [← ht, Inside, quiet_append, hl.closed hopen] at hi
    cases hrest : g.rest with
    | nil => rfl
    | cons c r =>
      rw [hrest] at hi
      exact absurd (hi.2.1 rfl) (by simp)

/-! The key and the value of a pair. -/

theorem separates_colon : PieceKind.separates (· == .colon) = (· == ':') := by
  funext c
  simp [PieceKind.separates]

theorem separates_comma : PieceKind.separates (· == .comma) = (· == ',') := by
  funext c
  have hk : (PieceKind.space == .comma) = false ∧ (PieceKind.colon == .comma) = false := by decide
  simp [PieceKind.separates, hk]

theorem keyValue_quiet (h : Quiet (· == ':') [] s) : keyValue s = (trim s, none) := by
  rw [← separates_colon] at h
  have hcut : cutAt (· == .colon) [] s = (s, none) := by
    have hc := cutAt_append h (by simp) []
    rw [List.append_nil] at hc
    rw [hc, cutAt, List.append_nil]
  have hp := (cutPieces_ofText (K := (· == .colon)) rfl s).2
  rw [hcut] at hp
  have hd : (Tokens.ofText s).pieces.dropWhile (·.kind != .colon) = [] := hp
  rw [keyValue, hd]

theorem keyValue_append (h : Quiet (· == ':') [] s) (hr : run [] s = []) (t : Text) :
    keyValue (s ++ ':' :: t) = (trim s, some (trim t)) := by
  rw [← separates_colon] at h
  have hcut : cutAt (· == .colon) [] (s ++ ':' :: t) = (s, some t) := by
    rw [cutAt_append h (by simp), hr, cutAt, if_pos ⟨rfl, by rw [separates_colon]; rfl⟩,
      List.append_nil]
  obtain ⟨h1, h2⟩ := cutPieces_ofText (K := (· == .colon)) rfl (s ++ ':' :: t)
  rw [hcut] at h1 h2
  obtain ⟨p, r, hd, hr⟩ := h2
  obtain rfl : r = t := by simpa using hr
  have hd' : (Tokens.ofText (s ++ ':' :: r)).pieces.dropWhile (·.kind != .colon) =
    p :: (Tokens.ofText r).pieces := hd
  have h1' : ((Tokens.ofText (s ++ ':' :: r)).pieces.takeWhile (·.kind != .colon)).flatMap
    Piece.text = s := h1
  rw [keyValue, hd']
  simp only [h1', Tokens.flatMap_text_ofText]

/-! The links of a chain. -/

/-- No arrow stands outside of strings and groups. -/
def Arrowless : Nesting → Text → Prop
  | _, [] => True
  | ls, c :: s => (ls = [] → c = '-' → s.head? ≠ some '>') ∧ Arrowless (ls.next c) s

theorem Arrowless.left {ls : Nesting} (h : Arrowless ls (s ++ t)) : Arrowless ls s := by
  induction s generalizing ls with
  | nil => trivial
  | cons c s ih =>
    refine ⟨fun hl hc hh => h.1 hl hc ?_, ih h.2⟩
    obtain ⟨r, rfl⟩ := List.head?_eq_some_iff.1 hh
    rfl

theorem Arrowless.right {ls : Nesting} (h : Arrowless ls (s ++ t)) : Arrowless (ls.run s) t := by
  induction s generalizing ls with
  | nil => exact h
  | cons c s ih => exact ih h.2

theorem Arrowless.append {ls : Nesting} (hs : Arrowless ls s) (ht : Arrowless (ls.run s) t)
    (hh : t.head? ≠ some '>') : Arrowless ls (s ++ t) := by
  induction s generalizing ls with
  | nil => exact ht
  | cons c s ih =>
    refine ⟨fun hl hc => ?_, ih hs.2 ht⟩
    cases s with
    | nil => exact hh
    | cons d s => exact hs.1 hl hc

theorem arrowless_append_of_forall {ls : Nesting} (h : ∀ c ∈ s, c ≠ '-')
    (ht : Arrowless (ls.run s) t) : Arrowless ls (s ++ t) := by
  induction s generalizing ls with
  | nil => exact ht
  | cons c s ih =>
    exact ⟨fun _ hc => absurd hc (h c (by simp)), ih (fun d hd => h d (List.mem_cons_of_mem c hd)) ht⟩

theorem Arrowless.trim {outer : Nesting} (h : Arrowless outer s) (ho : Shallow outer) :
    Arrowless outer (trim s) := by
  obtain ⟨a, b, ha, -, he⟩ := exists_trim s
  rw [he] at h
  have hm := h.left.right
  rwa [ho.run_blank ha] at hm

theorem cutAt_arrowless {ls : Nesting} (h : Arrowless ls s) (hh : t.head? ≠ some '>') :
    cutAt (· == .arrow) ls (s ++ t) =
      (s ++ (cutAt (· == .arrow) (ls.run s) t).1, (cutAt (· == .arrow) (ls.run s) t).2) := by
  induction s generalizing ls with
  | nil => rfl
  | cons c s ih =>
    have hsep : ¬ (ls = [] ∧ PieceKind.separates (· == .arrow) c = true) := by
      simp [PieceKind.separates]
    have harrow : ¬ (ls = [] ∧ (PieceKind.arrow == .arrow) = true ∧ c = '-' ∧
        (s ++ t).head? = some '>') := by
      rintro ⟨hl, -, hc, hn⟩
      cases s with
      | nil => exact hh hn
      | cons d s => exact h.1 hl hc hn
    rw [List.cons_append, cutAt, if_neg hsep, if_neg harrow, ih h.2]
    rfl

theorem links_of_cut {r : Text} (h : cutAt (· == .arrow) [] s = (t, some r)) :
    links s = trim t :: links r := by
  obtain ⟨u, hseg, hu⟩ := segments_of_cut_some (K := (· == .arrow)) rfl h
  have hur : u = r := by simpa using hu
  rw [links, hseg, hur, List.map_cons, links]

theorem links_arrowless (h : Arrowless [] s) : links s = [trim s] := by
  have hcut : cutAt (· == .arrow) [] s = (s, none) := by
    have hc := cutAt_arrowless h (t := []) (by simp)
    rw [List.append_nil] at hc
    rw [hc, cutAt, List.append_nil]
  rw [links, segments_of_cut_none (K := (· == .arrow)) rfl hcut, List.map_singleton]

theorem links_append (h : Arrowless [] s) (hr : run [] s = []) (t : Text) :
    links (s ++ '-' :: '>' :: t) = trim s :: links t := by
  refine links_of_cut ?_
  rw [cutAt_arrowless h (by simp), hr]
  simp [cutAt, PieceKind.separates]

theorem arrowless_or_cut (ls : Nesting) (s : Text) :
    Arrowless ls s ∨ ∃ t r, s = t ++ '-' :: '>' :: r ∧ Arrowless ls t ∧ run ls t = [] := by
  induction s generalizing ls with
  | nil => exact Or.inl trivial
  | cons c s ih =>
    by_cases hc : ls = [] ∧ c = '-' ∧ s.head? = some '>'
    · obtain ⟨r, rfl⟩ := List.head?_eq_some_iff.1 hc.2.2
      exact Or.inr ⟨[], r, by rw [hc.2.1]; rfl, trivial, hc.1⟩
    · have hfirst : ls = [] → c = '-' → s.head? ≠ some '>' := fun hl hd hh => hc ⟨hl, hd, hh⟩
      rcases ih (ls.next c) with h | ⟨t, r, rfl, ht, hr⟩
      · exact Or.inl ⟨hfirst, h⟩
      · refine Or.inr ⟨c :: t, r, rfl, ⟨fun hl hd hh => hfirst hl hd ?_, ht⟩, hr⟩
        rw [List.head?_append, hh]
        rfl

theorem links_ne_nil (s : Text) : links s ≠ [] := by
  rcases arrowless_or_cut [] s with h | ⟨t, r, rfl, ht, hr⟩
  · rw [links_arrowless h]
    simp
  · rw [links_append ht hr]
    simp

theorem links_eq_pair (h : links s = [t, u]) : ∃ a b, s = a ++ '-' :: '>' :: b ∧ Arrowless [] a ∧
    run [] a = [] ∧ trim a = t ∧ Arrowless [] b ∧ trim b = u := by
  rcases arrowless_or_cut [] s with ha | ⟨a, b, rfl, ha, hr⟩
  · rw [links_arrowless ha] at h
    cases h
  rw [links_append ha hr, List.cons.injEq] at h
  rcases arrowless_or_cut [] b with hb | ⟨x, y, rfl, hx, hy⟩
  · rw [links_arrowless hb] at h
    exact ⟨a, b, rfl, ha, hr, h.1, hb, by simpa using h.2⟩
  · rw [links_append hx hy, List.cons.injEq] at h
    exact absurd h.2.2 (links_ne_nil y)

theorem ne_arrow_of_separates {K : PieceKind → Bool} (h : PieceKind.separates K c = true) :
    c ≠ '-' ∧ c ≠ '>' := by
  simp only [PieceKind.separates, Bool.or_eq_true, Bool.and_eq_true, beq_iff_eq] at h
  constructor
  all_goals
    rintro rfl
    rcases h with (⟨hb, -⟩ | ⟨hc, -⟩) | ⟨hc, -⟩
    · exact absurd hb (by decide)
    · exact absurd hc (by decide)
    · exact absurd hc (by decide)

theorem arrowless_separatedBy {K : PieceKind → Bool} {outer : Nesting} (hK : K .text = false)
    (ha : K .arrow = false) (hc : PieceKind.separates K c = true) (hu : Blank u) (ho : Shallow outer)
    (h : Arrowless outer s) : Arrowless outer (join (c :: u) (separatedBy K s)) := by
  have hdash : ∀ x ∈ c :: u, x ≠ '-' := by
    refine List.forall_mem_cons.2 ⟨(ne_arrow_of_separates hc).1, ?_⟩
    rintro x hx rfl
    exact absurd (hu _ hx) (by decide)
  induction s using part_induction generalizing outer with
  | last t ht =>
    rw [separatedBy_quiet hK ha ht]
    by_cases hb : Blank t
    · rw [part_blank hb]
      trivial
    · rw [part, if_neg fun hn => hb (trim_eq_nil_iff.1 hn), join]
      exact h.trim ho
  | part t d s ht hr hd ih =>
    have ho' : Shallow (outer.run t) := ho.run hr
    have hrest := h.right.2
    rw [next_separator ho' hd] at hrest
    have hi := ih ho' hrest
    rw [separatedBy_append hK ha ht hr hd]
    by_cases hb : Blank t
    · rw [part_blank hb]
      rwa [ho.run_blank hb] at hi
    · have htrim : Arrowless outer (trim t) := h.left.trim ho
      rw [part, if_neg fun hn => hb (trim_eq_nil_iff.1 hn), List.singleton_append]
      cases hs : separatedBy K s with
      | nil => exact htrim
      | cons v vs =>
        rw [hs] at hi
        rw [join, List.append_assoc]
        refine htrim.append (arrowless_append_of_forall hdash ?_) fun hh => ?_
        · rw [ho.run_trim hr, run_separator ho' hc hu]
          exact hi
        · exact (ne_arrow_of_separates hc).2 (by simpa using hh)

end Devalang.Text
