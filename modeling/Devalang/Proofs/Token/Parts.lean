import Devalang.Split
import Devalang.Proofs.Token.Nesting

/-! The parts of a text between the separators that stand outside of its strings and groups. -/
namespace Devalang

def PieceKind.separates (K : PieceKind → Bool) (c : Char) : Bool :=
  Text.isBlank c && K .space || c == ',' && K .comma || c == ':' && K .colon

/-- The text up to the first separator, and what follows that. Of blanks next to one another only the
first one is left out. -/
def cutAt (K : PieceKind → Bool) : Nesting → Text → Text × Option Text
  | _, [] => ([], none)
  | ls, c :: s =>
    if ls = [] ∧ PieceKind.separates K c = true then ([], some s)
    else if ls = [] ∧ K .arrow = true ∧ c = '-' ∧ s.head? = some '>' then ([], some s.tail)
    else (c :: (cutAt K (ls.next c) s).1, (cutAt K (ls.next c) s).2)

section Cut
open Nesting PieceKind
variable {K : PieceKind → Bool} {ls : Nesting} {s t u : Text} {c : Char}

theorem cutAt_append (h : Quiet (separates K) ls t) (ha : K .arrow = true → Inside ls t) (u : Text) :
    cutAt K ls (t ++ u) = (t ++ (cutAt K (ls.run t) u).1, (cutAt K (ls.run t) u).2) := by
  induction t generalizing ls with
  | nil => rfl
  | cons c t ih =>
    have hsep : ¬ (ls = [] ∧ separates K c = true) := fun hn => by simp [h.1 hn.1] at hn
    have harrow : ¬ (ls = [] ∧ K .arrow = true ∧ c = '-' ∧ (t ++ u).head? = some '>') :=
      fun hn => by simpa using (ha hn.2.1).1 hn.1
    rw [List.cons_append, cutAt, if_neg hsep, if_neg harrow, ih h.2 fun hk => (ha hk).2]
    rfl

theorem stopsText_iff : stopsText (c :: s) = false ↔ ¬ (c = '-' ∧ s.head? = some '>') ∧
    Text.isBlank c = false ∧ c ≠ ',' ∧ c ≠ ':' ∧ Delimiter.ofOpener? c = none := by
  by_cases hc : c = '-'
  · subst hc
    cases s with
    | nil => decide
    | cons d s =>
      by_cases hd : d = '>'
      · simp [hd, stopsText]
      · simp [stopsText, hd]
  · simp [stopsText, hc, and_assoc]

theorem cutAt_plain (h : stopsText (c :: s) = false) :
    cutAt K [] (c :: s) = (c :: (cutAt K [] s).1, (cutAt K [] s).2) := by
  obtain ⟨ha, hb, hcomma, hcolon, ho⟩ := stopsText_iff.1 h
  have hsep : separates K c = false := by simp [separates, hb, hcomma, hcolon]
  have hn : Nesting.next [] c = [] := by simp [Nesting.next, ho]
  rw [cutAt, if_neg (by simp [hsep]), if_neg (fun h => ha h.2.2), hn]

theorem cutAt_plainText (s : Text) : cutAt K [] s =
    ((plainText s).1 ++ (cutAt K [] (plainText s).2).1, (cutAt K [] (plainText s).2).2) := by
  induction s with
  | nil => rfl
  | cons c s ih =>
    rw [plainText]
    split
    · rfl
    · rename_i h
      rw [cutAt_plain (by simpa using h), ih]
      rfl

theorem cutAt_blank (hK : K .space = false) (ht : Text.Blank t) (u : Text) :
    cutAt K [] (t ++ u) = (t ++ (cutAt K [] u).1, (cutAt K [] u).2) := by
  induction t with
  | nil => rfl
  | cons c t ih =>
    have hc := ht c (by simp)
    have hne : c ≠ ',' ∧ c ≠ ':' ∧ c ≠ '-' := by
      refine ⟨?_, ?_, ?_⟩ <;> rintro rfl <;> revert hc <;> decide
    rw [List.cons_append, cutAt, if_neg (by simp [separates, hK, hne]), if_neg (by simp [hne]),
      next_nil_blank hc, ih fun d hd => ht d (List.mem_cons_of_mem c hd)]
    rfl

/-- The pieces in front of the first separator have the text `cut.1`, and the pieces after it are
those of the text `cut.2`, but for blanks next to a separating blank. -/
def CutPieces (K : PieceKind → Bool) (ps : List Piece) (cut : Text × Option Text) : Prop :=
  (ps.takeWhile (!K ·.kind)).flatMap Piece.text = cut.1 ∧
    match cut.2 with
    | none => ps.dropWhile (!K ·.kind) = []
    | some r => ∃ p r', ps.dropWhile (!K ·.kind) = p :: (Tokens.ofText r').pieces ∧
      (r' = r ∨ K .space = true ∧ r' = Text.trimStart r)

theorem CutPieces.cons {ps : List Piece} {cut : Text × Option Text} {p : Piece} (hp : K p.kind = false)
    (h : CutPieces K ps cut) : CutPieces K (p :: ps) (p.text ++ cut.1, cut.2) := by
  obtain ⟨h1, h2⟩ := h
  refine ⟨?_, ?_⟩
  · rw [List.takeWhile_cons_of_pos (by simp [hp]), List.flatMap_cons, h1]
  · rw [List.dropWhile_cons_of_pos (by simp [hp])]
    exact h2

theorem CutPieces.separator {p : Piece} {r r' : Text} (hp : K p.kind = true)
    (hr : r' = r ∨ K .space = true ∧ r' = Text.trimStart r) :
    CutPieces K (p :: (Tokens.ofText r').pieces) ([], some r) := by
  refine ⟨?_, p, r', ?_, hr⟩
  · rw [List.takeWhile_cons_of_neg (by simp [hp])]
    rfl
  · rw [List.dropWhile_cons_of_neg (by simp [hp])]

theorem CutPieces.mark {p : Piece} (hp : p.text = [c]) (hc : c ≠ '-') (hn : Nesting.next [] c = [])
    (hsep : separates K c = K p.kind) (h : CutPieces K (Tokens.ofText s).pieces (cutAt K [] s)) :
    CutPieces K (p :: (Tokens.ofText s).pieces) (cutAt K [] (c :: s)) := by
  cases hk : K p.kind with
  | true =>
    have hcut : cutAt K [] (c :: s) = ([], some s) := by simp [cutAt, hsep, hk]
    rw [hcut]
    exact .separator hk (.inl rfl)
  | false =>
    have hcut : cutAt K [] (c :: s) = (p.text ++ (cutAt K [] s).1, (cutAt K [] s).2) := by
      simp [cutAt, hsep, hk, hc, hn, hp]
    rw [hcut]
    exact .cons hk h

theorem CutPieces.arrow (h : CutPieces K (Tokens.ofText s).pieces (cutAt K [] s)) :
    CutPieces K (⟨.arrow, ['-', '>']⟩ :: (Tokens.ofText s).pieces) (cutAt K [] ('-' :: '>' :: s)) := by
  have hsep : separates K '-' = false := by simp [separates, show Text.isBlank '-' = false by decide]
  have hsep' : separates K '>' = false := by simp [separates, show Text.isBlank '>' = false by decide]
  have hn : Nesting.next [] '-' = [] ∧ Nesting.next [] '>' = [] := by decide
  cases hk : K .arrow with
  | true =>
    have hcut : cutAt K [] ('-' :: '>' :: s) = ([], some s) := by simp [cutAt, hsep, hk]
    rw [hcut]
    exact .separator hk (.inl rfl)
  | false =>
    have hcut : cutAt K [] ('-' :: '>' :: s) =
        (['-', '>'] ++ (cutAt K [] s).1, (cutAt K [] s).2) := by simp [cutAt, hsep, hsep', hk, hn]
    rw [hcut]
    exact .cons hk h

theorem CutPieces.blanks (hc : Text.isBlank c = true)
    (h : CutPieces K (Tokens.ofText (Text.trimStart s)).pieces (cutAt K [] (Text.trimStart s))) :
    CutPieces K (⟨.space, c :: s.takeWhile Text.isBlank⟩ :: (Tokens.ofText (Text.trimStart s)).pieces)
      (cutAt K [] (c :: s)) := by
  cases hk : K .space with
  | true =>
    have hcut : cutAt K [] (c :: s) = ([], some s) := by simp [cutAt, separates, hc, hk]
    rw [hcut]
    exact .separator hk (.inr ⟨hk, rfl⟩)
  | false =>
    have hblank : Text.Blank (c :: s.takeWhile Text.isBlank) :=
      List.forall_mem_cons.2 ⟨hc, fun d hd => List.mem_takeWhile_imp hd⟩
    have hcut := cutAt_blank hk hblank (Text.trimStart s)
    rw [Text.trimStart, List.cons_append, List.takeWhile_append_dropWhile] at hcut
    rw [hcut]
    exact .cons hk h

theorem cutAt_group {d : Delimiter} {g : Group} (hc : c ≠ '-') (hsep : separates K c = false)
    (ho : Delimiter.ofOpener? c = some d) (hg : Group.Leads [.inside d] [] g) :
    cutAt K [] (c :: (g.text ++ g.rest)) =
      (c :: g.text ++ (cutAt K [] g.rest).1, (cutAt K [] g.rest).2) := by
  have hn : Nesting.next [] c = [.inside d] := by simp [Nesting.next, ho]
  have hrest : cutAt K (Nesting.run [.inside d] g.text) g.rest = cutAt K [] g.rest := by
    by_cases hopen : g.opens = []
    · rw [hg.closed hopen]
    · rw [hg.rest hopen]
      rfl
  have hi : Quiet (separates K) [.inside d] g.text := hg.inside.mono (by simp)
  rw [cutAt, if_neg (by simp [hsep]), if_neg (by simp [hc]), hn,
    cutAt_append hi (fun _ => hg.inside), hrest]
  rfl

/-- The first separator among the pieces of a text stands where the text is cut. -/
theorem cutPieces_ofText (hK : K .text = false) (s : Text) :
    CutPieces K (Tokens.ofText s).pieces (cutAt K [] s) := by
  fun_induction Tokens.ofText s with
  | case1 => exact ⟨rfl, rfl⟩
  | case2 s ih => exact ih.arrow
  | case3 c s hne hb ih => exact .blanks hb ih
  | case4 s hne hb ih => exact ih.mark rfl (by decide) (by decide) (by simp [separates, hb])
  | case5 s hne hb _ ih => exact ih.mark rfl (by decide) (by decide) (by simp [separates, hb])
  | case6 c s hne hb hcomma hcolon d ho g hg hr t ih =>
    have hdash : c ≠ '-' := by
      rintro rfl
      cases ho
    have hsep : separates K c = false := by simp [separates, hb, hcomma, hcolon]
    have hl : Group.Leads [.inside d] [] g := by simpa [hr] using Group.leads_read d s []
    have hs : g.text ++ g.rest = s := by simpa [hr] using Group.text_append_rest d s
    have hcut := cutAt_group hdash hsep ho hl
    rw [hs] at hcut
    rw [hcut]
    exact .cons hK ih
  | case7 c s hne hb hcomma hcolon ho ih =>
    have hstop : stopsText (c :: s) = false := by
      refine stopsText_iff.2 ⟨?_, by simpa using hb, hcomma, hcolon, ho⟩
      rintro ⟨hc, hs⟩
      obtain ⟨u, hu⟩ := List.head?_eq_some_iff.1 hs
      exact hne u hc hu
    rw [cutAt_plain hstop, cutAt_plainText s]
    exact .cons hK ih

theorem segments_eq (K : PieceKind → Bool) (ps : List Piece) : segments K ps =
    (ps.takeWhile (!K ·.kind)).flatMap Piece.text ::
      match ps.dropWhile (!K ·.kind) with
      | [] => []
      | _ :: after => segments K after := by
  induction ps with
  | nil => rfl
  | cons p ps ih =>
    cases hp : K p.kind with
    | true => simp [segments, hp]
    | false => simp [segments, hp, ih]

theorem segments_of_cut_none (hK : K .text = false) (h : cutAt K [] s = (t, none)) :
    segments K (Tokens.ofText s).pieces = [t] := by
  obtain ⟨h1, h2⟩ := cutPieces_ofText hK s
  rw [h] at h1 h2
  rw [segments_eq, h1, h2]

theorem segments_of_cut_some (hK : K .text = false) (h : cutAt K [] s = (t, some u)) :
    ∃ r, segments K (Tokens.ofText s).pieces = t :: segments K (Tokens.ofText r).pieces ∧
      (r = u ∨ K .space = true ∧ r = Text.trimStart u) := by
  obtain ⟨h1, h2⟩ := cutPieces_ofText hK s
  rw [h] at h1 h2
  obtain ⟨p, r, hd, hr⟩ := h2
  exact ⟨r, by rw [segments_eq, h1, hd], hr⟩

end Cut

namespace Text
open Nesting
variable {K : PieceKind → Bool} {s t u : Text} {c : Char}

theorem ofText_blank (hc : isBlank c = true) (s : Text) : Tokens.ofText (c :: s) =
    (Tokens.ofText (trimStart s)).cons ⟨.space, c :: s.takeWhile isBlank⟩ := by
  have hdash : c ≠ '-' := by
    rintro rfl
    exact absurd hc (by decide)
  rw [Tokens.ofText.eq_def]
  split
  · rename_i h
    cases h
  · rename_i h
    exact absurd (List.cons.inj h).1 hdash
  · rename_i d r _ h
    cases h
    rw [if_pos hc]
    rfl

theorem separatedBy_trimStart (hK : K .space = true) (s : Text) :
    separatedBy K (trimStart s) = separatedBy K s := by
  cases s with
  | nil => rfl
  | cons c s =>
    by_cases hc : isBlank c = true
    · have hs : trimStart (c :: s) = trimStart s := List.dropWhile_cons_of_pos hc
      rw [hs, separatedBy, separatedBy, ofText_blank hc s]
      simp only [Tokens.cons, segments, hK, if_true, List.map_cons]
      rfl
    · rw [trimStart_of_head (by simpa using hc)]

/-- The part as an item, which there is unless it is blank. -/
def part (t : Text) : List Text := if trim t = [] then [] else [trim t]

theorem part_blank (h : Blank t) : part t = [] := if_pos (trim_blank h)

theorem Trimmed.part_eq (h : Trimmed t) (hne : t ≠ []) : part t = [t] := by
  rw [part, h.trim_eq, if_neg hne]

theorem filter_cons_eq_part (t : Text) (ts : List Text) :
    (trim t :: ts).filter (!·.isEmpty) = part t ++ ts.filter (!·.isEmpty) := by
  by_cases ht : trim t = []
  · simp [part, ht]
  · simp [part, ht]

theorem separatedBy_quiet (hK : K .text = false) (ha : K .arrow = false)
    (h : Quiet (PieceKind.separates K) [] t) : separatedBy K t = part t := by
  have hcut : cutAt K [] t = (t, none) := by
    have hc := cutAt_append h (by simp [ha]) []
    rw [List.append_nil] at hc
    rw [hc, cutAt, List.append_nil]
  rw [separatedBy, segments_of_cut_none hK hcut, List.map_singleton, filter_cons_eq_part]
  simp

theorem separatedBy_append (hK : K .text = false) (ha : K .arrow = false)
    (h : Quiet (PieceKind.separates K) [] t) (hr : run [] t = [])
    (hc : PieceKind.separates K c = true) (s : Text) :
    separatedBy K (t ++ c :: s) = part t ++ separatedBy K s := by
  have hcut : cutAt K [] (t ++ c :: s) = (t, some s) := by
    rw [cutAt_append h (by simp [ha]), hr, cutAt, if_pos ⟨rfl, hc⟩, List.append_nil]
  obtain ⟨r, hseg, hr⟩ := segments_of_cut_some hK hcut
  have hrs : separatedBy K r = separatedBy K s := by
    rcases hr with rfl | ⟨hsp, rfl⟩
    · rfl
    · exact separatedBy_trimStart hsp s
  rw [← hrs, separatedBy, hseg, List.map_cons, filter_cons_eq_part, separatedBy]

theorem quiet_or_cut (p : Char → Bool) (ls : Nesting) (s : Text) :
    Quiet p ls s ∨ ∃ t c r, s = t ++ c :: r ∧ Quiet p ls t ∧ run ls t = [] ∧ p c = true := by
  induction s generalizing ls with
  | nil => exact Or.inl trivial
  | cons c s ih =>
    by_cases hc : ls = [] ∧ p c = true
    · exact Or.inr ⟨[], c, s, rfl, trivial, hc.1, hc.2⟩
    · have hq : ls = [] → p c = false := fun hl => by simpa [hl] using hc
      rcases ih (ls.next c) with h | ⟨t, d, r, rfl, ht, hr, hd⟩
      · exact Or.inl ⟨hq, h⟩
      · exact Or.inr ⟨c :: t, d, r, rfl, ⟨hq, ht⟩, hr, hd⟩

@[elab_as_elim]
theorem part_induction {p : Char → Bool} {motive : Text → Prop}
    (last : ∀ t, Quiet p [] t → motive t)
    (part : ∀ t c s, Quiet p [] t → run [] t = [] → p c = true → motive s → motive (t ++ c :: s))
    (s : Text) : motive s := by
  induction hn : s.length using Nat.strongRecOn generalizing s with
  | ind n ih =>
    rcases quiet_or_cut p [] s with h | ⟨t, c, r, rfl, ht, hr, hc⟩
    · exact last s h
    · refine part t c r ht hr hc (ih r.length ?_ r rfl)
      rw [← hn, List.length_append, List.length_cons]
      omega

section Tidy
open PieceKind
variable {ts : List Text} {sep : Text} {outer : Nesting}

/-- Texts that are found again when they are put together with separators between them. Only the last
one may leave something open. -/
structure Tidy (K : PieceKind → Bool) (ts : List Text) : Prop where
  trimmed : ∀ t ∈ ts, Trimmed t
  nonempty : ∀ t ∈ ts, t ≠ []
  quiet : ∀ t ∈ ts, Quiet (separates K) [] t
  closed : ∀ t ∈ ts.dropLast, run [] t = []

theorem Quiet.trim {p : Char → Bool} (h : Quiet p [] t) : Quiet p [] (trim t) := by
  obtain ⟨a, b, ha, -, he⟩ := exists_trim t
  rw [he, quiet_append, quiet_append, run_blank ha] at h
  exact h.1.2

theorem mem_part {x : Text} (h : x ∈ part t) : x = trim t ∧ trim t ≠ [] := by
  simp only [part] at h
  split at h
  · cases h
  · exact ⟨List.mem_singleton.1 h, by assumption⟩

theorem tidy_part (h : Quiet (separates K) [] t) : Tidy K (part t) where
  trimmed x hx := by rw [(mem_part hx).1]; exact trimmed_trim t
  nonempty x hx := by rw [(mem_part hx).1]; exact (mem_part hx).2
  quiet x hx := by rw [(mem_part hx).1]; exact Quiet.trim h
  closed x hx := by
    simp only [part] at hx
    split at hx <;> simp at hx

theorem Tidy.append (hp : Tidy K (part t)) (hr : run [] t = []) (h : Tidy K ts) :
    Tidy K (part t ++ ts) where
  trimmed x hx := (List.mem_append.1 hx).elim (hp.trimmed x) (h.trimmed x)
  nonempty x hx := (List.mem_append.1 hx).elim (hp.nonempty x) (h.nonempty x)
  quiet x hx := (List.mem_append.1 hx).elim (hp.quiet x) (h.quiet x)
  closed x hx := by
    have hpart (hm : x ∈ part t) : run [] x = [] := by
      rw [(mem_part hm).1]
      exact run_trim_eq_nil hr
    by_cases hts : ts = []
    · rw [hts, List.append_nil] at hx
      exact hpart (List.dropLast_subset _ hx)
    · rw [List.dropLast_append_of_ne_nil hts] at hx
      exact (List.mem_append.1 hx).elim hpart (h.closed x)

theorem tidy_separatedBy (hK : K .text = false) (ha : K .arrow = false) (s : Text) :
    Tidy K (separatedBy K s) := by
  induction s using part_induction with
  | last t ht =>
    rw [separatedBy_quiet hK ha ht]
    exact tidy_part ht
  | part t c s ht hr hc ih =>
    rw [separatedBy_append hK ha ht hr hc]
    exact (tidy_part ht).append hr ih

theorem separatedBy_blank_cons (hK : K .text = false) (ha : K .arrow = false)
    (hc : isBlank c = true) (s : Text) : separatedBy K (c :: s) = separatedBy K s := by
  have hblank : Blank [c] := blank_singleton hc
  have hn : next [] c = [] := next_nil_blank hc
  cases hsep : separates K c with
  | true =>
    have h := separatedBy_append hK ha (t := []) trivial rfl hsep s
    rw [part_blank (by simp [Blank])] at h
    exact h
  | false =>
    have hpart (t : Text) : part (c :: t) = part t := by
      have he : trim (c :: t) = trim t := trim_blank_append hblank t
      rw [part, part, he]
    rcases quiet_or_cut (separates K) [] s with h | ⟨t, d, r, rfl, ht, hr, hd⟩
    · have hq : Quiet (separates K) [] (c :: s) := ⟨fun _ => hsep, by rwa [hn]⟩
      rw [separatedBy_quiet hK ha hq, separatedBy_quiet hK ha h, hpart]
    · have hq : Quiet (separates K) [] (c :: t) := ⟨fun _ => hsep, by rwa [hn]⟩
      have hrc : run [] (c :: t) = [] := by rwa [run_cons, hn]
      rw [← List.cons_append, separatedBy_append hK ha hq hrc hd, separatedBy_append hK ha ht hr hd,
        hpart]

theorem separatedBy_blank_append (hK : K .text = false) (ha : K .arrow = false) (hu : Blank u)
    (s : Text) : separatedBy K (u ++ s) = separatedBy K s := by
  induction u with
  | nil => rfl
  | cons c u ih =>
    rw [List.cons_append, separatedBy_blank_cons hK ha (hu c (by simp)),
      ih fun d hd => hu d (List.mem_cons_of_mem c hd)]

theorem separatedBy_append_blank (hK : K .text = false) (ha : K .arrow = false)
    (hsp : K .space = false) (hu : Blank u) (s : Text) :
    separatedBy K (s ++ u) = separatedBy K s := by
  have hq (ls : Nesting) : Quiet (separates K) ls u := by
    refine quiet_of_forall fun c hc => ?_
    have hb := hu c hc
    have hne : c ≠ ',' ∧ c ≠ ':' := by
      constructor <;> rintro rfl <;> revert hb <;> decide
    simp [separates, hsp, hne]
  induction s using part_induction with
  | last t ht =>
    have hp : part (t ++ u) = part t := by rw [part, part, trim_append_blank t hu]
    rw [separatedBy_quiet hK ha (quiet_append.2 ⟨ht, hq _⟩), separatedBy_quiet hK ha ht, hp]
  | part t c s ht hr hc ih =>
    rw [List.append_assoc, List.cons_append, separatedBy_append hK ha ht hr hc,
      separatedBy_append hK ha ht hr hc, ih]

theorem separatedBy_nil (hK : K .text = false) (ha : K .arrow = false) : separatedBy K [] = [] := by
  rw [separatedBy_quiet hK ha quiet_nil]
  rfl

theorem Tidy.head_closed {v : Text} (h : Tidy K (t :: v :: ts)) : run [] t = [] :=
  h.closed t (by simp)

theorem Tidy.tail (h : Tidy K (t :: ts)) : Tidy K ts where
  trimmed x hx := h.trimmed x (List.mem_cons_of_mem t hx)
  nonempty x hx := h.nonempty x (List.mem_cons_of_mem t hx)
  quiet x hx := h.quiet x (List.mem_cons_of_mem t hx)
  closed x hx := by
    cases ts with
    | nil => simp at hx
    | cons v ts => exact h.closed x (List.mem_cons_of_mem t hx)

theorem Tidy.part_head (h : Tidy K (t :: ts)) : part t = [t] :=
  (h.trimmed t (by simp)).part_eq (h.nonempty t (by simp))

/-- Tidy texts with separators between them are the parts of the text that they make up. -/
theorem Tidy.separatedBy_join (hK : K .text = false) (ha : K .arrow = false) (h : Tidy K ts)
    (hc : separates K c = true) (hu : Blank u) : separatedBy K (join (c :: u) ts) = ts := by
  induction ts with
  | nil => exact separatedBy_nil hK ha
  | cons t ts ih =>
    cases ts with
    | nil => rw [join, separatedBy_quiet hK ha (h.quiet t (by simp)), h.part_head]
    | cons v ts =>
      rw [join, List.append_assoc, List.cons_append,
        separatedBy_append hK ha (h.quiet t (by simp)) h.head_closed hc,
        separatedBy_blank_append hK ha hu, ih h.tail, h.part_head]
      rfl

theorem next_separator (ho : Shallow outer) (hc : separates K c = true) : outer.next c = outer := by
  simp only [separates, Bool.or_eq_true, Bool.and_eq_true, beq_iff_eq] at hc
  rcases hc with (⟨hb, -⟩ | ⟨rfl, -⟩) | ⟨rfl, -⟩
  · exact ho.run_blank (blank_singleton hb)
  all_goals
    rcases ho with rfl | ⟨d, hd, rfl⟩
    · decide
    · cases d <;> decide

theorem run_separator (ho : Shallow outer) (hc : separates K c = true) (hu : Blank u) :
    outer.run (c :: u) = outer := by
  rw [run_cons, next_separator ho hc, ho.run_blank hu]

/-- The parts of a text leave the same open as the text itself, also inside of a group. -/
theorem delimiters_separatedBy (hK : K .text = false) (ha : K .arrow = false)
    (hc : separates K c = true) (hu : Blank u) (ho : Shallow outer) (s : Text) :
    (outer.run (join (c :: u) (separatedBy K s))).delimiters = (outer.run s).delimiters := by
  induction s using part_induction generalizing outer with
  | last t ht =>
    rw [separatedBy_quiet hK ha ht]
    by_cases hb : Blank t
    · rw [part_blank hb, delimiters_run_blank hb]
      rfl
    · obtain ⟨a, b, hba, hbb, he⟩ := exists_trim t
      rw [part, if_neg fun hn => hb (trim_eq_nil_iff.1 hn), join]
      rw [he, run_append, run_append, ho.run_blank hba, delimiters_run_blank hbb, ← he]
  | part t d s ht hr hd ih =>
    have ho' : Shallow (outer.run t) := ho.run hr
    have hrest : outer.run (t ++ d :: s) = (outer.run t).run s := by
      rw [run_append, run_cons, next_separator ho' hd]
    rw [separatedBy_append hK ha ht hr hd, hrest, ← ih ho']
    by_cases hb : Blank t
    · rw [part_blank hb, ho.run_blank hb]
      rfl
    · rw [part, if_neg fun hn => hb (trim_eq_nil_iff.1 hn), List.singleton_append]
      cases separatedBy K s with
      | nil => rw [join, join, ho.run_trim hr, run_nil]
      | cons v vs =>
        rw [join, run_append, run_append, ho.run_trim hr, run_separator ho' hc hu]

theorem exists_of_mem_separatedBy (hK : K .text = false) (ha : K .arrow = false) {x : Text}
    (h : x ∈ separatedBy K s) : ∃ a b, s = a ++ x ++ b ∧ run [] a = [] := by
  induction s using part_induction with
  | last t ht =>
    rw [separatedBy_quiet hK ha ht] at h
    obtain ⟨a, b, hba, -, he⟩ := exists_trim t
    rw [(mem_part h).1]
    exact ⟨a, b, he, run_blank hba⟩
  | part t d s ht hr hd ih =>
    rw [separatedBy_append hK ha ht hr hd, List.mem_append] at h
    rcases h with h | h
    · obtain ⟨a, b, hba, -, he⟩ := exists_trim t
      rw [(mem_part h).1]
      exact ⟨a, b ++ d :: s, by rw [← List.append_assoc, ← he], run_blank hba⟩
    · obtain ⟨a, b, rfl, hra⟩ := ih h
      refine ⟨t ++ d :: a, b, by simp, ?_⟩
      rw [run_append, run_cons, hr, next_separator (Or.inl rfl) hd, hra]

theorem closed_of_mem_separatedBy (hK : K .text = false) (ha : K .arrow = false) {x : Text}
    (hs : run [] s = []) (h : x ∈ separatedBy K s) : run [] x = [] := by
  induction s using part_induction with
  | last t ht =>
    rw [separatedBy_quiet hK ha ht] at h
    rw [(mem_part h).1]
    exact run_trim_eq_nil hs
  | part t d s ht hr hd ih =>
    rw [separatedBy_append hK ha ht hr hd, List.mem_append] at h
    rw [run_append, run_cons, hr, next_separator (Or.inl rfl) hd] at hs
    rcases h with h | h
    · rw [(mem_part h).1]
      exact run_trim_eq_nil hr
    · exact ih hs h

theorem run_join (hc : separates K c = true) (hu : Blank u) (h : ∀ t ∈ ts, run [] t = []) :
    run [] (join (c :: u) ts) = [] := by
  induction ts with
  | nil => rfl
  | cons t ts ih =>
    have ht := h t (by simp)
    have hi := ih fun x hx => h x (List.mem_cons_of_mem t hx)
    cases ts with
    | nil => exact ht
    | cons v ts =>
      rw [join, run_append, run_append, ht, run_separator (Or.inl rfl) hc hu, hi]

theorem Tidy.notMem_run_join {e : Delimiter} (h : Tidy K ts) (hc : separates K c = true)
    (hu : Blank u) : e ∉ (run [] (join (c :: u) ts)).delimiters ↔
      ∀ t ∈ ts, e ∉ (run [] t).delimiters := by
  induction ts with
  | nil => simp [join, delimiters]
  | cons t ts ih =>
    cases ts with
    | nil => simp [join]
    | cons v ts =>
      have ht : run [] t = [] := h.head_closed
      have hr : run [] (join (c :: u) (t :: v :: ts)) = run [] (join (c :: u) (v :: ts)) := by
        rw [join, run_append, run_append, ht, run_separator (Or.inl rfl) hc hu]
      rw [hr, ih h.tail]
      simp [ht, delimiters]

theorem quiet_join {q : Char → Bool} (hc : separates K c = true) (hu : Blank u)
    (hq : ∀ d ∈ c :: u, q d = false) (hclosed : ∀ t ∈ ts.dropLast, run [] t = [])
    (h : ∀ t ∈ ts, Quiet q [] t) : Quiet q [] (join (c :: u) ts) := by
  induction ts with
  | nil => trivial
  | cons t ts ih =>
    have ht := h t (by simp)
    cases ts with
    | nil => exact ht
    | cons v ts =>
      have hr : run [] t = [] := hclosed t (by simp)
      have hi := ih (fun x hx => hclosed x (List.mem_cons_of_mem t hx))
        (fun x hx => h x (List.mem_cons_of_mem t hx))
      rw [join, quiet_append, quiet_append, run_append, hr, run_separator (Or.inl rfl) hc hu]
      exact ⟨⟨ht, quiet_of_forall hq⟩, hi⟩

end Tidy

end Text

end Devalang
