import Devalang.Token.Scan
import Devalang.Proofs.Token.Lexeme

/-! The scanner, which knows a text only character by character, finds the pieces of the text and its
open delimiters. -/
namespace Devalang

namespace Scan
variable {st : Scan} {ps : List Piece} {s t u : Text} {c e : Char} {d inner : Delimiter}
  {outer : List Delimiter}

theorem run_one (h : ∀ e u, s = e :: u → st.pairs c e = false) : st.run (c :: s) = (st.one c).run s := by
  cases s with
  | nil => rfl
  | cons e u => rw [run, if_neg (by simp [h e u rfl])]

theorem run_two (h : st.pairs c e = true) : st.run (c :: e :: s) = (st.two c e).run s := by
  rw [run, if_pos h]

/-! Inside of a string or group. -/

/-- The state inside of the open delimiters `ds`, which stand in a piece that starts with `t`. -/
def within (ps : List Piece) (t : Text) (ds : List Delimiter) : Scan := ⟨ps, some ⟨.text, t⟩, ds⟩

/-- The state behind the closing delimiter of a string or group in the delimiters `outer`. -/
def behind (ps : List Piece) (t : Text) (outer : List Delimiter) : Scan :=
  if outer = [] then ⟨ps ++ [⟨.text, t⟩], none, []⟩ else within ps t outer

theorem run_within_nil : (within ps t outer).run [] = ⟨ps ++ [⟨.text, t⟩], none, outer⟩ := rfl

theorem one_closer (ps : List Piece) (t : Text) (d : Delimiter) (outer : List Delimiter) :
    (within ps t (d :: outer)).one d.closer = behind ps (t ++ [d.closer]) outer := by
  cases outer <;> simp [within, behind, one, pop, extend, finish]

theorem one_text (hc : c ≠ d.closer) (ho : d = .quote ∨ Delimiter.ofOpener? c = none) :
    (within ps t (d :: outer)).one c = within ps (t ++ [c]) (d :: outer) := by
  rcases ho with rfl | ho
  · simp [within, one, hc, extend]
  · cases d <;> simp [within, one, hc, ho, extend]

theorem one_opener (hd : d ≠ .quote) (hc : c ≠ d.closer) (hi : Delimiter.ofOpener? c = some inner) :
    (within ps t (d :: outer)).one c = within ps (t ++ [c]) (inner :: d :: outer) := by
  obtain rfl := Delimiter.opener_of_ofOpener? hi
  cases d with
  | quote => exact absurd rfl hd
  | _ => simp [within, one, hc, hi, push, extend]

/-- The state `st` is reached from the delimiters `outer` when the string or group `g` has been passed, up
to the end of the text: behind its closing delimiter, or inside of it if it leaves something open. -/
structure Passes (st : Scan) (ps : List Piece) (t : Text) (outer : List Delimiter) (g : Group) : Prop where
  closed : g.opens = [] → st = (behind ps (t ++ g.text) outer).run g.rest
  opened : g.opens ≠ [] → st = ⟨ps ++ [⟨.text, t ++ g.text⟩], none, g.opens.reverse ++ outer⟩

theorem Passes.prepend {g : Group} (h : Passes st ps (t ++ u) outer g) : Passes st ps t outer (g.prepend u) := by
  refine ⟨fun ho => ?_, fun ho => ?_⟩
  · rw [h.closed ho, List.append_assoc]
    rfl
  · rw [h.opened ho, List.append_assoc]
    rfl

theorem Passes.nest {g h : Group} (hg : Passes st ps (t ++ [c]) (d :: outer) g)
    (hrest : g.opens ≠ [] → h = ⟨[], [d], []⟩)
    (hh : Passes ((within ps (t ++ [c] ++ g.text) (d :: outer)).run g.rest) ps (t ++ [c] ++ g.text) outer h) :
    Passes st ps t outer (Group.nest c g h) := by
  by_cases hopens : g.opens = []
  · have hbehind : behind ps (t ++ [c] ++ g.text) (d :: outer) =
        within ps (t ++ [c] ++ g.text) (d :: outer) := if_neg (by simp)
    rw [← hbehind, ← hg.closed hopens, List.append_assoc] at hh
    rw [Group.nest_of_closed hopens]
    exact hh.prepend
  · rw [hg.opened hopens, hrest hopens]
    exact ⟨by simp [Group.nest], by simp [Group.nest]⟩

/-- What the scanner reads after an opening delimiter is the string or group. -/
theorem passes_read (d : Delimiter) (s : Text) (ps : List Piece) (t : Text) (outer : List Delimiter) :
    Passes ((within ps t (d :: outer)).run s) ps t outer (Group.read d s).1 := by
  fun_induction Group.read d s generalizing t outer with
  | case1 d => exact ⟨by simp, fun _ => by simp [run_within_nil]⟩
  | case2 s =>
    rw [run_one (fun e u _ => by simp [within, pairs])]
    exact ⟨fun _ => congrArg (·.run s) (one_closer ps t .quote outer), by simp⟩
  | case3 c hc =>
    rw [run_one (fun e u he => by cases he), one_text (d := .quote) hc (Or.inl rfl), run_within_nil]
    exact ⟨by simp, by simp⟩
  | case4 c hc e u hp g hg hr ih =>
    have hpair : (within ps t (.quote :: outer)).pairs c e = true := by simp [within, pairs, hp]
    have htwo : (within ps t (.quote :: outer)).two c e = within ps (t ++ [c, e]) (.quote :: outer) := by
      simp [within, two, extend]
    have hi := ih (t ++ [c, e]) outer
    rw [hr] at hi
    rw [run_two hpair, htwo]
    exact hi.prepend
  | case5 c hc e u hp g hg hr ih =>
    have hpair : (within ps t (.quote :: outer)).pairs c e = false := by
      by_cases hb : c = '\\'
      · have he : e = '\n' := by simpa [hb] using hp
        simp [within, pairs, he]
      · simp [within, pairs, hb]
    have hi := ih (t ++ [c]) outer
    rw [hr] at hi
    rw [run_one (fun _ _ he => (List.cons.inj he).1 ▸ hpair), one_text (d := .quote) hc (Or.inl rfl)]
    exact hi.prepend
  | case6 d s hd =>
    rw [run_one (fun e u _ => by simp [within, pairs, hd]), one_closer]
    exact ⟨fun _ => rfl, by simp⟩
  | case7 d c s hd hc inner ho g hg hr h hh hr' ihg ihh =>
    have hi := ihg (t ++ [c]) (d :: outer)
    rw [hr] at hi
    rw [run_one (fun e u _ => by simp [within, pairs, hd]), one_opener hd hc ho]
    refine hi.nest (fun hopens => ?_) ?_
    · -- the text ends in the inner group
      have hl := (Group.leads_read inner s []).rest
      rw [hr] at hl
      have hh : h = (Group.read d g.rest).1 := by rw [hr']
      rw [hh, hl hopens, Group.read]
    · have hj := ihh (t ++ [c] ++ g.text) outer
      rw [hr'] at hj
      exact hj
  | case8 d c s hd hc ho g hg hr ih =>
    have hi := ih (t ++ [c]) outer
    rw [hr] at hi
    rw [run_one (fun e u _ => by simp [within, pairs, hd]), one_text hc (Or.inr ho)]
    exact hi.prepend

/-! Outside of strings and groups. -/

def between (ps : List Piece) : Scan := ⟨ps, none, []⟩

def runKind? (c : Char) : Option PieceKind :=
  if Text.isBlank c then some .space
  else if c = ',' ∨ c = ':' ∨ (Delimiter.ofOpener? c).isSome then none
  else some .text

theorem runKind?_eq_text (h : runKind? c = some .text) :
    Text.isBlank c = false ∧ c ≠ ',' ∧ c ≠ ':' ∧ Delimiter.ofOpener? c = none := by
  rw [runKind?] at h
  split at h
  · cases h
  · split at h
    · cases h
    · simp_all

theorem one_finish {p : Piece} (h : runKind? c ≠ some p.kind) :
    Scan.one ⟨ps, some p, []⟩ c = (between (ps ++ [p])).one c := by
  simp only [one, between]
  by_cases hb : Text.isBlank c = true
  · have hk : p.kind ≠ .space := fun hk => h (by simp [runKind?, hb, hk])
    simp [hb, extend, hk, finish]
  · by_cases hcomma : c = ','
    · simp [hb, eq_true hcomma, single, finish]
    · by_cases hcolon : c = ':'
      · simp [hb, hcomma, eq_true hcolon, single, finish]
      · cases ho : Delimiter.ofOpener? c with
        | some d => simp [hb, hcomma, hcolon, push, extend, finish]
        | none =>
          have hk : p.kind ≠ .text := fun hk => h (by simp [runKind?, hb, hcomma, hcolon, ho, hk])
          simp [hb, hcomma, hcolon, extend, hk, finish]

theorem run_finish {p : Piece} (h : ∀ c u, s = c :: u → c = '-' ∧ u.head? = some '>' ∨
    runKind? c ≠ some p.kind) : Scan.run ⟨ps, some p, []⟩ s = (between (ps ++ [p])).run s := by
  cases s with
  | nil => simp [run, finish, between]
  | cons c u =>
    by_cases ha : c = '-' ∧ u.head? = some '>'
    · obtain ⟨rfl, hu⟩ := ha
      obtain ⟨v, rfl⟩ := List.head?_eq_some_iff.1 hu
      rw [run_two (by simp [pairs]), run_two (by simp [pairs, between])]
      simp [two, single, finish, between]
    · have hpair : ∀ e v, u = e :: v → (c == '-' && e == '>') = false := by
        rintro e v rfl
        simpa using ha
      rw [run_one hpair, run_one hpair, one_finish ((h c u rfl).resolve_left ha)]

theorem run_blanks (ps : List Piece) (t s : Text) : Scan.run ⟨ps, some ⟨.space, t⟩, []⟩ s =
    (between (ps ++ [⟨.space, t ++ s.takeWhile Text.isBlank⟩])).run (s.dropWhile Text.isBlank) := by
  induction s generalizing t with
  | nil =>
    rw [run_finish (by simp)]
    simp
  | cons c s ih =>
    by_cases hb : Text.isBlank c = true
    · have hc : c ≠ '-' := by
        rintro rfl
        exact absurd hb (by decide)
      have hone : Scan.one ⟨ps, some ⟨.space, t⟩, []⟩ c = ⟨ps, some ⟨.space, t ++ [c]⟩, []⟩ := by
        simp [one, hb, extend]
      rw [run_one (fun e u _ => by simp [pairs, hc]), hone, ih]
      simp [hb]
    · rw [run_finish]
      · simp [hb]
      · rintro d u he
        cases he
        refine Or.inr ?_
        rw [runKind?, if_neg hb]
        split <;> simp

theorem run_plainText (ps : List Piece) (t s : Text) : Scan.run ⟨ps, some ⟨.text, t⟩, []⟩ s =
    (between (ps ++ [⟨.text, t ++ (plainText s).1⟩])).run (plainText s).2 := by
  induction s generalizing t with
  | nil =>
    rw [run_finish (by simp)]
    simp [plainText]
  | cons c s ih =>
    by_cases hs : stopsText (c :: s) = true
    · rw [run_finish]
      · simp [plainText, hs]
      · rintro d u he
        cases he
        by_cases ha : c = '-' ∧ s.head? = some '>'
        · exact Or.inl ha
        · refine Or.inr fun hk => ?_
          rw [stopsText_iff.2 ⟨ha, runKind?_eq_text hk⟩] at hs
          cases hs
    · obtain ⟨ha, hb, hcomma, hcolon, ho⟩ := stopsText_iff.1 (by simpa using hs)
      have hpair : ∀ e v, s = e :: v → (c == '-' && e == '>') = false := by
        rintro e v rfl
        simpa using ha
      have hone : Scan.one ⟨ps, some ⟨.text, t⟩, []⟩ c = ⟨ps, some ⟨.text, t ++ [c]⟩, []⟩ := by
        simp [one, hb, hcomma, hcolon, ho, extend]
      rw [run_one hpair, hone, ih]
      simp [plainText, hs]

theorem pairs_between (hne : ∀ u, c = '-' → s = '>' :: u → False) :
    ∀ e u, s = e :: u → (between ps).pairs c e = false := by
  rintro e u rfl
  simpa [between, pairs] using hne u

/-- After finished pieces the scanner finds the pieces of what is left. -/
theorem run_between (ps : List Piece) (s : Text) : (between ps).run s =
    ⟨ps ++ (Tokens.ofText s).pieces, none, (Tokens.ofText s).opens.reverse⟩ := by
  fun_induction Tokens.ofText s generalizing ps with
  | case1 => simp [run, between, finish]
  | case2 s ih =>
    have htwo : (between ps).two '-' '>' = between (ps ++ [⟨.arrow, ['-', '>']⟩]) := by
      simp [between, two, single, finish]
    rw [run_two (by simp [pairs, between]), htwo, ih]
    simp [Tokens.cons]
  | case3 c s hne hb ih =>
    have hone : (between ps).one c = ⟨ps, some ⟨.space, [c]⟩, []⟩ := by simp [between, one, hb, extend]
    rw [run_one (pairs_between hne), hone, run_blanks, ih]
    simp [Tokens.cons]
  | case4 s hne hb ih =>
    have hone : (between ps).one ',' = between (ps ++ [⟨.comma, [',']⟩]) := by
      simp [between, one, hb, single, finish]
    rw [run_one (fun e v _ => by simp [between, pairs]), hone, ih]
    simp [Tokens.cons]
  | case5 s hne hb _ ih =>
    have hone : (between ps).one ':' = between (ps ++ [⟨.colon, [':']⟩]) := by
      simp [between, one, hb, single, finish]
    rw [run_one (fun e v _ => by simp [between, pairs]), hone, ih]
    simp [Tokens.cons]
  | case6 c s hne hb hcomma hcolon d ho g hg hr t ih =>
    have hone : (between ps).one c = within ps [c] [d] := by
      obtain rfl := Delimiter.opener_of_ofOpener? ho
      simp [between, one, hb, hcomma, hcolon, ho, push, extend, finish, within]
    have hp := passes_read d s ps [c] []
    rw [hr] at hp
    rw [run_one (pairs_between hne), hone]
    by_cases hopens : g.opens = []
    · have hbehind : behind ps ([c] ++ g.text) [] = between (ps ++ [⟨.text, c :: g.text⟩]) := rfl
      rw [hp.closed hopens, hbehind, ih]
      simp [hopens, t]
    · have hl := (Group.leads_read d s []).rest
      rw [hr] at hl
      have hrest : g.rest = [] := hl hopens
      have ht : t = ⟨[], []⟩ := by
        simp only [t, hrest]
        rw [Tokens.ofText]
      rw [hp.opened hopens, ht]
      simp
  | case7 c s hne hb hcomma hcolon ho ih =>
    have hone : (between ps).one c = ⟨ps, some ⟨.text, [c]⟩, []⟩ := by
      simp [between, one, hb, hcomma, hcolon, ho, extend]
    rw [run_one (pairs_between hne), hone, run_plainText, ih]
    simp [Tokens.cons]

end Scan

namespace Tokens

theorem text_ne_nil {s : Text} {p : Piece} (h : p ∈ (ofText s).pieces) : p.text ≠ [] := by
  fun_induction ofText s
  case case1 => cases h
  all_goals
    rename_i ih
    rcases List.mem_cons.1 h with rfl | h
    · simp
    · exact ih h

/-- The pieces of a text are what is found in it in one pass, with the open delimiters on a stack. They
are not empty, and put together they are the text. They also follow from the tree of its tokens. -/
theorem ofText_eq_scan (s : Text) :
    [] ∉ (ofText s).pieces.map Piece.text ∧ (ofText s).pieces.flatMap Piece.text = s ∧
      ofText s = scan s ∧ ofLexemes s.lexemes = scan s := by
  have hs : ofText s = scan s := by
    rw [scan, show Scan.start = Scan.between [] from rfl, Scan.run_between]
    simp
  refine ⟨fun hm => ?_, flatMap_text_ofText s, hs, (ofLexemes_lexemes s).trans hs⟩
  obtain ⟨p, hp, ht⟩ := List.mem_map.1 hm
  exact text_ne_nil hp ht

end Tokens

end Devalang
