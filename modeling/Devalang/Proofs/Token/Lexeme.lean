import Devalang.Token.Lexeme
import Devalang.Proofs.Token.Shape

/-! The tree of the tokens of a text has the same pieces and leaves the same delimiters open as the text
read group by group. -/
namespace Devalang

namespace Group
variable {d inner : Delimiter} {c e : Char} {s : Text}

def prepend (t : Text) (g : Group) : Group := ⟨t ++ g.text, g.opens, g.rest⟩

theorem nest_of_closed {g h : Group} (hg : g.opens = []) : nest c g h = h.prepend (c :: g.text) := by
  rw [nest, prepend, hg]
  cases h.opens <;> rfl

theorem read_closer (d : Delimiter) (s : Text) : (read d (d.closer :: s)).1 = ⟨[d.closer], [], s⟩ := by
  rw [read.eq_def]
  cases d <;> rfl

theorem read_escape (he : e ≠ '\n') (s : Text) :
    (read .quote ('\\' :: e :: s)).1 = (read .quote s).1.prepend ['\\', e] := by
  rw [read.eq_def]
  simp [he, prepend, cons]

theorem read_opener (hd : d ≠ .quote) (hc : c ≠ d.closer) (hi : Delimiter.ofOpener? c = some inner)
    (s : Text) :
    (read d (c :: s)).1 = nest c (read inner s).1 (read d (read inner s).1.rest).1 := by
  rw [read.eq_def]
  simp only [hd, hc, if_false]
  split
  · rename_i inner' hi'
    rw [hi] at hi'
    cases hi'
    rfl
  · rename_i hn
    rw [hi] at hn
    cases hn

end Group

namespace Rule

theorem match?_word (kind : PieceKind) (transition : Transition) (c x : Char) (s : Text) :
    (word kind transition c []).match? (x :: s) = if c = x then some ([x], s) else none := by
  by_cases h : c = x
  · subst h
    simp [word, Text.after]
  · simp [word, Text.after, h]

theorem first?_openers (c : Char) (s : Text) :
    (openers.findSome? fun r => (r.match? (c :: s)).map fun m => (r, m)) =
      (Delimiter.ofOpener? c).map fun d => (word .text (.enter d) d.opener [], [c], s) := by
  simp only [openers, List.map_cons, List.map_nil, List.findSome?_cons, List.findSome?_nil, match?_word,
    Delimiter.ofOpener?, Delimiter.opener, @eq_comm _ c]
  repeat' split
  all_goals simp_all

end Rule

namespace Lexicon
variable {d : Delimiter} {c : Char} {s m rest : Text} {rule : Rule}

theorem first?_quote (c : Char) (s : Text) : (inside .quote).first? (c :: s) =
    match Rule.escape.match? (c :: s) with
    | some m => some (.escape, m)
    | none => if c = '"' then some (.word .text .leave '"' [], [c], s) else none := by
  simp only [first?, rules, List.findSome?_cons, List.findSome?_nil, Rule.match?_word, @eq_comm _ '"']
  cases Rule.escape.match? (c :: s) with
  | some m => rfl
  | none => by_cases hc : c = '"' <;> simp [hc]

/-- In a group the closing delimiter is tried before the opening ones. -/
theorem first?_group (hd : d ≠ .quote) (c : Char) (s : Text) : (inside d).first? (c :: s) =
    if c = d.closer then some (.word .text .leave d.closer [], [c], s)
    else (Delimiter.ofOpener? c).map fun i => (.word .text (.enter i) i.opener [], [c], s) := by
  have hr : (inside d).rules = .word .text .leave d.closer [] :: Rule.openers := by
    cases d with
    | quote => exact absurd rfl hd
    | _ => rfl
  rw [first?, hr, List.findSome?_cons, Rule.first?_openers, Rule.match?_word]
  by_cases hc : c = d.closer
  · simp [hc]
  · simp [hc, Ne.symm hc]

/-- What can match inside of a string or group: its closing delimiter, in a string an escape, and in a
group the start of another one. -/
theorem first?_inside (h : (inside d).first? (c :: s) = some (rule, m, rest)) :
    match rule.transition with
    | .leave => c = d.closer ∧ m = [c] ∧ rest = s
    | .stay => d = .quote ∧ ∃ e, e ≠ '\n' ∧ m = ['\\', e] ∧ c :: s = '\\' :: e :: rest
    | .enter i => d ≠ .quote ∧ c ≠ d.closer ∧ Delimiter.ofOpener? c = some i ∧ m = [c] ∧ rest = s := by
  by_cases hd : d = .quote
  · subst hd
    rw [first?_quote] at h
    split at h
    · rename_i x hx
      cases h
      refine ⟨rfl, ?_⟩
      simp only [Rule.escape] at hx
      split at hx
      · rename_i e t he
        split at hx
        · cases hx
        · rename_i hn
          cases hx
          exact ⟨e, hn, rfl, he⟩
      · cases hx
    · obtain ⟨hc, h⟩ := Option.ite_none_right_eq_some.1 h
      cases h
      exact ⟨hc, rfl, rfl⟩
  · rw [first?_group hd] at h
    split at h
    · rename_i hc
      cases h
      exact ⟨hc, rfl, rfl⟩
    · rename_i hc
      obtain ⟨i, hi, he⟩ := Option.map_eq_some_iff.1 h
      cases he
      exact ⟨hd, hc, hi, rfl, rfl⟩

theorem read_plain (h : (inside d).first? (c :: s) = none) :
    c ≠ d.closer ∧ (Group.read d (c :: s)).1 = (Group.read d s).1.cons c := by
  by_cases hd : d = .quote
  · subst hd
    rw [first?_quote] at h
    split at h
    · cases h
    · rename_i hx
      have hc : c ≠ '"' := by
        rintro rfl
        simp at h
      refine ⟨hc, ?_⟩
      rw [Group.read.eq_def]
      simp only [hc, if_true, if_false]
      cases s with
      | nil => simp [Group.read, Group.cons]
      | cons e t =>
        have he : ¬(c = '\\' ∧ e ≠ '\n') := by
          rintro ⟨rfl, he⟩
          simp [Rule.escape, he] at hx
        simp only [he, if_false]
  · rw [first?_group hd] at h
    split at h
    · cases h
    · rename_i hc
      refine ⟨hc, ?_⟩
      have hi := Option.map_eq_none_iff.1 h
      rw [Group.read.eq_def]
      simp only [hd, hc, if_false]
      split
      · rename_i inner hi'
        rw [hi] at hi'
        cases hi'
      · rfl

theorem read_stretch (d : Delimiter) (s : Text) : (Group.read d s).1 =
    (Group.read d ((inside d).stretch s).2).1.prepend ((inside d).stretch s).1 := by
  induction s with
  | nil => rfl
  | cons c s ih =>
    by_cases h : ((inside d).first? (c :: s)).isSome = true
    · have hs : (inside d).stretch (c :: s) = ([], c :: s) := if_pos h
      rw [hs]
      rfl
    · have hs : (inside d).stretch (c :: s) = (c :: ((inside d).stretch s).1, ((inside d).stretch s).2) :=
        if_neg h
      rw [hs, (read_plain (by simpa using h)).2, ih]
      rfl

end Lexicon

namespace Lexeme
variable {d inner : Delimiter} {c : Char} {s t : Text} {kind : PieceKind} {items ls : List Lexeme}
  {g h : Group}

/-- The tokens are those of a string or group whose opening delimiter `d` has been read. -/
structure Reads (d : Delimiter) (items : List Lexeme) (g : Group) : Prop where
  text : textAll items = g.text
  closed : g.opens = [] → items.getLast?.any (closes d) = true
  opened : g.opens ≠ [] → items.getLast?.any (closes d) = false ∧ g.opens = d :: lastOpens [] items

theorem Reads.nil (d : Delimiter) : Reads d [] ⟨[], [d], []⟩ := ⟨rfl, by simp, fun _ => ⟨rfl, rfl⟩⟩

theorem Reads.closer (d : Delimiter) (kind : PieceKind) (s : Text) :
    Reads d [.token kind [d.closer]] ⟨[d.closer], [], s⟩ :=
  ⟨rfl, fun _ => by simp [closes], by simp⟩

theorem closes_getLast?_cons {l : Lexeme} (hl : closes d l = false) :
    (l :: items).getLast?.any (closes d) = items.getLast?.any (closes d) := by
  rw [List.getLast?_cons]
  cases items.getLast? with
  | none => simpa using hl
  | some m => rfl

theorem Reads.token (hr : Reads d items g) (kind : PieceKind) (ht : t ≠ [d.closer]) :
    Reads d (.token kind t :: items) (g.prepend t) := by
  have hlast := @closes_getLast?_cons d items (.token kind t) (by simp [closes, ht])
  refine ⟨?_, fun ho => ?_, fun ho => ?_⟩
  · rw [textAll, hr.text]
    rfl
  · rw [hlast]
    exact hr.closed ho
  · rw [hlast]
    exact hr.opened ho

theorem Reads.isClosed (hr : Reads d items g) (kind : PieceKind) :
    isClosed d (.token kind [d.opener] :: items) = g.opens.isEmpty := by
  cases items with
  | nil =>
    have ho : g.opens ≠ [] := by
      intro ho
      have hc := hr.closed ho
      cases hc
    have hempty : g.opens.isEmpty = false := by simpa using ho
    rw [hempty]
    cases d <;> rfl
  | cons l ls =>
    have hlast : (Lexeme.token kind [d.opener] :: l :: ls).getLast? = (l :: ls).getLast? := by
      rw [List.getLast?_cons_cons]
    have hlen : (d != .quote || decide (1 < (Lexeme.token kind [d.opener] :: l :: ls).length)) = true := by
      simp
    rw [Lexeme.isClosed, hlast, hlen, Bool.and_true]
    by_cases ho : g.opens = []
    · rw [hr.closed ho, ho]
      rfl
    · rw [(hr.opened ho).1]
      simpa using ho

theorem Reads.opens (hr : Reads d items g) (kind : PieceKind) :
    opens (.group d (.token kind [d.opener] :: items)) = g.opens := by
  rw [Lexeme.opens, hr.isClosed kind]
  by_cases ho : g.opens = []
  · simp [ho]
  · have hne : ¬ g.opens.isEmpty = true := by simpa using ho
    rw [if_neg hne, (hr.opened ho).2]
    rfl

theorem Reads.group (hg : Reads inner ls g) (hr : Reads d items h) (kind : PieceKind)
    (hrest : g.opens = [] ∨ h = ⟨[], [d], []⟩ ∧ items = []) :
    Reads d (.group inner (.token kind [inner.opener] :: ls) :: items) (Group.nest inner.opener g h) := by
  have hlast := @closes_getLast?_cons d items (.group inner (.token kind [inner.opener] :: ls)) rfl
  have hopens : lastOpens [] (.group inner (.token kind [inner.opener] :: ls) :: items) =
      lastOpens g.opens items := by
    rw [lastOpens, hg.opens kind]
    rfl
  have hnest : (Group.nest inner.opener g h).opens = [] ↔ h.opens = [] := by
    rw [Group.nest]
    cases h.opens <;> simp
  refine ⟨?_, fun ho => ?_, fun ho => ?_⟩
  · rw [textAll, Lexeme.text, textAll, Lexeme.text, hg.text, hr.text]
    rfl
  · rw [hlast]
    exact hr.closed (hnest.1 ho)
  · obtain ⟨hl, hh⟩ := hr.opened fun hn => ho (hnest.2 hn)
    refine ⟨by rw [hlast, hl], ?_⟩
    rw [hopens, Group.nest, hh]
    rcases hrest with hg | ⟨rfl, rfl⟩
    · simp [hg]
    · simp [lastOpens]

end Lexeme

/-- The tokens of a string or group are those of its text, to its end. -/
theorem Lexicon.reads_inside (d : Delimiter) (s : Text) :
    Lexeme.Reads d ((inside d).read s).1.1 (Group.read d s).1 ∧
      ((inside d).read s).1.2 = (Group.read d s).1.rest := by
  generalize hl : inside d = l
  fun_induction Lexicon.read l s generalizing d with
  | case1 =>
    rw [Group.read]
    exact ⟨.nil d, rfl⟩
  | case2 l c s hnone items rest hr hread ih =>
    subst hl
    obtain ⟨hc, hplain⟩ := read_plain hnone
    obtain ⟨hi, hrest⟩ := ih d rfl
    rw [hread] at hi hrest
    have hg : (Group.read d (c :: s)).1 = (Group.read d ((inside d).stretch s).2).1.prepend
        (c :: ((inside d).stretch s).1) := by
      rw [hplain, read_stretch d s]
      rfl
    rw [hg]
    exact ⟨hi.token .text (by simp [hc]), hrest⟩
  | case3 l c s rule m rest hm hlt hstay items rest' hr hread ih =>
    subst hl
    obtain ⟨hi, hrest⟩ := ih d rfl
    rw [hread] at hi hrest
    have hfirst := first?_inside hm
    rw [hstay] at hfirst
    obtain ⟨rfl, e, he, rfl, hs⟩ := hfirst
    have hg := Group.read_escape he rest
    rw [← hs] at hg
    rw [hg]
    exact ⟨hi.token rule.kind (by simp), hrest⟩
  | case4 l c s rule m rest hm hlt hleave =>
    subst hl
    have hfirst := first?_inside hm
    rw [hleave] at hfirst
    obtain ⟨rfl, rfl, rfl⟩ := hfirst
    rw [Group.read_closer]
    exact ⟨.closer d rule.kind rest, rfl⟩
  | case5 l c s rule m rest hm hlt i henter inner rest₁ hr₁ hread₁ items rest₂ hr₂ hread₂ ih₁ ih₂ =>
    subst hl
    obtain ⟨hinner, hrest₁⟩ := ih₁ i rfl
    obtain ⟨hi, hrest₂⟩ := ih₂ d rfl
    rw [hread₁] at hinner hrest₁
    rw [hread₂] at hi hrest₂
    have hfirst := first?_inside hm
    rw [henter] at hfirst
    obtain ⟨hd, hc, ho, rfl, rfl⟩ := hfirst
    obtain rfl := Delimiter.opener_of_ofOpener? ho
    obtain rfl : rest₁ = (Group.read i rest).1.rest := hrest₁
    rw [Group.read_opener hd hc ho]
    refine ⟨hinner.group hi rule.kind ?_, hrest₂⟩
    by_cases hopens : (Group.read i rest).1.opens = []
    · exact Or.inl hopens
    · have hnil := (Group.leads_read i rest []).rest hopens
      have hitems : ((inside d).read (Group.read i rest).1.rest).1.1 = items := by rw [hread₂]
      rw [hnil, Lexicon.read] at hitems
      refine Or.inr ⟨?_, hitems.symm⟩
      rw [hnil, Group.read]

namespace Lexicon
variable {l : Lexicon} {c : Char} {s m rest : Text} {rule : Rule} {d : Delimiter}

theorem first?_root (c : Char) (s : Text) : root.first? (c :: s) =
    if Text.isBlank c then
      some (.blanks, c :: s.takeWhile Text.isBlank, s.dropWhile Text.isBlank)
    else if c = ',' then some (.word .comma .stay ',' [], [c], s)
    else match Text.after ['-', '>'] (c :: s) with
      | some r => some (.word .arrow .stay '-' ['>'], ['-', '>'], r)
      | none =>
        if c = ':' then some (.word .colon .stay ':' [], [c], s)
        else (Delimiter.ofOpener? c).map fun d => (.word .text (.enter d) d.opener [], [c], s) := by
  have hb : Rule.blanks.match? (c :: s) = if Text.isBlank c then
      some (c :: s.takeWhile Text.isBlank, s.dropWhile Text.isBlank) else none := by
    by_cases hc : Text.isBlank c = true <;> simp [Rule.blanks, Text.run?, hc]
  have ha : (Rule.word .arrow .stay '-' ['>']).match? (c :: s) =
      (Text.after ['-', '>'] (c :: s)).map fun r => (['-', '>'], r) := rfl
  simp only [first?, rules, List.cons_append, List.nil_append, List.findSome?_cons, Rule.first?_openers,
    hb, ha, Rule.match?_word, @eq_comm _ ',', @eq_comm _ ':']
  by_cases hblank : Text.isBlank c = true
  · simp [hblank]
  · by_cases hcomma : c = ','
    · simp [hblank, eq_true hcomma]
    · by_cases hcolon : c = ':'
      · cases Text.after ['-', '>'] (c :: s) <;> simp [hblank, hcomma, eq_true hcolon]
      · cases Text.after ['-', '>'] (c :: s) <;> simp [hblank, hcomma, hcolon]

theorem after_arrow_eq_none_iff : Text.after ['-', '>'] (c :: s) = none ↔
    ¬ (c = '-' ∧ s.head? = some '>') := by
  by_cases hc : c = '-'
  · subst hc
    cases s with
    | nil => simp [Text.after]
    | cons e t => simp [Text.after, @eq_comm _ e]
  · simp [Text.after, hc, Ne.symm hc]

theorem after_arrow_of_ne (hne : ∀ u, c = '-' → s = '>' :: u → False) :
    Text.after ['-', '>'] (c :: s) = none := by
  rw [after_arrow_eq_none_iff]
  rintro ⟨rfl, hh⟩
  obtain ⟨u, rfl⟩ := List.head?_eq_some_iff.1 hh
  exact hne u rfl rfl

theorem first?_root_eq_none_iff : root.first? (c :: s) = none ↔ stopsText (c :: s) = false := by
  rw [stopsText_iff, ← after_arrow_eq_none_iff, first?_root]
  by_cases hblank : Text.isBlank c = true
  · simp [hblank]
  · by_cases hcomma : c = ','
    · simp [hblank, eq_true hcomma]
    · cases Text.after ['-', '>'] (c :: s) with
      | some r => simp [hblank, hcomma]
      | none =>
        by_cases hcolon : c = ':'
        · simp [hblank, hcomma, eq_true hcolon]
        · simp [hblank, hcomma, hcolon]

theorem stretch_root (s : Text) : root.stretch s = plainText s := by
  induction s with
  | nil => rfl
  | cons c s ih =>
    have hiff : (root.first? (c :: s)).isSome = stopsText (c :: s) := by
      rw [Bool.eq_iff_iff, ← not_iff_not, Bool.not_eq_true, Bool.not_eq_true, Option.isSome_eq_false_iff,
        Option.isNone_iff_eq_none, first?_root_eq_none_iff]
    rw [stretch, plainText, hiff, ih]

theorem read_of_none (h : l.first? (c :: s) = none) : (l.read (c :: s)).1 =
    (.token .text (c :: (l.stretch s).1) :: (l.read (l.stretch s).2).1.1, (l.read (l.stretch s).2).1.2) := by
  rw [read]
  split
  · rfl
  · rename_i hm
    rw [h] at hm
    cases hm

theorem read_of_stay (h : l.first? (c :: s) = some (rule, m, rest)) (ht : rule.transition = .stay) :
    (l.read (c :: s)).1 = (.token rule.kind m :: (l.read rest).1.1, (l.read rest).1.2) := by
  rw [read]
  split
  · rename_i hn
    rw [h] at hn
    cases hn
  · rename_i hm
    rw [h] at hm
    cases hm
    simp only [ht]

theorem read_of_leave (h : l.first? (c :: s) = some (rule, m, rest))
    (ht : rule.transition = .leave) : (l.read (c :: s)).1 = ([.token rule.kind m], rest) := by
  rw [read]
  split
  · rename_i hn
    rw [h] at hn
    cases hn
  · rename_i hm
    rw [h] at hm
    cases hm
    simp only [ht]

theorem read_of_enter {i : Delimiter} (h : l.first? (c :: s) = some (rule, m, rest))
    (ht : rule.transition = .enter i) : (l.read (c :: s)).1 =
      (.group i (.token rule.kind m :: ((inside i).read rest).1.1) ::
        (l.read ((inside i).read rest).1.2).1.1, (l.read ((inside i).read rest).1.2).1.2) := by
  rw [read]
  split
  · rename_i hn
    rw [h] at hn
    cases hn
  · rename_i hm
    rw [h] at hm
    cases hm
    simp only [ht]

end Lexicon

namespace Tokens
open Lexicon

theorem ofLexemes_token (kind : PieceKind) (t : Text) (items : List Lexeme) :
    ofLexemes (.token kind t :: items) = (ofLexemes items).cons ⟨kind, t⟩ := by
  rw [ofLexemes, Lexeme.lastOpens]
  rfl

theorem ofLexemes_group {d : Delimiter} {items : List Lexeme} {g : Group} (h : Lexeme.Reads d items g)
    (kind : PieceKind) (ls : List Lexeme) :
    ofLexemes (.group d (.token kind [d.opener] :: items) :: ls) =
      ⟨⟨.text, d.opener :: g.text⟩ :: (ofLexemes ls).pieces, Lexeme.lastOpens g.opens ls⟩ := by
  have htext : Lexeme.text (.group d (.token kind [d.opener] :: items)) = d.opener :: g.text := by
    rw [Lexeme.text, Lexeme.textAll, h.text]
    rfl
  have hopens : Lexeme.lastOpens [] (.group d (.token kind [d.opener] :: items) :: ls) =
      Lexeme.lastOpens g.opens ls := by
    rw [Lexeme.lastOpens, h.opens kind]
    rfl
  rw [ofLexemes, hopens, List.map_cons, Lexeme.piece, htext]
  rfl

/-- The tree of the tokens of a text has the pieces of the text and leaves the same delimiters open. -/
theorem ofLexemes_lexemes (s : Text) : ofLexemes s.lexemes = ofText s := by
  rw [Text.lexemes]
  fun_induction ofText s with
  | case1 =>
    rw [Lexicon.read]
    rfl
  | case2 s ih =>
    have hm : root.first? ('-' :: '>' :: s) =
        some (.word .arrow .stay '-' ['>'], ['-', '>'], s) := by
      rw [first?_root]
      simp [show Text.isBlank '-' = false by decide, Text.after]
    rw [read_of_stay hm rfl, ofLexemes_token, ih]
    rfl
  | case3 c s _ hb ih =>
    have hm := first?_root c s
    rw [if_pos hb] at hm
    rw [read_of_stay hm rfl, ofLexemes_token, ih]
    rfl
  | case4 s _ hb ih =>
    have hm := first?_root ',' s
    rw [if_neg hb, if_pos rfl] at hm
    rw [read_of_stay hm rfl, ofLexemes_token, ih]
    rfl
  | case5 s _ hb _ ih =>
    have hm := first?_root ':' s
    rw [if_neg hb, if_neg (by decide)] at hm
    rw [read_of_stay hm rfl, ofLexemes_token, ih]
    rfl
  | case6 c s hne hb hcomma hcolon d ho g hg hr t ih =>
    have hm := first?_root c s
    rw [if_neg hb, if_neg hcomma, after_arrow_of_ne hne, if_neg hcolon, ho] at hm
    obtain ⟨hinner, hrest⟩ := reads_inside d s
    rw [hr] at hinner hrest
    obtain rfl := Delimiter.opener_of_ofOpener? ho
    rw [read_of_enter hm rfl, hrest, ofLexemes_group hinner]
    have hopens : Lexeme.lastOpens g.opens (root.read g.rest).1.1 = g.opens ++ t.opens := by
      by_cases hg : g.opens = []
      · rw [hg]
        exact congrArg Tokens.opens ih
      · have hl := (Group.leads_read d s []).rest
        rw [hr] at hl
        have hnil : g.rest = [] := hl hg
        have hrest' : (ofText g.rest).opens = [] := by rw [hnil, ofText]
        have hitems : (root.read g.rest).1.1 = [] := by rw [hnil, Lexicon.read]
        rw [hitems, hrest', List.append_nil, Lexeme.lastOpens]
    rw [hopens, ih]
  | case7 c s hne hb hcomma hcolon ho ih =>
    have hm := first?_root c s
    rw [if_neg hb, if_neg hcomma, after_arrow_of_ne hne, if_neg hcolon, ho] at hm
    rw [read_of_none hm, stretch_root, ofLexemes_token, ih]

end Tokens

end Devalang
