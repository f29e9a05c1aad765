import Devalang.Proofs.Token.Lexeme

/-! What is expected of an engine that follows the rules of the contexts: the leftmost match counts, of the
rules that match there the first one, and the text in front of it is one token. These expectations leave one
result, which is the one that is read. -/
namespace Devalang

namespace Lexicon

/-- The rule is the first one of the context that matches at the start of the text `s`. -/
def Selects (l : Lexicon) (s : Text) (rule : Rule) (m rest : Text) : Prop :=
  ∃ before after, l.rules = before ++ rule :: after ∧ (∀ r ∈ before, r.match? s = none) ∧
    rule.match? s = some (m, rest)

/-- No rule matches before the end of `g`, and one matches there if there is more text. -/
structure Gap (l : Lexicon) (g s : Text) : Prop where
  none : ∀ u v, g = u ++ v → v ≠ [] → ∀ rule ∈ l.rules, rule.match? (v ++ s) = none
  next : s ≠ [] → ∃ rule m rest, l.Selects s rule m rest

/-- An engine reads the text as the items up to the end of the context, and leaves the rest. -/
inductive Lexes : Lexicon → Text → List Lexeme → Text → Prop where
  | done {l : Lexicon} : Lexes l [] [] []
  | gap {l : Lexicon} {g s rest : Text} {items : List Lexeme} : g ≠ [] → l.Gap g s →
      Lexes l s items rest → Lexes l (g ++ s) (.token .text g :: items) rest
  | stay {l : Lexicon} {s m t rest : Text} {rule : Rule} {items : List Lexeme} : l.Selects s rule m t →
      rule.transition = .stay → Lexes l t items rest → Lexes l s (.token rule.kind m :: items) rest
  | leave {l : Lexicon} {s m rest : Text} {rule : Rule} : l.Selects s rule m rest →
      rule.transition = .leave → Lexes l s [.token rule.kind m] rest
  | enter {l : Lexicon} {s m t u rest : Text} {rule : Rule} {d : Delimiter} {inner items : List Lexeme} :
      l.Selects s rule m t → rule.transition = .enter d → Lexes (.inside d) t inner u →
      Lexes l u items rest → Lexes l s (.group d (.token rule.kind m :: inner) :: items) rest

variable {l : Lexicon} {s g m rest : Text} {rule : Rule} {items : List Lexeme}

theorem first?_eq_some_iff : l.first? s = some (rule, m, rest) ↔ l.Selects s rule m rest := by
  rw [first?, List.findSome?_eq_some_iff, Selects]
  constructor
  · rintro ⟨before, r, after, hl, hr, hnone⟩
    obtain ⟨x, hx, he⟩ := Option.map_eq_some_iff.1 hr
    cases he
    exact ⟨before, after, hl, fun r hr => Option.map_eq_none_iff.1 (hnone r hr), hx⟩
  · rintro ⟨before, after, hl, hnone, hm⟩
    exact ⟨before, rule, after, hl, by rw [hm]; rfl, fun r hr => Option.map_eq_none_iff.2 (hnone r hr)⟩

theorem first?_eq_none_iff : l.first? s = none ↔ ∀ rule ∈ l.rules, rule.match? s = none := by
  simp only [first?, List.findSome?_eq_none_iff, Option.map_eq_none_iff]

theorem gap_nil (h : s ≠ [] → ∃ rule m rest, l.Selects s rule m rest) : l.Gap [] s where
  none _ _ huv hv := absurd (List.append_eq_nil_iff.1 huv.symm).2 hv
  next := h

theorem gap_cons_iff {c : Char} : l.Gap (c :: g) s ↔ l.first? (c :: (g ++ s)) = none ∧ l.Gap g s := by
  constructor
  · intro h
    refine ⟨first?_eq_none_iff.2 (h.none [] _ rfl (by simp)), fun u v huv hv => ?_, h.next⟩
    exact h.none (c :: u) v (by rw [huv]; rfl) hv
  · rintro ⟨hc, h⟩
    refine ⟨fun u v huv hv => ?_, h.next⟩
    cases u with
    | nil =>
      obtain rfl : c :: g = v := huv
      exact first?_eq_none_iff.1 hc
    | cons x u =>
      obtain ⟨rfl, rfl⟩ := List.cons.inj huv
      exact h.none u v rfl hv

theorem gap_stretch (l : Lexicon) (s : Text) : l.Gap (l.stretch s).1 (l.stretch s).2 := by
  induction s with
  | nil => exact gap_nil (by simp [stretch])
  | cons c s ih =>
    rw [stretch]
    split
    · rename_i h
      obtain ⟨⟨rule, m, rest⟩, hm⟩ := Option.isSome_iff_exists.1 h
      exact gap_nil fun _ => ⟨rule, m, rest, first?_eq_some_iff.1 hm⟩
    · rename_i h
      refine gap_cons_iff.2 ⟨?_, ih⟩
      rw [stretch_append]
      simpa using h

theorem Gap.stretch_eq (h : l.Gap g s) : l.stretch (g ++ s) = (g, s) := by
  induction g with
  | nil =>
    cases s with
    | nil => rfl
    | cons c s =>
      obtain ⟨rule, m, rest, hm⟩ := h.next (by simp)
      exact if_pos (by rw [first?_eq_some_iff.2 hm]; rfl)
  | cons c g ih =>
    obtain ⟨hc, hg⟩ := gap_cons_iff.1 h
    rw [List.cons_append, stretch, hc, if_neg (by simp), ih hg]

theorem lexes_read (l : Lexicon) (s : Text) : l.Lexes s (l.read s).1.1 (l.read s).1.2 := by
  fun_induction Lexicon.read l s with
  | case1 l => exact .done
  | case2 l c s hnone items rest hr hread ih =>
    rw [hread] at ih
    have hgap : l.Gap (c :: (l.stretch s).1) (l.stretch s).2 :=
      gap_cons_iff.2 ⟨by rw [stretch_append]; exact hnone, l.gap_stretch s⟩
    have h := Lexes.gap (List.cons_ne_nil _ _) hgap ih
    rwa [List.cons_append, stretch_append] at h
  | case3 l c s rule m rest hm hlt hstay items rest' hr hread ih =>
    rw [hread] at ih
    exact .stay (first?_eq_some_iff.1 hm) hstay ih
  | case4 l c s rule m rest hm hlt hleave => exact .leave (first?_eq_some_iff.1 hm) hleave
  | case5 l c s rule m rest hm hlt i henter inner rest₁ hr₁ hread₁ items rest₂ hr₂ hread₂ ih₁ ih₂ =>
    rw [hread₁] at ih₁
    rw [hread₂] at ih₂
    exact .enter (first?_eq_some_iff.1 hm) henter ih₁ ih₂

theorem Selects.exists_cons (h : l.Selects s rule m rest) : ∃ c t, s = c :: t := by
  obtain ⟨rfl, hne⟩ := splits_of_first? (first?_eq_some_iff.2 h)
  obtain ⟨c, t, rfl⟩ := List.exists_cons_of_ne_nil hne
  exact ⟨c, t ++ rest, rfl⟩

theorem Lexes.read_eq (h : l.Lexes s items rest) : (l.read s).1 = (items, rest) := by
  induction h with
  | done => rw [read]
  | @gap l g s items rest hne hgap _ ih =>
    obtain ⟨c, g, rfl⟩ := List.exists_cons_of_ne_nil hne
    obtain ⟨hc, hg⟩ := gap_cons_iff.1 hgap
    rw [List.cons_append, read_of_none hc, hg.stretch_eq, ih]
  | stay hm ht _ ih =>
    obtain ⟨c, t, rfl⟩ := hm.exists_cons
    rw [read_of_stay (first?_eq_some_iff.2 hm) ht, ih]
  | leave hm ht =>
    obtain ⟨c, t, rfl⟩ := hm.exists_cons
    exact read_of_leave (first?_eq_some_iff.2 hm) ht
  | enter hm ht _ _ ih₁ ih₂ =>
    obtain ⟨c, t, rfl⟩ := hm.exists_cons
    rw [read_of_enter (first?_eq_some_iff.2 hm) ht, ih₁, ih₂]

/-- Every engine that follows the rules gives what is read here. -/
theorem lexes_iff : l.Lexes s items rest ↔ (l.read s).1 = (items, rest) := by
  refine ⟨Lexes.read_eq, fun h => ?_⟩
  have hread := l.lexes_read s
  rwa [h] at hread

end Lexicon

theorem Tokens.ofLexemes_of_lexes {s rest : Text} {items : List Lexeme} (h : Lexicon.root.Lexes s items rest) :
    ofLexemes items = ofText s := by
  rw [← ofLexemes_lexemes, Text.lexemes, h.read_eq]

end Devalang
