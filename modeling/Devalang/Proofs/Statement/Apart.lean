import Devalang.Proofs.Statement.Arrow
import Devalang.Proofs.Statement.Heading

/-! The text of a call is of no other kind than the text that the call was read from, unless the target
is a keyword and the arrow is what it prints, emits or waits for. -/
namespace Devalang
open Text Nesting

namespace Text
variable {a p r t v x : Text}

theorem tail_of_append (h : p ++ v = a ++ '-' :: r) (hp : ∀ c ∈ p, c ≠ '-') :
    ∃ b, a = p ++ b ∧ v = b ++ '-' :: r := by
  rcases List.append_eq_append_iff.1 h with ⟨b, rfl, hv⟩ | ⟨b, rfl, hr⟩
  · exact ⟨b, rfl, hv⟩
  · cases b with
    | nil => exact ⟨[], by simp, by simpa using hr.symm⟩
    | cons d b =>
      rw [List.cons_append, List.cons.injEq] at hr
      exact absurd hr.1.symm (hp d (by simp))

/-- A text that holds no dash and ends without a blank stands in front of a dash and the blanks before
it. -/
theorem prefix_of_append (h : p ++ v = t ++ (x ++ '-' :: r)) (hp : ∀ c ∈ p, c ≠ '-') (hx : Blank x)
    (hl : ∀ c, p.getLast? = some c → isBlank c = false) :
    ∃ k, t = p ++ k ∧ v = k ++ (x ++ '-' :: r) := by
  rcases List.append_eq_append_iff.1 h with ⟨k, ht, hv⟩ | ⟨b, rfl, hr⟩
  · exact ⟨k, ht, hv⟩
  · by_cases hb : b = []
    · subst hb
      exact ⟨[], by simp, by simpa using hr.symm⟩
    · exfalso
      have hblank : Blank b := by
        rcases List.append_eq_append_iff.1 hr with ⟨c, rfl, hc⟩ | ⟨c, rfl, -⟩
        · cases c with
          | nil => simpa using hx
          | cons d c =>
            rw [List.cons_append, List.cons.injEq] at hc
            exact absurd hc.1.symm (hp d (by simp))
        · exact fun d hd => hx d (by simp [hd])
      obtain ⟨c, hc⟩ := Option.ne_none_iff_exists'.1 fun hn => hb (List.getLast?_eq_none_iff.1 hn)
      have hlast := hl c (last_append hc t)
      rw [hblank c (List.mem_of_getLast? hc)] at hlast
      cases hlast

end Text

namespace Calls
variable {s t x y m z u w p v : Text} {r : Simple} {keyword : String}

theorem text_write (h : Calls w t [' '] [' '] m [] u) :
    w = t ++ ([' '] ++ '-' :: '>' :: ' ' :: (m ++ '(' :: (u ++ [')']))) := by
  rw [h.text]
  rfl

theorem not_word (h : Calls w t [' '] [' '] m [] u) (hw : w = p ++ v) (hp : ∀ c ∈ p, c ≠ '-') :
    ¬ ∀ c ∈ v, isBlank c = false := by
  intro hv
  rw [h.text_write, ← List.append_assoc] at hw
  obtain ⟨b, -, rfl⟩ := tail_of_append hw.symm hp
  have hb := hv ' ' (by simp)
  revert hb
  decide

theorem dashless_append {a b : Text} (ha : ∀ c ∈ a, c ≠ '-') (hb : ∀ c ∈ b, c ≠ '-') :
    ∀ c ∈ a ++ b, c ≠ '-' := by
  intro c hc
  rcases List.mem_append.1 hc with hc | hc
  · exact ha c hc
  · exact hb c hc

theorem dashless_blank {b : Text} (hb : Blank b) : ∀ c ∈ b, c ≠ '-' := by
  rintro c hc rfl
  exact absurd (hb _ hc) (by decide)

theorem readWord_eq_none (h : Calls w t [' '] [' '] m [] u) (hk : ∀ c ∈ keyword.toList, c ≠ '-') :
    Simple.readWord keyword w = none := by
  rw [Option.eq_none_iff_forall_ne_some]
  intro v hv
  obtain ⟨b, -, hblank, -, hword, hw⟩ := Simple.readWord_eq_some_iff.1 hv
  exact h.not_word hw (dashless_append hk (dashless_blank hblank)) hword

theorem readWord_method (h : Calls w t [' '] [' '] m [] u) :
    Simple.readWord "as" (m ++ '(' :: (u ++ [')'])) = none := by
  rw [Option.eq_none_iff_forall_ne_some]
  intro v hv
  obtain ⟨b, hb, hblank, -, -, hm⟩ := Simple.readWord_eq_some_iff.1 hv
  obtain ⟨d, b, rfl⟩ := List.exists_cons_of_ne_nil hb
  have hd := hblank d (by simp)
  match m, h.named, h.method, hm with
  | [a], _, _, hm => simp at hm
  | [a, c], _, _, hm =>
    simp at hm
    rw [← hm.2.2.1] at hd
    revert hd
    decide
  | a :: c :: e :: m, _, hmeth, hm =>
    simp at hm
    have he := isBlank_of_isMethodChar (hmeth e (by simp))
    rw [hm.2.2.1, hd] at he
    cases he

theorem eq_of_arrow {p : Char → Bool} {d call rest : Text} (hd : ∀ c ∈ d, p c = true)
    (hs : Stops p rest) (hp : p '-' = true ∧ p '>' = true ∧ p ' ' = false)
    (h : '-' :: '>' :: ' ' :: call = d ++ rest) : rest = ' ' :: call := by
  have hdrop := dropWhile_append hd hs
  rw [← h] at hdrop
  simpa [hp] using hdrop.symm

theorem readAliased_eq_none (h : Calls w t [' '] [' '] m [] u) (hk : ∀ c ∈ keyword.toList, c ≠ '-') :
    Simple.readAliased keyword w = none := by
  rw [Option.eq_none_iff_forall_ne_some]
  rintro ⟨name, known⟩ hv
  rw [Simple.readAliased_eq, Option.bind_eq_some_iff] at hv
  obtain ⟨⟨n, rest⟩, hn, hv⟩ := hv
  simp only [Option.bind_eq_some_iff, after_eq_some_iff, afterBlanks?_eq_some_iff,
    word?_eq_some_iff] at hn
  obtain ⟨_, ⟨_, hw, b, -, hblank, -, rfl⟩, hne, hword, hstops, rfl⟩ := hn
  rw [← List.append_assoc] at hw
  have hkb := dashless_append hk (dashless_blank hblank)
  by_cases hr : rest = []
  · rw [hr, List.append_nil] at hw
    exact h.not_word hw hkb hword
  simp only [List.isEmpty_iff, hr, if_false, Option.map_eq_some_iff, Option.bind_eq_some_iff] at hv
  obtain ⟨k, ⟨v, hv, hk⟩, -⟩ := hv
  obtain ⟨b', -, hblank', hstart, rfl⟩ := afterBlanks?_eq_some_iff.1 hv
  rw [h.text_write, ← List.append_assoc] at hw
  obtain ⟨c, -, hc⟩ := tail_of_append hw.symm hkb
  rcases List.append_eq_append_iff.1 hc with ⟨d, -, hd⟩ | ⟨d, rfl, hd⟩
  · -- the arrow stands in the alias
    obtain ⟨b₂, -, hblank₂, -, hknown, rfl⟩ := Simple.readWord_eq_some_iff.1 hk
    rw [← List.append_assoc, ← List.append_assoc] at hd
    obtain ⟨e, -, rfl⟩ := tail_of_append hd (dashless_append
      (dashless_append (dashless_blank hblank') (forall_of_all rfl)) (dashless_blank hblank₂))
    exact absurd (hknown ' ' (by simp)) (by decide)
  · -- the name ends with the arrow, and the call would be the alias
    have hrest := eq_of_arrow (fun e he => notBlank_iff.2 (hword e (List.mem_append_right _ he))) hstops
      (by decide) hd
    have hcall : Stops isBlank (m ++ '(' :: (u ++ [')'])) := h.trimmed_call.head
    have hv : v = m ++ '(' :: (u ++ [')']) := by
      rw [← trimStart_of_head hstart, ← trimStart_blank_append hblank' v, hrest, trimStart_space hcall]
    rw [hv, h.readWord_method] at hk
    cases hk

/-- A string that the arrow stood in would be open in front of it. -/
theorem readLoad_eq_none (h : Calls w t [' '] [' '] m [] u) : Simple.readLoad w = none := by
  rw [Option.eq_none_iff_forall_ne_some]
  intro r hr
  simp only [Simple.readLoad, Option.bind_eq_bind, Option.bind_eq_some_iff, after_eq_some_iff,
    afterBlanks?_eq_some_iff, Prod.exists, Simple.readQuoted_eq_some_iff,
    Simple.readWord_eq_some_iff] at hr
  obtain ⟨_, hw, _, ⟨b, -, hblank, -, rfl⟩, path, _, ⟨hpath, rfl⟩, _, ⟨c, -, hblank', -, rfl⟩, known,
    ⟨d, -, hblank₂, -, hknown, rfl⟩, -⟩ := hr
  have hquote : ∀ c ∈ "@load".toList ++ b ++ ['"'], c ≠ '-' :=
    dashless_append (dashless_append (forall_of_all rfl) (dashless_blank hblank)) (forall_of_all rfl)
  have he : ("@load".toList ++ b ++ ['"']) ++ (path ++ '"' :: (c ++ ("as".toList ++ d ++ known))) =
      (t ++ [' ']) ++ '-' :: '>' :: ' ' :: (m ++ '(' :: (u ++ [')'])) := by
    have hw' := h.text_write
    rw [← List.append_assoc] at hw'
    rw [← hw', hw]
    simp
  obtain ⟨e, ht, hrest⟩ := tail_of_append he hquote
  rcases List.append_eq_append_iff.1 hrest with ⟨f, -, hf⟩ | ⟨f, rfl, -⟩
  · -- the arrow stands in the alias
    have hf' : (['"'] ++ c ++ "as".toList ++ d) ++ known = f ++ '-' :: '>' :: ' ' ::
        (m ++ '(' :: (u ++ [')'])) := by
      rw [← hf]
      simp
    obtain ⟨g, -, rfl⟩ := tail_of_append hf' (dashless_append (dashless_append (dashless_append
      (forall_of_all rfl) (dashless_blank hblank')) (forall_of_all rfl)) (dashless_blank hblank₂))
    exact absurd (hknown ' ' (by simp)) (by decide)
  · have hclosed := h.closed_blank
    have hload : run [] "@load".toList = [] := by decide
    have hnext : next [] '"' = [.inside .quote] := by decide
    rw [ht, run_append, run_append, run_append, hload, run_blank hblank, run_cons, hnext] at hclosed
    have hopen : (run [.inside .quote] e).delimiters = [.quote] :=
      delimiters_run_string (fun hm => hpath (List.mem_append_left _ hm)) rfl
    rw [run_nil] at hclosed
    rw [hclosed] at hopen
    cases hopen

theorem eq_none_of_last {β : Type} {read : Text → Option β} {c : Char} (h : Calls w t x y m z u)
    (hlast : ∀ r, read w = some r → w.getLast? = some c) (hc : c ≠ ')') : read w = none := by
  rw [Option.eq_none_iff_forall_ne_some]
  intro r hr
  have hl := hlast r hr
  rw [h.last] at hl
  exact hc (Option.some.inj hl).symm

end Calls

end Devalang
