import Devalang.Proofs.Statement.Heading
import Devalang.Proofs.Text.Classes

/-! The text of a header takes one line, and it shows what the header is. -/
namespace Devalang
open Text

namespace Header
variable {s : Text} {h : Header}

def isBranch : Header → Bool
  | elseIf _ | otherwise => true
  | _ => false

theorem isBranch_of_readBranch (hr : readBranch s = some h) : h.isBranch = true := by
  rw [readBranch] at hr
  cases he : readElseIf s with
  | some x =>
    rw [he] at hr
    cases hr
    simp only [readElseIf, Option.bind_eq_bind, Option.bind_eq_some_iff] at he
    obtain ⟨_, -, _, -, _, -, he⟩ := he
    cases he
    rfl
  | none =>
    rw [he] at hr
    obtain ⟨t, -, hr⟩ := Option.bind_eq_some_iff.1 hr
    obtain ⟨-, hr⟩ := Option.ite_none_right_eq_some.1 hr
    cases hr
    rfl

theorem head_write (h : Header) : ∃ c t, h.write = c :: t ∧ isBlank c = false ∧ c ≠ '-' ∧ c ≠ '}' := by
  cases h <;> exact ⟨_, _, rfl, by decide, by decide, by decide⟩

theorem last_write (h : Header) : h.write.getLast? = some ':' ∨ h.write.getLast? = some '{' := by
  cases h with
  | param n => exact Or.inr (last_append rfl _)
  | otherwise => exact Or.inl rfl
  | _ => exact Or.inl (last_append rfl _)

theorem trimmed_write (h : Header) : Trimmed h.write := by
  obtain ⟨c, t, hc, hb, -⟩ := h.head_write
  refine ⟨fun d hd => ?_, fun d hd => ?_⟩
  · rw [hc] at hd
    cases hd
    exact hb
  · rcases h.last_write with hl | hl <;>
    · rw [hl] at hd
      cases hd
      decide

theorem write_ne_nil (h : Header) : h.write ≠ [] := by
  obtain ⟨c, t, hc, -⟩ := h.head_write
  simp [hc]

theorem write_ne_brace (h : Header) : h.write ≠ ['}'] := by
  obtain ⟨c, t, hc, -, -, hb⟩ := h.head_write
  simp [hc, hb]

theorem startsWith_else_write (h : Header) : startsWith "else".toList h.write = h.isBranch := by
  cases h <;> rfl

theorem startsWith_arrow_write (h : Header) : startsWith ['-', '>'] h.write = false := by
  obtain ⟨c, t, hc, -, hd, -⟩ := h.head_write
  rw [hc, startsWith, after, if_neg (Ne.symm hd)]
  rfl

/-! A header that was read is written in one line. -/

theorem newline_notMem_append {a b : Text} (ha : '\n' ∉ a) (hb : '\n' ∉ b) : '\n' ∉ a ++ b := by
  simp [ha, hb]

theorem newline_notMem_between {a t b : Text} (ha : '\n' ∉ a) (ht : '\n' ∉ t) (hb : '\n' ∉ b) :
    '\n' ∉ a ++ t ++ b := newline_notMem_append (newline_notMem_append ha ht) hb

theorem newline_notMem_of_untilColon? {t : Text} (h : untilColon? s = some t) : '\n' ∉ t := by
  obtain ⟨⟨b, u⟩, hb, hu⟩ := List.exists_of_findSome?_eq_some h
  obtain ⟨⟨part, rest⟩, hpart, hr⟩ := List.exists_of_findSome?_eq_some hu
  obtain ⟨-, hr⟩ := Option.ite_none_right_eq_some.1 hr
  cases hr
  obtain ⟨-, hall, -⟩ := of_mem_someCuts (List.mem_reverse.1 hpart)
  exact inLine_iff.1 (List.all_eq_true.2 hall)

theorem newline_notMem_of_readColon {keyword : String} {t : Text} (h : readColon keyword s = some t) :
    '\n' ∉ t := by
  obtain ⟨u, -, hc⟩ := Option.bind_eq_some_iff.1 h
  exact newline_notMem_of_untilColon? hc

theorem newline_notMem_of_readElseIf (hr : readElseIf s = some h) : '\n' ∉ h.write := by
  simp only [readElseIf, Option.bind_eq_bind, Option.bind_eq_some_iff] at hr
  obtain ⟨u, -, t, -, w, hw, hr⟩ := hr
  cases hr
  exact newline_notMem_between (by decide) (newline_notMem_of_readColon hw) (by decide)

theorem newline_notMem_word {t : Text} (h : ∀ c ∈ t, isBlank c = false) : '\n' ∉ t := by
  intro hm
  have hn := h _ hm
  revert hn
  decide

theorem newline_notMem_of_readFn (hr : readFn s = some h) : '\n' ∉ h.write := by
  simp only [readFn, Option.bind_eq_bind, Option.bind_eq_some_iff, Prod.exists, run?_eq_some_iff] at hr
  obtain ⟨_, -, _, -, name, rest, ⟨-, hname, -, -⟩, u, -, hr⟩ := hr
  obtain ⟨⟨parameters, rest'⟩, hm, hr⟩ := List.exists_of_findSome?_eq_some hr
  simp only [Option.bind_eq_some_iff, Option.ite_none_right_eq_some] at hr
  obtain ⟨v, -, -, hr⟩ := hr
  cases hr
  have hn : '\n' ∉ name := newline_notMem_word fun c hc => by
    have := hname c hc
    simp_all [notBlank]
  have hp : '\n' ∉ parameters := inLine_iff.1 (List.all_eq_true.2 (all_of_mem_cuts hm))
  have hi : ∀ p ∈ items parameters, '\n' ∉ p := by
    intro p hmem hnl
    obtain ⟨a, b, hab, -⟩ := exists_of_mem_separatedBy rfl rfl hmem
    exact hp (by rw [hab]; simp [hnl])
  have hj : '\n' ∉ join comma (items parameters) := by
    intro hnl
    rcases mem_join hnl with hc | ⟨p, hmem, hnl⟩
    · simp [comma] at hc
    · exact hi p hmem hnl
  have hopen : '\n' ∉ '(' :: join comma (items parameters) := by simp [hj]
  exact newline_notMem_between (newline_notMem_append (by decide) hn) hopen (by decide)

/-- What starts as a number or a name is no object, so its text holds no newline but its own. -/
theorem newline_notMem_write_read {c : Char} {u : Text} (hl : '\n' ∉ c :: u) (hb : isBlank c = false)
    (hc : c ≠ '{') : '\n' ∉ (Value.read (c :: u)).write := by
  obtain ⟨a, b, ha, -, hsplit⟩ := exists_trim (c :: u)
  have htrim : '\n' ∉ trim (c :: u) := fun hm => hl (mem_of_mem_trim hm)
  have hreads := Value.readsAs (c :: u)
  generalize Value.read (c :: u) = v at hreads
  cases hreads with
  | empty h => decide
  | synth blanks name _ _ _ word h => exact newline_notMem_append (by decide) (newline_notMem_word word)
  | object inner _ _ h =>
    exfalso
    rw [h] at hsplit
    cases a with
    | nil => exact hc (List.cons.inj hsplit).1
    | cons d a =>
      rw [(List.cons.inj hsplit).1, ha d (by simp)] at hb
      cases hb
  | plain _ _ write _ => rwa [write]

theorem newline_notMem_of_readLoop (hl : '\n' ∉ s) (hr : readLoop s = some h) : '\n' ∉ h.write := by
  simp only [readLoop, Option.bind_eq_bind, Option.bind_eq_some_iff, Prod.exists] at hr
  obtain ⟨u, hu, t, ht, iterator, rest, hi, hr⟩ := hr
  obtain ⟨-, hr⟩ := Option.ite_none_right_eq_some.1 hr
  cases hr
  refine newline_notMem_between (by decide) ?_ (by decide)
  obtain ⟨a, rfl⟩ := append_of_keyword (Option.bind_eq_some_iff.2 ⟨u, hu, ht⟩)
  have htl : '\n' ∉ t := fun hm => hl (List.mem_append_right a hm)
  cases hn : numberStart? t with
  | some x =>
    rw [hn] at hi
    cases hi
    obtain ⟨c, v, rfl, hc⟩ := Simple.head_numberStart? hn
    rw [Simple.append_numberStart? hn] at htl
    refine newline_notMem_write_read (fun hm => htl (List.mem_append_left rest hm)) ?_ ?_
    · rw [Bool.eq_false_iff]
      intro hb
      rw [isDigit_blank hb] at hc
      cases hc
    · rintro rfl
      cases hc
  | none =>
    rw [hn] at hi
    cases t with
    | nil => cases hi
    | cons c t =>
      obtain ⟨hc, hi⟩ := Option.ite_none_right_eq_some.1 hi
      cases hi
      refine newline_notMem_write_read (fun hm => htl ?_) ?_ ?_
      · rcases List.mem_cons.1 hm with rfl | hm
        · simp
        · exact List.mem_cons_of_mem c ((List.takeWhile_prefix _).subset hm)
      · rw [Bool.eq_false_iff]
        intro hb
        rw [isAlpha_blank hb, Bool.false_or, beq_iff_eq] at hc
        rw [hc] at hb
        cases hb
      · rintro rfl
        cases hc

theorem newline_notMem_of_readGroup (hr : readGroup s = some h) : '\n' ∉ h.write := by
  simp only [readGroup, Option.bind_eq_bind, Option.bind_eq_some_iff, Prod.exists, run?_eq_some_iff] at hr
  obtain ⟨_, -, _, -, name, rest, ⟨-, hname, -, -⟩, hr⟩ := hr
  obtain ⟨-, hr⟩ := Option.ite_none_right_eq_some.1 hr
  cases hr
  have hn : '\n' ∉ name := newline_notMem_word fun c hc => by
    have := hname c hc
    simp_all [notBlank]
  exact newline_notMem_between (by decide) hn (by decide)

theorem newline_notMem_of_readFor (hr : readFor s = some h) : '\n' ∉ h.write := by
  simp only [readFor, Option.bind_eq_bind, Option.bind_eq_some_iff, Prod.exists,
    word?_eq_some_iff] at hr
  obtain ⟨_, -, _, -, item, rest, ⟨-, hitem, -, -⟩, _, -, w, hw, hr⟩ := hr
  cases hr
  exact newline_notMem_between (newline_notMem_between (by decide) (newline_notMem_word hitem) (by decide))
    (newline_notMem_of_readColon hw) (by decide)

theorem newline_notMem_of_readParam (hr : readParam s = some h) : '\n' ∉ h.write := by
  simp only [readParam, Option.bind_eq_bind, Option.bind_eq_some_iff] at hr
  obtain ⟨_, -, _, -, hr⟩ := hr
  obtain ⟨⟨name, rest⟩, hm, hr⟩ := List.exists_of_findSome?_eq_some hr
  obtain ⟨-, hr⟩ := Option.ite_none_right_eq_some.1 hr
  cases hr
  obtain ⟨-, hname, -⟩ := of_mem_someCuts hm
  exact newline_notMem_between (by decide) (newline_notMem_word fun c hc => notBlank_iff.1 (hname c hc))
    (by decide)

end Header

theorem Statement.newline_notMem_of_single {s : Text} {b : Header} (hl : '\n' ∉ s)
    (h : single? s = some (.block b)) : '\n' ∉ b.write := by
  cases ofLine_of_single h with
  | on _ read | conditional _ read | automate _ read =>
    obtain ⟨t, ht, he⟩ := Option.map_eq_some_iff.1 read
    cases he
    exact Header.newline_notMem_between (by decide) (Header.newline_notMem_of_readColon ht) (by decide)
  | fn _ _ read => exact Header.newline_notMem_of_readFn read
  | loop _ read => exact Header.newline_notMem_of_readLoop hl read
  | group _ read => exact Header.newline_notMem_of_readGroup read
  | each _ _ read => exact Header.newline_notMem_of_readFor read
  | param _ read => exact Header.newline_notMem_of_readParam read

end Devalang
