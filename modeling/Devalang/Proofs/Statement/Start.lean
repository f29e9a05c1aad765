import Devalang.Proofs.Statement.Quoted
import Devalang.Proofs.Statement.Following
import Devalang.Proofs.Text.Classes

/-! How a text starts that is read as a simple statement, and what that says of its line before the
statement is read: whether it closes flat blocks, may be a branch or goes on with a chain. -/
namespace Devalang
open Text

def Simple.isPattern : Simple → Bool
  | pattern _ _ _ => true
  | _ => false

/-- The line is neither a branch nor does it go on with a chain, and it closes flat blocks or not. -/
structure Statement.StartsAs (s : Text) (closes : Bool) : Prop where
  word : Stops isBlank s
  header : isHeaderLine s = closes
  branch : startsWith "else".toList s = false
  chain : startsWith ['-', '>'] s = false

namespace Statement
variable {s : Text} {r : Simple}

theorem keyword_of_bind {β : Type} {keyword : Text} {f : Text → Option β} {b : β}
    (h : (after keyword s).bind f = some b) : ∃ t, s = keyword ++ t := by
  obtain ⟨t, ht, -⟩ := Option.bind_eq_some_iff.1 h
  exact ⟨t, after_eq_some_iff.1 ht⟩

theorem isHeaderLine_pattern {b : Text} (hb : b ≠ []) (hblank : Blank b) (t : Text) :
    isHeaderLine ("pattern".toList ++ (b ++ t)) = true := by
  cases b with
  | nil => exact absurd rfl hb
  | cons c b =>
    refine List.any_eq_true.2 ⟨"pattern".toList, by simp [headerWords], ?_⟩
    rw [after_self]
    simp [isWord_blank (hblank c (by simp))]

theorem startsAs_digit {c : Char} (hc : isDigit c = true) (u : Text) : StartsAs (c :: u) false := by
  have ha (k : Char) (w : Text) (hk : isDigit k = false) : after (k :: w) (c :: u) = none := by
    rw [after, if_neg]
    rintro rfl
    rw [hc] at hk
    cases hk
  have hb : isBlank c = false := by
    rw [Bool.eq_false_iff]
    intro hb
    rw [isDigit_blank hb] at hc
    cases hc
  refine ⟨stops_cons hb u, ?_, ?_, ?_⟩
  · simp [isHeaderLine, headerWords, ha 'i' _ (by decide), ha 'e' _ (by decide),
      ha 'g' _ (by decide), ha 'l' _ (by decide), ha 'o' _ (by decide), ha 'f' _ (by decide),
      ha 'a' _ (by decide), ha 'p' _ (by decide)]
  · simp [startsWith, ha 'e' _ (by decide)]
  · simp [startsWith, ha '-' _ (by decide)]

theorem startsAs_single (h : single? s = some (.simple r)) : StartsAs s r.isPattern := by
  cases ofLine_of_single h with
  | comment read =>
    obtain ⟨hs, -⟩ := Option.ite_none_right_eq_some.1 read
    obtain ⟨t, ht⟩ := Option.isSome_iff_exists.1 hs
    obtain rfl := after_eq_some_iff.1 ht
    exact ⟨stops_cons (by decide) _, rfl, rfl, rfl⟩
  | bpm _ read | bank _ _ read | plugin _ _ read | call _ read | spawn _ read =>
    obtain ⟨i, hi, -⟩ := Option.map_eq_some_iff.1 read
    obtain ⟨t, rfl⟩ := keyword_of_bind hi
    exact ⟨stops_cons (by decide) _, rfl, rfl, rfl⟩
  | emit _ _ read | print _ read | imports _ _ read | exports _ read | load _ _ read | sleep _ read =>
    obtain ⟨t, rfl⟩ := keyword_of_bind read
    exact ⟨stops_cons (by decide) _, rfl, rfl, rfl⟩
  | pattern _ _ _ read =>
    obtain ⟨t, ht, hx⟩ := Option.bind_eq_some_iff.1 read
    obtain ⟨u, hu, -⟩ := Option.bind_eq_some_iff.1 hx
    obtain rfl := after_eq_some_iff.1 ht
    obtain ⟨b, hb, hblank, -, rfl⟩ := afterBlanks?_eq_some_iff.1 hu
    exact ⟨stops_cons (by decide) _, isHeaderLine_pattern hb hblank u, rfl, rfl⟩
  | keyframe _ _ _ read =>
    rw [Simple.readKeyframe_eq] at read
    obtain ⟨⟨n, rest⟩, hn, -⟩ := Option.bind_eq_some_iff.1 read
    obtain ⟨c, u, rfl, hc⟩ := Simple.head_numberStart? hn
    rw [Simple.append_numberStart? hn]
    exact startsAs_digit hc (u ++ rest)

/-- The text of a statement that takes one line is read as this statement again. -/
theorem fixed_of_single (ht : Trimmed s) (hl : '\n' ∉ s) (h : single? s = some (.simple r))
    (hw : '\n' ∉ r.write) : r.Fixed := by
  cases ofLine_of_single h with
  | comment read => exact ⟨h, ht.last⟩
  | bpm _ read => exact Simple.fixed_bpm read
  | bank _ _ read => exact Simple.fixed_bank read
  | plugin _ _ read => exact Simple.fixed_use read
  | emit _ _ read => exact Simple.fixed_emit ht read
  | print _ read => exact Simple.fixed_print ht hl read
  | imports _ _ read => exact Simple.fixed_import read
  | exports _ read => exact Simple.fixed_export read
  | load _ _ read => exact Simple.fixed_load read
  | call _ read => exact Simple.fixed_call read
  | spawn _ read => exact Simple.fixed_spawn read
  | sleep _ read => exact Simple.fixed_sleep read hw
  | pattern _ _ _ read => exact Simple.fixed_pattern read
  | keyframe _ _ _ read => exact Simple.fixed_keyframe ht hl read

end Statement

end Devalang
