import Devalang.Text.Blank
import Devalang.Text.Digit
import Devalang.Text.Word

/-! Blanks are neither digits nor letters nor word characters. -/
namespace Devalang.Text

def Ranges.Apart (rs qs : Ranges) : Prop := ∀ r ∈ rs, ∀ q ∈ qs, r.2 < q.1 ∨ q.2 < r.1

instance (rs qs : Ranges) : Decidable (rs.Apart qs) :=
  inferInstanceAs (Decidable (∀ r ∈ rs, ∀ q ∈ qs, r.2 < q.1 ∨ q.2 < r.1))

theorem Ranges.Apart.contains {rs qs : Ranges} (h : rs.Apart qs) {n : Nat}
    (hn : rs.contains n = true) : qs.contains n = false := by
  rw [Bool.eq_false_iff]
  intro hq
  obtain ⟨r, hr, hr1, hr2⟩ := Ranges.contains_iff.1 hn
  obtain ⟨q, hq, hq1, hq2⟩ := Ranges.contains_iff.1 hq
  have := h r hr q hq
  omega

theorem isDigit_blank {c : Char} (h : isBlank c = true) : isDigit c = false :=
  (by decide +kernel : blankRanges.Apart digitRanges).contains h

theorem isWord_blank {c : Char} (h : isBlank c = true) : isWord c = false :=
  (by decide +kernel : blankRanges.Apart wordRanges).contains h

theorem isAlpha_blank {c : Char} (h : isBlank c = true) : c.isAlpha = false := by
  have ha := (by decide : blankRanges.Apart [(0x41, 0x5A), (0x61, 0x7A)]).contains h
  rw [Bool.eq_false_iff] at ha ⊢
  intro hc
  refine ha (Ranges.contains_iff.2 ?_)
  rcases Bool.or_eq_true_iff.1 (hc : (c.isUpper || c.isLower) = true) with hc | hc
  · have hupper : 'A'.val ≤ c.val ∧ c.val ≤ 'Z'.val := of_decide_eq_true hc
    exact ⟨(0x41, 0x5A), by simp, hupper⟩
  · have hlower : (decide ('a'.val ≤ c.val) && decide (c.val ≤ 'z'.val)) = true := hc
    rw [Bool.and_eq_true, decide_eq_true_eq, decide_eq_true_eq] at hlower
    exact ⟨(0x61, 0x7A), by simp, hlower⟩

end Devalang.Text
