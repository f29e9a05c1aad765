import Devalang.Document

/-! A document is equal to itself, and to any document with the same statements. -/
namespace Devalang

theorem Comparison.ofBool_true : ofBool true = equal := rfl

theorem Simple.compare_self (s : Simple) : s.compare s = .equal := by
  cases s with
  | trigger n d as =>
    have hd : Duration.sameOption d d = true := by
      cases d with
      | none => rfl
      | some d => cases d <;> simp [Duration.sameOption, Duration.same]
    simp [Simple.compare, hd, Comparison.ofBool_true]
  | arrow t c cs =>
    have hc : ¬ (t = t ∧ c = c ∧ cs ≠ [] ∧ cs = []) := fun h => h.2.2.1 h.2.2.2
    rw [Simple.compare, if_neg hc]
    simp [Comparison.ofBool_true]
  | _ => simp [Simple.compare, Comparison.ofBool_true]

theorem Statement.compare_self (s : Statement) : s.compare s = .equal := by
  cases s with
  | simple s => exact s.compare_self
  | block h => simp [Statement.compare, Comparison.ofBool_true]

theorem Comparison.ofBool_eq_equal {b : Bool} : ofBool b = equal ↔ b = true := by
  cases b <;> simp [ofBool]

theorem Simple.eq_of_compare {s s' : Simple} (h : s.compare s' = .equal) :
    s = s' ∨ ∃ n d d' as, s = .trigger n d as ∧ s' = .trigger n d' as := by
  fun_cases Simple.compare s s' with
  | case1 n d as n' d' as' =>
    simp only [Simple.compare, Comparison.ofBool_eq_equal, Bool.and_eq_true, beq_iff_eq] at h
    obtain ⟨⟨rfl, -⟩, rfl⟩ := h
    exact Or.inr ⟨n, d, d', as, rfl, rfl⟩
  | case2 t c cs t' c' cs' hu =>
    rw [Simple.compare, if_pos hu] at h
    cases h
  | case3 t c cs t' c' cs' hu =>
    rw [Simple.compare, if_neg hu, Comparison.ofBool_eq_equal] at h
    simp only [Bool.and_eq_true, beq_iff_eq] at h
    obtain ⟨⟨rfl, rfl⟩, rfl⟩ := h
    exact Or.inl rfl
  | case4 =>
    rename_i ht ha
    rw [Simple.compare, Comparison.ofBool_eq_equal, beq_iff_eq] at h
    · exact Or.inl h
    · exact ht
    · exact ha

/-- Statements that are equal are the same, up to the durations of triggers. -/
theorem Statement.eq_of_compare {s s' : Statement} (h : s.compare s' = .equal) :
    s = s' ∨ ∃ n d d' as, s = .simple (.trigger n d as) ∧ s' = .simple (.trigger n d' as) := by
  cases s with
  | simple s =>
    cases s' with
    | simple s' =>
      rcases Simple.eq_of_compare h with rfl | ⟨n, d, d', as, rfl, rfl⟩
      · exact Or.inl rfl
      · exact Or.inr ⟨n, d, d', as, rfl, rfl⟩
    | block b' => cases h
  | block b =>
    cases s' with
    | simple s' => cases h
    | block b' =>
      rw [compare, Comparison.ofBool_eq_equal, beq_iff_eq] at h
      exact Or.inl (congrArg _ h)

theorem Statement.isParam_of_compare {s s' : Statement} (h : s.compare s' = .equal) :
    s.isParam = s'.isParam := by
  rcases eq_of_compare h with rfl | ⟨n, d, d', as, rfl, rfl⟩ <;> rfl

namespace Node

mutual

theorem compare_self : (n : Node) → n.compare n = .equal
  | node s o b es a => by
    rw [compare, if_pos rfl, if_pos rfl, s.compare_self, compareAll_self es, compareOption_self a,
      compareAll_self b]
    rfl

theorem compareAll_self : (ns : List Node) → compareAll ns ns = .equal
  | [] => rfl
  | n :: ns => by
    rw [compareAll, compare_self n, compareAll_self ns]
    rfl

theorem compareOption_self : (n : Option Node) → compareOption n n = .equal
  | none => rfl
  | some n => compare_self n

end

end Node

theorem Document.compare_of_nodes {d e : Document} (h : d.nodes = e.nodes) :
    d.compare e = .equal := by
  rw [Document.compare, if_pos (by rw [h]), h]
  exact Node.compareAll_self e.nodes

end Devalang
