import Devalang.Proofs.Document.Comparison
import Devalang.Proofs.Outline.Walk
import Mathlib.Data.List.Forall2

/-! Outlines with equal statements at the same places are outlines of equal documents. -/
namespace Devalang

/-- The trees are equal, origins left out. -/
def Node.Equal (n m : Node) : Prop := n.compare m = .equal

theorem Comparison.and_eq_equal {c d : Comparison} : c.and d = .equal ↔ c = .equal ∧ d = .equal := by
  cases c <;> cases d <;> simp [Comparison.and]

namespace Node
variable {s s' : Statement} {o o' : Option Origin} {b b' es es' : List Node} {a a' : Option Node}

theorem compareAll_eq_equal_iff (h : b.length = b'.length) :
    compareAll b b' = .equal ↔ List.Forall₂ Equal b b' := by
  induction b generalizing b' with
  | nil =>
    obtain rfl := List.length_eq_zero_iff.1 h.symm
    simp [compareAll]
  | cons n ns ih =>
    cases b' with
    | nil => cases h
    | cons m ms =>
      rw [compareAll, Comparison.and_eq_equal, ih (by simpa using h), List.forall₂_cons]
      rfl

theorem compareOption_eq_equal_iff : compareOption a a' = .equal ↔ Option.Rel Equal a a' := by
  cases a <;> cases a' <;> simp [compareOption, Equal]

theorem equal_iff : Equal (.node s o b es a) (.node s' o' b' es' a') ↔
    s.compare s' = .equal ∧ List.Forall₂ Equal b b' ∧ List.Forall₂ Equal es es' ∧
      Option.Rel Equal a a' := by
  rw [Equal, compare]
  by_cases hb : b.length = b'.length
  · by_cases he : es.length = es'.length
    · rw [if_pos hb, if_pos he, Comparison.and_eq_equal, Comparison.and_eq_equal, Comparison.and_eq_equal,
        compareAll_eq_equal_iff hb, compareAll_eq_equal_iff he, compareOption_eq_equal_iff]
      tauto
    · rw [if_pos hb, if_neg he]
      simp only [Comparison.and_eq_equal, reduceCtorEq, false_and, and_false, false_iff]
      exact fun h => he h.2.2.1.length_eq
  · rw [if_neg hb]
    simp only [reduceCtorEq, false_iff]
    exact fun h => hb h.2.1.length_eq

end Node

theorem Document.compare_eq_equal_iff {d e : Document} :
    d.compare e = .equal ↔ List.Forall₂ Node.Equal d.nodes e.nodes := by
  rw [Document.compare]
  by_cases h : d.nodes.length = e.nodes.length
  · rw [if_pos h, Node.compareAll_eq_equal_iff h]
  · rw [if_neg h]
    simp only [reduceCtorEq, false_iff]
    exact fun hf => h hf.length_eq

structure Members.Equal (m m' : Members) : Prop where
  body : ∀ o, List.Forall₂ Node.Equal (m.body o) (m'.body o)
  elseIfs : ∀ o, List.Forall₂ Node.Equal (m.elseIfs o) (m'.elseIfs o)
  alternate : ∀ o, Option.Rel Node.Equal (m.alternate o) (m'.alternate o)

namespace Members

theorem Equal.none : Members.none.Equal .none := ⟨fun _ => .nil, fun _ => .nil, fun _ => .none⟩

theorem Equal.add {m m' : Members} (h : m.Equal m') {n n' : Node} (hn : n.Equal n')
    (owner : Option Nat) (role : Role) : (m.add owner role n).Equal (m'.add owner role n') := by
  cases role with
  | body =>
    refine ⟨fun o => ?_, h.elseIfs, h.alternate⟩
    by_cases ho : o = owner <;> simp [Members.add, ho, hn, h.body]
  | elseIf =>
    refine ⟨h.body, fun o => ?_, h.alternate⟩
    by_cases ho : o = owner <;> simp [Members.add, ho, hn, h.elseIfs]
  | alternate =>
    refine ⟨h.body, h.elseIfs, fun o => ?_⟩
    by_cases ho : o = owner
    · have ha := h.alternate o
      simp only [Members.add, ho, if_true] at ha ⊢
      cases hm : m.alternate owner <;> cases hm' : m'.alternate owner <;> rw [hm, hm'] at ha
      · exact .some hn
      · cases ha
      · cases ha
      · exact ha
    · simp [Members.add, ho, h.alternate]

end Members

structure Entry.Equal (e e' : Entry) : Prop where
  statement : e.statement.compare e'.statement = .equal
  owner : e.owner = e'.owner
  role : e.role = e'.role

theorem Entry.places_eq {es es' : List Entry} (h : List.Forall₂ Entry.Equal es es') :
    es.map Entry.place = es'.map Entry.place := by
  induction h with
  | nil => rfl
  | cons he _ ih => simp [ih, Entry.place, he.owner, he.role]

theorem Entry.params_eq {es es' : List Entry} (h : List.Forall₂ Entry.Equal es es') :
    es.map (·.statement.isParam) = es'.map (·.statement.isParam) := by
  induction h with
  | nil => rfl
  | cons he _ ih => simp [ih, Statement.isParam_of_compare he.statement]

theorem Entry.equal_close {o : Outline} {es : List Entry} (h : List.Forall₂ Entry.Equal o.toList es)
    (k last : Nat) : List.Forall₂ Entry.Equal (o.close k last).toList es := by
  rw [Outline.close, Array.toList_modify]
  generalize o.toList = es' at h
  induction h generalizing k with
  | nil => simp
  | cons he hs ih =>
    cases k with
    | zero => exact .cons ⟨he.statement, he.owner, he.role⟩ hs
    | succ k => exact .cons he (ih k)

namespace Outline

theorem members_equal {es es' : List Entry} (h : List.Forall₂ Entry.Equal es es') (i : Nat) :
    (members i es).Equal (members i es') := by
  induction h generalizing i with
  | nil => exact .none
  | cons he _ ih =>
    have hm := ih (i + 1)
    rw [members, members, ← he.owner, ← he.role]
    exact hm.add (Node.equal_iff.2 ⟨he.statement, hm.body _, hm.elseIfs _, hm.alternate _⟩) _ _

theorem nodes_equal {o o' : Outline} (h : List.Forall₂ Entry.Equal o.toList o'.toList) :
    List.Forall₂ Node.Equal o.nodes o'.nodes := (members_equal h 0).body none

end Outline

end Devalang
