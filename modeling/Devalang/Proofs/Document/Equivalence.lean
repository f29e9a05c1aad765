import Devalang.Outline.Reading
import Devalang.Proofs.Outline.Comparison
import Devalang.Proofs.Outline.Listing

/-! Equality of documents is an equivalence. What a comparison looks at is written out as a list of marks,
in the order in which it does; the first marks that are not equal decide. Two documents cannot be compared
if these are a chain of calls on the left and a single call on the right. -/
namespace Devalang

namespace Comparison

theorem equal_and (c : Comparison) : equal.and c = c := rfl

theorem and_assoc (a b c : Comparison) : (a.and b).and c = a.and (b.and c) := by
  cases a <;> rfl

theorem ofBool_ne_undefined (b : Bool) : ofBool b ≠ undefined := by
  cases b <;> simp [ofBool]

end Comparison

/-! Statements. -/

namespace Duration

theorem same_comm (d e : Duration) : d.same e = e.same d := by
  cases d with
  | beat s =>
    cases e with
    | beat t => exact BEq.comm
    | _ => rfl
  | milliseconds m =>
    cases e with
    | milliseconds n => exact BEq.comm
    | _ => rfl
  | auto => cases e <;> rfl

theorem same_trans {d e f : Duration} (hd : d.same e = true) (he : e.same f = true) : d.same f = true := by
  cases d <;> cases e <;> cases f <;> simp_all [same]

theorem sameOption_comm (d e : Option Duration) : sameOption d e = sameOption e d := by
  cases d with
  | none => cases e <;> rfl
  | some d =>
    cases e with
    | none => rfl
    | some e => exact same_comm d e

theorem sameOption_trans {d e f : Option Duration} (hd : sameOption d e = true)
    (he : sameOption e f = true) : sameOption d f = true := by
  cases d <;> cases e <;> cases f <;> simp_all [sameOption]
  exact same_trans hd he

end Duration

theorem Simple.compare_trigger {n : Text} {d d' : Option Duration} {as : List Argument} :
    (trigger n d as).compare (trigger n d' as) = .equal ↔ Duration.sameOption d d' = true := by
  simp [Simple.compare, Comparison.ofBool_eq_equal]

theorem Simple.compare_eq_undefined_iff {s s' : Simple} : s.compare s' = .undefined ↔
    ∃ t c d ds, s = .arrow t c (d :: ds) ∧ s' = .arrow t c [] := by
  constructor
  · intro h
    fun_cases Simple.compare s s' with
    | case1 => exact absurd h (Comparison.ofBool_ne_undefined _)
    | case2 t c cs t' c' cs' hu =>
      obtain ⟨rfl, rfl, hne, rfl⟩ := hu
      obtain ⟨d, ds, rfl⟩ := List.exists_cons_of_ne_nil hne
      exact ⟨t, c, d, ds, rfl, rfl⟩
    | case3 t c cs t' c' cs' hu =>
      rw [Simple.compare, if_neg hu] at h
      exact absurd h (Comparison.ofBool_ne_undefined _)
    | case4 =>
      rw [Simple.compare] at h
      · exact absurd h (Comparison.ofBool_ne_undefined _)
      · assumption
      · assumption
  · rintro ⟨t, c, d, ds, rfl, rfl⟩
    simp [Simple.compare]

theorem Simple.compare_arrow_cons (t : Text) (c d : Call) (ds : List Call) :
    (arrow t c []).compare (arrow t c (d :: ds)) = .differs := by
  simp [Simple.compare, Comparison.ofBool]

theorem Statement.equivalence : Equivalence fun s s' : Statement => s.compare s' = .equal where
  refl := compare_self
  symm {s s'} h := by
    rcases eq_of_compare h with rfl | ⟨n, d, d', as, rfl, rfl⟩
    · exact h
    · rw [compare, Simple.compare_trigger] at h ⊢
      rwa [Duration.sameOption_comm]
  trans {s s' s''} h h' := by
    rcases eq_of_compare h with rfl | ⟨n, d, d', as, rfl, rfl⟩
    · exact h'
    · rcases eq_of_compare h' with rfl | ⟨n', e, e', as', he, rfl⟩
      · exact h
      · cases he
        rw [compare, Simple.compare_trigger] at h h' ⊢
        exact Duration.sameOption_trans h h'

/-- A statement cannot be compared with another one if they are a chain and a single call of the same
target by the same first call. -/
theorem Statement.compare_eq_undefined_iff {s s' : Statement} : s.compare s' = .undefined ↔
    ∃ t c d ds, s = .simple (.arrow t c (d :: ds)) ∧ s' = .simple (.arrow t c []) := by
  constructor
  · intro h
    cases s with
    | simple s =>
      cases s' with
      | simple s' =>
        obtain ⟨t, c, d, ds, rfl, rfl⟩ := Simple.compare_eq_undefined_iff.1 h
        exact ⟨t, c, d, ds, rfl, rfl⟩
      | block b' => cases h
    | block b =>
      cases s' with
      | simple s' => cases h
      | block b' => exact absurd h (Comparison.ofBool_ne_undefined _)
  · rintro ⟨t, c, d, ds, rfl, rfl⟩
    exact Simple.compare_eq_undefined_iff.2 ⟨t, c, d, ds, rfl, rfl⟩

/-! Documents. -/

/-- What a comparison looks at: the number of nodes in a part of a block, or a statement. -/
inductive Mark where
  | count (n : Nat)
  | statement (s : Statement)

namespace Mark

def compare : Mark → Mark → Comparison
  | count n, count m => if n = m then .equal else .differs
  | statement s, statement s' => s.compare s'
  | _, _ => .differs

inductive Equal : Mark → Mark → Prop where
  | count (n : Nat) : Equal (count n) (count n)
  | statement {s s' : Statement} (h : s.compare s' = .equal) : Equal (statement s) (statement s')

theorem Equal.equivalence : Equivalence Equal where
  refl m := by
    cases m with
    | count n => exact .count n
    | statement s => exact .statement s.compare_self
  symm h := by
    cases h with
    | count n => exact .count n
    | statement h => exact .statement (Statement.equivalence.symm h)
  trans h h' := by
    cases h with
    | count n => exact h'
    | statement h =>
      cases h' with
      | statement h' => exact .statement (Statement.equivalence.trans h h')

theorem Equal.equivalence_forall₂ : Equivalence (List.Forall₂ Equal) where
  refl _ := List.forall₂_same.2 fun m _ => equivalence.refl m
  symm h := h.flip.imp fun _ _ hm => equivalence.symm hm
  trans {ks ms ns} h h' := by
    induction h generalizing ns with
    | nil => exact h'
    | cons hm _ ih =>
      cases h' with
      | cons hm' h' => exact .cons (equivalence.trans hm hm') (ih h')

variable {m n : Mark}

theorem compare_eq_equal_iff : m.compare n = .equal ↔ m.Equal n := by
  constructor
  · intro h
    cases m with
    | count i =>
      cases n with
      | count j =>
        rw [compare, ite_eq_left_iff] at h
        obtain rfl : i = j := by
          by_contra hij
          cases h hij
        exact .count i
      | statement s' => cases h
    | statement s =>
      cases n with
      | count j => cases h
      | statement s' => exact .statement h
  · rintro (n | h)
    · exact if_pos rfl
    · exact h

theorem compare_eq_undefined_iff : m.compare n = .undefined ↔ ∃ t c d ds,
    m = .statement (.simple (.arrow t c (d :: ds))) ∧ n = .statement (.simple (.arrow t c [])) := by
  constructor
  · intro h
    cases m with
    | count i =>
      cases n with
      | count j =>
        rw [compare] at h
        split at h <;> cases h
      | statement s' => cases h
    | statement s =>
      cases n with
      | count j => cases h
      | statement s' =>
        obtain ⟨t, c, d, ds, rfl, rfl⟩ := Statement.compare_eq_undefined_iff.1 h
        exact ⟨t, c, d, ds, rfl, rfl⟩
  · rintro ⟨t, c, d, ds, rfl, rfl⟩
    exact Statement.compare_eq_undefined_iff.2 ⟨t, c, d, ds, rfl, rfl⟩

def compareAll : List Mark → List Mark → Comparison
  | [], [] => .equal
  | m :: ms, n :: ns => (m.compare n).and (compareAll ms ns)
  | _, _ => .differs

variable {ms ns : List Mark}

theorem compareAll_eq_equal_iff : compareAll ms ns = .equal ↔ List.Forall₂ Equal ms ns := by
  induction ms generalizing ns with
  | nil => cases ns <;> simp [compareAll]
  | cons m ms ih =>
    cases ns with
    | nil => simp [compareAll]
    | cons n ns =>
      rw [compareAll, Comparison.and_eq_equal, compare_eq_equal_iff, ih, List.forall₂_cons]

theorem compareAll_append {ps qs : List Mark} (h : List.Forall₂ Equal ps qs) (ms ns : List Mark) :
    compareAll (ps ++ ms) (qs ++ ns) = compareAll ms ns := by
  induction h with
  | nil => rfl
  | cons hm _ ih => rw [List.cons_append, List.cons_append, compareAll, compare_eq_equal_iff.2 hm, ih]; rfl

theorem compareAll_eq_undefined_iff : compareAll ms ns = .undefined ↔ ∃ ps qs m n ms' ns',
    List.Forall₂ Equal ps qs ∧ ms = ps ++ m :: ms' ∧ ns = qs ++ n :: ns' ∧ m.compare n = .undefined := by
  constructor
  · intro h
    induction ms generalizing ns with
    | nil => cases ns <;> cases h
    | cons m ms ih =>
      cases ns with
      | nil => cases h
      | cons n ns =>
        rw [compareAll] at h
        cases hc : m.compare n with
        | equal =>
          rw [hc] at h
          obtain ⟨ps, qs, k, l, ms', ns', hps, rfl, rfl, hkl⟩ := ih h
          exact ⟨m :: ps, n :: qs, k, l, ms', ns', .cons (compare_eq_equal_iff.1 hc) hps, rfl, rfl, hkl⟩
        | differs =>
          rw [hc] at h
          cases h
        | undefined => exact ⟨[], [], m, n, ms, ns, .nil, rfl, rfl, hc⟩
  · rintro ⟨ps, qs, m, n, ms', ns', hps, rfl, rfl, hmn⟩
    rw [compareAll_append hps, compareAll, hmn]
    rfl

end Mark

namespace Node

/-! The marks of a node: how many statements are in its body, its own statement, its branches and its
body. -/

mutual

def marks : Node → List Mark
  | node s _ b es a =>
    .count b.length :: .statement s :: .count es.length ::
      (marksAll es ++ .count a.toList.length :: (marksOption a ++ marksAll b))

def marksAll : List Node → List Mark
  | [] => []
  | n :: ns => marks n ++ marksAll ns

def marksOption : Option Node → List Mark
  | none => []
  | some n => marks n

end

/-- Comparing the marks of a node first compares the node, and then what comes after it. -/
def Marked (n : Node) : Prop := ∀ m ms ms', Mark.compareAll (n.marks ++ ms) (m.marks ++ ms') =
  (n.compare m).and (Mark.compareAll ms ms')

theorem compareAll_marksAll {ns : List Node} (h : ∀ n ∈ ns, n.Marked) {ns' : List Node}
    (hl : ns.length = ns'.length) (ms ms' : List Mark) :
    Mark.compareAll (marksAll ns ++ ms) (marksAll ns' ++ ms') =
      (compareAll ns ns').and (Mark.compareAll ms ms') := by
  induction ns generalizing ns' with
  | nil =>
    obtain rfl := List.length_eq_zero_iff.1 hl.symm
    rfl
  | cons n ns ih =>
    cases ns' with
    | nil => cases hl
    | cons n' ns' =>
      rw [marksAll, marksAll, List.append_assoc, List.append_assoc, h n List.mem_cons_self,
        ih (fun m hm => h m (List.mem_cons_of_mem n hm)) (Nat.succ.inj hl), compareAll, Comparison.and_assoc]

theorem compareAll_marksOption {a : Option Node} (h : ∀ n ∈ a.toList, n.Marked) (a' : Option Node)
    (ms ms' : List Mark) :
    Mark.compareAll (.count a.toList.length :: (marksOption a ++ ms))
        (.count a'.toList.length :: (marksOption a' ++ ms')) =
      (compareOption a a').and (Mark.compareAll ms ms') := by
  cases a with
  | none => cases a' <;> rfl
  | some n =>
    cases a' with
    | none => rfl
    | some n' => exact h n (by simp) n' ms ms'

theorem marked (n : Node) : n.Marked := by
  induction n using Node.induct with
  | node s o b es a hb hes ha =>
    rintro ⟨s', o', b', es', a'⟩ ms ms'
    rw [marks, marks, Node.compare]
    simp only [List.cons_append, List.append_assoc]
    rw [Mark.compareAll, Mark.compareAll, Mark.compareAll, Mark.compare, Mark.compare, Mark.compare]
    -- a number that differs decides before the marks of the members could get out of step
    by_cases hlb : b.length = b'.length
    · by_cases hle : es.length = es'.length
      · rw [if_pos hlb, if_pos hle, if_pos hlb, if_pos hle, compareAll_marksAll hes hle,
          compareAll_marksOption ha, compareAll_marksAll hb hlb]
        simp only [Comparison.and_assoc, Comparison.equal_and]
      · rw [if_pos hlb, if_neg hle, if_pos hlb, if_neg hle, Comparison.and_assoc]
        rfl
    · rw [if_neg hlb, if_neg hlb]
      rfl

end Node

namespace Document

def marks (d : Document) : List Mark := .count d.nodes.length :: Node.marksAll d.nodes

theorem compareAll_marks (d e : Document) : Mark.compareAll d.marks e.marks = d.compare e := by
  rw [marks, marks, Mark.compareAll, Mark.compare, compare]
  by_cases h : d.nodes.length = e.nodes.length
  · have hnodes := Node.compareAll_marksAll (fun n _ => n.marked) h [] []
    rw [List.append_nil, List.append_nil] at hnodes
    rw [if_pos h, if_pos h, hnodes, Comparison.equal_and]
    cases Node.compareAll d.nodes e.nodes <;> rfl
  · rw [if_neg h, if_neg h]
    rfl

theorem compare_eq_equal_iff_marks {d e : Document} :
    d.compare e = .equal ↔ List.Forall₂ Mark.Equal d.marks e.marks := by
  rw [← compareAll_marks, Mark.compareAll_eq_equal_iff]

theorem equivalence : Equivalence fun d e : Document => d.compare e = .equal := by
  simp only [compare_eq_equal_iff_marks]
  exact Mark.Equal.equivalence_forall₂.comap marks

theorem compare_eq_undefined_iff {d e : Document} : d.compare e = .undefined ↔ ∃ ps qs t c k ks ms ns,
    List.Forall₂ Mark.Equal ps qs ∧ d.marks = ps ++ .statement (.simple (.arrow t c (k :: ks))) :: ms ∧
    e.marks = qs ++ .statement (.simple (.arrow t c [])) :: ns := by
  rw [← compareAll_marks, Mark.compareAll_eq_undefined_iff]
  constructor
  · rintro ⟨ps, qs, m, n, ms, ns, hps, hd, he, hmn⟩
    obtain ⟨t, c, k, ks, rfl, rfl⟩ := Mark.compare_eq_undefined_iff.1 hmn
    exact ⟨ps, qs, t, c, k, ks, ms, ns, hps, hd, he⟩
  · rintro ⟨ps, qs, t, c, k, ks, ms, ns, hps, hd, he⟩
    exact ⟨ps, qs, _, _, ms, ns, hps, hd, he, Mark.compare_eq_undefined_iff.2 ⟨t, c, k, ks, rfl, rfl⟩⟩

/-- Where a comparison fails the documents differ the other way round. -/
theorem compare_differs_of_undefined {d e : Document} (h : d.compare e = .undefined) :
    e.compare d = .differs := by
  obtain ⟨ps, qs, t, c, k, ks, ms, ns, hps, hd, he⟩ := compare_eq_undefined_iff.1 h
  have hqs : List.Forall₂ Mark.Equal qs ps := Mark.Equal.equivalence_forall₂.symm hps
  have hmark : Mark.compare (.statement (.simple (.arrow t c []))) (.statement (.simple (.arrow t c (k :: ks)))) =
      .differs := Simple.compare_arrow_cons t c k ks
  rw [← compareAll_marks, hd, he, Mark.compareAll_append hqs, Mark.compareAll, hmark]
  rfl

/-- Equality of documents is reflexive, symmetric and transitive. A comparison fails exactly if the first
marks that are not equal are a chain of calls on the left and, on the right, a single call of the same
target by the same first call; then the documents differ the other way round. -/
theorem compare_equivalence (a b c : Text) :
    (Document.read a).compare (Document.read a) = .equal ∧
    ((Document.read a).compare (Document.read b) = .equal ↔
      (Document.read b).compare (Document.read a) = .equal) ∧
    ((Document.read a).compare (Document.read b) = .equal →
      (Document.read b).compare (Document.read c) = .equal →
      (Document.read a).compare (Document.read c) = .equal) ∧
    ((Document.read a).compare (Document.read b) = .undefined ↔ ∃ ps qs t k l ls ms ns,
      List.Forall₂ Mark.Equal ps qs ∧
      (Document.read a).marks = ps ++ .statement (.simple (.arrow t k (l :: ls))) :: ms ∧
      (Document.read b).marks = qs ++ .statement (.simple (.arrow t k [])) :: ns) ∧
    ((Document.read a).compare (Document.read b) = .undefined →
      (Document.read b).compare (Document.read a) = .differs) :=
  ⟨equivalence.refl _, ⟨equivalence.symm, equivalence.symm⟩, equivalence.trans,
    compare_eq_undefined_iff, compare_differs_of_undefined⟩

/-- A chain of two calls and its first call cannot be compared, though they differ the other way round. -/
theorem compare_chain_undefined :
    (Document.read "s -> a(1) -> b(2)\n".toList).compare (Document.read "s -> a(1)\n".toList) = .undefined ∧
    (Document.read "s -> a(1)\n".toList).compare (Document.read "s -> a(1) -> b(2)\n".toList) = .differs := by
  decide +kernel

end Document

end Devalang
