import Devalang.Outline
import Mathlib.Data.List.Perm.Basic

/-! The walk over the tree of an outline meets every statement of the outline exactly once. -/
namespace Devalang

/-- The place of a statement in the tree: the block it belongs to, and what it is to that block. -/
def Entry.place (e : Entry) : Option Nat × Role := (e.owner, e.role)

def Entry.shown (e : Entry) : Statement × Option Origin := (e.statement, e.origin)

def Node.shown (n : Node) : Statement × Option Origin := (n.statement, n.origin)

/-- The places, the first of which has the given index, make a tree: every statement belongs to an
earlier one or to the body of the document, and no block has two `else` branches. -/
def Placed : Nat → List (Option Nat × Role) → Prop
  | _, [] => True
  | i, p :: ps =>
    (∀ k, p.1 = some k → k < i) ∧ (p.1 = none → p.2 = .body) ∧ (p.2 = .alternate → p ∉ ps) ∧
      Placed (i + 1) ps

theorem placed_concat {i : Nat} {ps : List (Option Nat × Role)} {p : Option Nat × Role} :
    Placed i (ps ++ [p]) ↔ Placed i ps ∧ (∀ k, p.1 = some k → k < i + ps.length) ∧
      (p.1 = none → p.2 = .body) ∧ (p.2 = .alternate → p ∉ ps) := by
  induction ps generalizing i with
  | nil => simp [Placed]
  | cons q ps ih =>
    have hi : i + 1 + ps.length = i + (q :: ps).length := by simp only [List.length_cons]; omega
    simp only [List.cons_append, Placed, ih, hi, List.mem_append, List.mem_cons, List.not_mem_nil,
      or_false]
    constructor
    · rintro ⟨hk, hn, ha, hp, hk', hn', ha'⟩
      refine ⟨⟨hk, hn, fun hq hm => ha hq (Or.inl hm), hp⟩, hk', hn', ?_⟩
      rintro hpa (rfl | hm)
      · exact ha hpa (Or.inr rfl)
      · exact ha' hpa hm
    · rintro ⟨⟨hk, hn, ha, hp⟩, hk', hn', ha'⟩
      refine ⟨hk, hn, ?_, hp, hk', hn', fun hpa hm => ha' hpa (Or.inr hm)⟩
      rintro hq (hm | rfl)
      · exact ha hq hm
      · exact ha' hq (Or.inl rfl)

namespace Members
variable {m : Members} {o : Option Nat} {r : Role} {n : Node}

def below (m : Members) (o : Option Nat) : List Node :=
  Node.walkAll (m.body o) ++ Node.walkAll (m.elseIfs o) ++ Node.walkOption (m.alternate o)

theorem below_add_self (h : r = .alternate → m.alternate o = Option.none) :
    ((m.add o r n).below o).Perm (n.walk ++ m.below o) := by
  cases r with
  | body => simp [add, below, Node.walkAll]
  | elseIf =>
    simp only [add, below, if_true, Node.walkAll, List.append_assoc]
    exact List.perm_append_comm_assoc _ _ _
  | alternate =>
    simp only [add, below, if_true, h rfl, Option.getD_none, Node.walkOption, List.append_nil]
    exact List.perm_append_comm

theorem below_add_ne {o' : Option Nat} (h : o' ≠ o) : (m.add o r n).below o' = m.below o' := by
  cases r <;> simp [add, below, h]

/-- The statements below the document and below the blocks of an index less than `i`. -/
def pending (m : Members) (i : Nat) : List Node :=
  m.below Option.none ++ (List.range i).flatMap fun k => m.below (some k)

theorem pending_succ (i : Nat) : m.pending (i + 1) = m.pending i ++ m.below (some i) := by
  simp [pending, List.range_succ, List.flatMap_append]

theorem pending_add {i : Nat} (ho : ∀ k, o = some k → k < i)
    (h : r = .alternate → m.alternate o = Option.none) :
    ((m.add o r n).pending i).Perm (n.walk ++ m.pending i) := by
  cases o with
  | none =>
    have hs : ∀ k, (m.add Option.none r n).below (some k) = m.below (some k) :=
      fun k => below_add_ne (by simp)
    simp only [pending, hs]
    rw [← List.append_assoc]
    exact (below_add_self h).append_right _
  | some k =>
    have hn : (m.add (some k) r n).below Option.none = m.below Option.none := below_add_ne (by simp)
    induction i with
    | zero => exact absurd (ho k rfl) (by omega)
    | succ i ih =>
      rw [pending_succ, pending_succ, ← List.append_assoc]
      by_cases hk : k = i
      · subst hk
        have hp : (m.add (some k) r n).pending k = m.pending k := by
          simp only [pending, hn]
          congr 1
          apply List.flatMap_congr
          intro j hj
          have hlt := List.mem_range.1 hj
          exact below_add_ne (by simp only [ne_eq, Option.some.injEq]; omega)
        rw [hp]
        have hb := (below_add_self (n := n) h).append_left (m.pending k)
        refine hb.trans ?_
        rw [← List.append_assoc]
        exact List.perm_append_comm.append_right _
      · have hlt : ∀ j, some k = some j → j < i := by
          intro j hj
          have := ho j hj
          cases hj
          omega
        have hb : (m.add (some k) r n).below (some i) = m.below (some i) :=
          below_add_ne (by simp only [ne_eq, Option.some.injEq]; omega)
        rw [hb]
        exact (ih hlt).append_right _

end Members

namespace Outline

theorem place_of_alternate {i : Nat} {es : List Entry} {o : Option Nat}
    (h : (members i es).alternate o ≠ none) : (o, .alternate) ∈ es.map Entry.place := by
  induction es generalizing i with
  | nil => simp [members, Members.none] at h
  | cons e es ih =>
    by_cases he : e.owner = o ∧ e.role = .alternate
    · simp [Entry.place, ← he.1, he.2]
    · have ht : (members (i + 1) es).alternate o ≠ none := by
        rw [members] at h
        cases hr : e.role with
        | body | elseIf => simpa [Members.add, hr] using h
        | alternate =>
          have ho : o ≠ e.owner := fun hoe => he ⟨hoe.symm, hr⟩
          simpa [Members.add, hr, ho] using h
      exact List.mem_cons_of_mem _ (ih ht)

theorem place_of_elseIf {i : Nat} {es : List Entry} {o : Option Nat}
    (h : (members i es).elseIfs o ≠ []) : (o, .elseIf) ∈ es.map Entry.place := by
  induction es generalizing i with
  | nil => simp [members, Members.none] at h
  | cons e es ih =>
    by_cases he : e.owner = o ∧ e.role = .elseIf
    · simp [Entry.place, ← he.1, he.2]
    · have ht : (members (i + 1) es).elseIfs o ≠ [] := by
        rw [members] at h
        cases hr : e.role with
        | body | alternate => simpa [Members.add, hr] using h
        | elseIf =>
          have ho : o ≠ e.owner := fun hoe => he ⟨hoe.symm, hr⟩
          simpa [Members.add, hr, ho] using h
      exact List.mem_cons_of_mem _ (ih ht)

theorem role_of_placed {i : Nat} {ps : List (Option Nat × Role)} {r : Role} (h : Placed i ps)
    (hm : (none, r) ∈ ps) : r = .body := by
  induction ps generalizing i with
  | nil => simp at hm
  | cons p ps ih =>
    obtain ⟨-, hn, -, hp⟩ := h
    rcases List.mem_cons.1 hm with rfl | hm
    · exact hn rfl
    · exact ih hp hm

theorem pending_members_perm {i : Nat} {es : List Entry} (h : Placed i (es.map Entry.place)) :
    (((members i es).pending i).map Node.shown).Perm (es.map Entry.shown) := by
  induction es generalizing i with
  | nil => simp [members, Members.pending, Members.below, Members.none, Node.walkAll, Node.walkOption]
  | cons e es ih =>
    obtain ⟨hk, -, ha, hp⟩ := h
    let m := members (i + 1) es
    have halt : e.role = .alternate → m.alternate e.owner = none := by
      intro hr
      by_contra hne
      have hm := place_of_alternate hne
      exact ha hr (by simpa [Entry.place, hr] using hm)
    have hadd := (Members.pending_add (n := node m i e) hk halt).map Node.shown
    have hwalk : (node m i e).walk = node m i e :: m.below (some i) := rfl
    have hi := ih hp
    rw [Members.pending_succ] at hi
    refine hadd.trans ?_
    rw [hwalk, List.cons_append, List.map_cons, List.map_cons]
    refine List.Perm.cons _ (List.Perm.trans ?_ hi)
    exact List.perm_append_comm.map _

theorem branches_members_none {i : Nat} {es : List Entry} (h : Placed i (es.map Entry.place)) :
    (members i es).elseIfs none = [] ∧ (members i es).alternate none = none := by
  constructor
  · by_contra hne
    cases role_of_placed h (place_of_elseIf hne)
  · by_contra hne
    cases role_of_placed h (place_of_alternate hne)

/-- The walk over the tree meets every statement of the outline exactly once. -/
theorem walk_perm {o : Outline} (h : Placed 0 (o.toList.map Entry.place)) :
    ((Node.walkAll o.nodes).map Node.shown).Perm (o.toList.map Entry.shown) := by
  have hm := pending_members_perm h
  simpa [Members.pending, Members.below, branches_members_none h, Node.walkAll, Node.walkOption,
    nodes] using hm

end Outline

end Devalang
