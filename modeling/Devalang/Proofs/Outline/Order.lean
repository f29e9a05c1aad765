import Devalang.Proofs.Outline.Walk
import Mathlib.Data.List.Pairwise

/-! The walk over the tree of an outline meets the statements in their order exactly if no statement
is added to a block, or to an earlier part of it, that the statements before it have left. -/
namespace Devalang

/-- What belongs to the owner is not inside the statement `k`, which comes after the owner. -/
def Outside (o : Option Nat) (k : Nat) : Prop := ∀ j, o = some j → j < k

def Role.rank : Role → Nat
  | body => 0
  | elseIf => 1
  | alternate => 2

/-- A statement with the place `q` may come after the statement `i`, whose place is `p`: it belongs to
no block that had been opened before `i` but does not hold it, and to no earlier part of a block. -/
structure Role.Follows (i : Nat) (p q : Option Nat × Role) : Prop where
  inside : ∀ k, q.1 = some k → Outside p.1 k → i ≤ k
  rank : q.1 = p.1 → p.2.rank ≤ q.2.rank

/-- Every one of the places, the first of which has the given index, may follow those before it. -/
def InOrder : Nat → List (Option Nat × Role) → Prop
  | _, [] => True
  | i, p :: ps => (∀ q ∈ ps, Role.Follows i p q) ∧ InOrder (i + 1) ps

theorem inOrder_cons {i : Nat} {p : Option Nat × Role} {ps : List (Option Nat × Role)} :
    InOrder i (p :: ps) ↔ (∀ q ∈ ps, Role.Follows i p q) ∧ InOrder (i + 1) ps := Iff.rfl

theorem inOrder_iff {s : Nat} {ps : List (Option Nat × Role)} :
    InOrder s ps ↔ ∀ i j p q, i < j → ps[i]? = some p → ps[j]? = some q → Role.Follows (s + i) p q := by
  induction ps generalizing s with
  | nil => simp [InOrder]
  | cons p ps ih =>
    rw [inOrder_cons, ih]
    constructor
    · rintro ⟨hp, hps⟩ i j a b hij ha hb
      obtain ⟨j, rfl⟩ : ∃ k, j = k + 1 := ⟨j - 1, by omega⟩
      rw [List.getElem?_cons_succ] at hb
      cases i with
      | zero =>
        obtain rfl : p = a := by simpa using ha
        exact hp b (List.mem_of_getElem? hb)
      | succ i =>
        have h := hps i j a b (by omega) (by simpa using ha) hb
        rwa [Nat.add_right_comm] at h
    · intro h
      constructor
      · intro q hq
        obtain ⟨j, hj⟩ := List.mem_iff_getElem?.1 hq
        exact h 0 (j + 1) p q (Nat.succ_pos j) rfl (by simpa using hj)
      · intro i j a b hij ha hb
        have hf := h (i + 1) (j + 1) a b (by omega) (by simpa using ha) (by simpa using hb)
        rwa [← Nat.add_assoc, Nat.add_right_comm] at hf

namespace Members

def part (m : Members) (o : Option Nat) : Role → List Node
  | .body => m.body o
  | .elseIf => m.elseIfs o
  | .alternate => (m.alternate o).toList

variable {m : Members} {o o' : Option Nat} {r r' : Role} {n : Node}

theorem part_add_ne (h : (o', r') ≠ (o, r)) : (m.add o r n).part o' r' = m.part o' r' := by
  cases r <;> cases r' <;> simp_all [add, part]

theorem mem_part_add_self (h : r = .alternate → m.alternate o = Option.none) :
    n ∈ (m.add o r n).part o r := by
  cases r <;> simp_all [add, part]

theorem walkOption_eq (a : Option Node) : Node.walkOption a = Node.walkAll a.toList := by
  cases a <;> simp [Node.walkOption, Node.walkAll]

theorem below_eq : m.below o =
    Node.walkAll (m.part o .body) ++ Node.walkAll (m.part o .elseIf) ++
      Node.walkAll (m.part o .alternate) := by
  rw [below, walkOption_eq]
  rfl

/-- The walk over the parts of a block that come before the given one. -/
def before (m : Members) (o : Option Nat) : Role → List Node
  | .body => []
  | .elseIf => Node.walkAll (m.part o .body)
  | .alternate => Node.walkAll (m.part o .body) ++ Node.walkAll (m.part o .elseIf)

/-- The walk over the given part of a block and the parts that come after it. -/
def since (m : Members) (o : Option Nat) : Role → List Node
  | .body => m.below o
  | .elseIf => Node.walkAll (m.part o .elseIf) ++ Node.walkAll (m.part o .alternate)
  | .alternate => Node.walkAll (m.part o .alternate)

theorem before_append_since : m.before o r ++ m.since o r = m.below o := by
  cases r <;> simp [before, since, below_eq]

theorem below_add (h : r = .alternate → m.alternate o = Option.none) :
    (m.add o r n).below o = m.before o r ++ (n.walk ++ m.since o r) := by
  cases r with
  | body => simp [below_eq, add, part, before, since, Node.walkAll]
  | elseIf => simp [below_eq, add, part, before, since, Node.walkAll]
  | alternate => simp [below_eq, add, part, before, since, Node.walkAll, h rfl]

end Members

namespace Outline
variable {i : Nat} {es : List Entry} {o : Option Nat} {r : Role}

theorem alternate_of_placed {e : Entry} (h : Placed i ((e :: es).map Entry.place))
    (hr : e.role = .alternate) : (members (i + 1) es).alternate e.owner = none := by
  by_contra hne
  exact h.2.2.1 hr (by simpa [Entry.place, hr] using place_of_alternate hne)

theorem part_members_eq_nil_iff (h : Placed i (es.map Entry.place)) :
    (members i es).part o r = [] ↔ (o, r) ∉ es.map Entry.place := by
  induction es generalizing i with
  | nil => cases r <;> simp [members, Members.none, Members.part]
  | cons e es ih =>
    have halt := alternate_of_placed h
    have hi := ih h.2.2.2
    rw [members, List.map_cons, List.mem_cons, not_or]
    by_cases he : (o, r) = e.place
    · obtain ⟨rfl, rfl⟩ : o = e.owner ∧ r = e.role := by simpa [Entry.place] using he
      have hm := Members.mem_part_add_self (n := node (members (i + 1) es) i e) halt
      exact iff_of_false (List.ne_nil_of_mem hm) fun hn => hn.1 rfl
    · rw [Members.part_add_ne he, hi]
      exact (and_iff_right he).symm

theorem walkAll_eq_nil_iff {ns : List Node} : Node.walkAll ns = [] ↔ ns = [] := by
  cases ns with
  | nil => simp [Node.walkAll]
  | cons n ns =>
    cases n
    simp [Node.walkAll, Node.walk]

theorem below_members_eq_nil_iff (h : Placed i (es.map Entry.place)) :
    (members i es).below o = [] ↔ ∀ e ∈ es, e.owner ≠ o := by
  simp only [Members.below_eq, List.append_eq_nil_iff, walkAll_eq_nil_iff, part_members_eq_nil_iff h,
    List.mem_map, not_exists, not_and]
  constructor
  · rintro ⟨⟨hb, hi⟩, ha⟩ e he rfl
    cases hr : e.role with
    | body => exact hb e he (by rw [Entry.place, hr])
    | elseIf => exact hi e he (by rw [Entry.place, hr])
    | alternate => exact ha e he (by rw [Entry.place, hr])
  · intro hall
    refine ⟨⟨?_, ?_⟩, ?_⟩ <;> exact fun e he hp => hall e he (congrArg Prod.fst hp)

theorem before_members_eq_nil_iff (h : Placed i (es.map Entry.place)) :
    (members i es).before o r = [] ↔ ∀ e ∈ es, e.owner = o → r.rank ≤ e.role.rank := by
  have hpart (r' : Role) : Node.walkAll ((members i es).part o r') = [] ↔
      ∀ e ∈ es, e.owner = o → e.role ≠ r' := by
    rw [walkAll_eq_nil_iff, part_members_eq_nil_iff h]
    simp [Entry.place]
  cases r with
  | body => simp [Members.before, Role.rank]
  | elseIf =>
    rw [Members.before, hpart]
    refine forall₃_congr fun e _ _ => ?_
    cases e.role <;> simp [Role.rank]
  | alternate =>
    rw [Members.before, List.append_eq_nil_iff, hpart, hpart, ← forall_and]
    refine forall_congr' fun e => ?_
    rw [← forall_and]
    refine forall_congr' fun _ => ?_
    rw [← forall_and]
    refine forall_congr' fun _ => ?_
    cases e.role <;> simp [Role.rank]

theorem cons_eq_append_cons_iff {α : Type} {a : α} {as x y : List α} (h : (a :: as).Nodup) :
    x ++ a :: y = a :: as ↔ x = [] ∧ y = as := by
  constructor
  · intro he
    cases x with
    | nil => exact ⟨rfl, (List.cons.inj he).2⟩
    | cons b x =>
      obtain ⟨rfl, ht⟩ := List.cons.inj he
      exact absurd (ht ▸ List.mem_append_right x List.mem_cons_self) (List.nodup_cons.1 h).1
  · rintro ⟨rfl, rfl⟩
    rfl

/-- What is open, innermost first: each of the owners comes after all that are further out. -/
def Descending (owners : List (Option Nat)) : Prop :=
  owners.Pairwise fun o o' => ∃ k, o = some k ∧ Outside o' k

section Open
variable {e : Entry} {inner outer owners : List (Option Nat)}

theorem Descending.cons (h : Descending owners) (hi : ∀ o ∈ owners, Outside o i) :
    Descending (some i :: owners) :=
  List.pairwise_cons.2 ⟨fun o ho => ⟨i, rfl, hi o ho⟩, h⟩

theorem Descending.ne_of_mem (h : Descending (inner ++ o :: outer)) {o' : Option Nat}
    (ho : o' ∈ inner ++ outer) : o' ≠ o := by
  obtain ⟨-, hd, hio⟩ := List.pairwise_append.1 h
  rintro rfl
  rcases List.mem_append.1 ho with ho | ho
  · obtain ⟨k, hk, hlt⟩ := hio _ ho _ List.mem_cons_self
    exact absurd (hlt k hk) (Nat.lt_irrefl k)
  · obtain ⟨k, hk, hlt⟩ := (List.pairwise_cons.1 hd).1 _ ho
    exact absurd (hlt k hk) (Nat.lt_irrefl k)

/-- Of the open blocks the further in ones are those that do not hold the others. -/
theorem Descending.mem_inner_iff (h : Descending (inner ++ o :: outer)) {k : Nat}
    (hk : some k ∈ inner ++ o :: outer) : some k ∈ inner ↔ Outside o k := by
  obtain ⟨-, hd, hio⟩ := List.pairwise_append.1 h
  constructor
  · intro hin
    obtain ⟨j, hj, hlt⟩ := hio _ hin _ List.mem_cons_self
    cases hj
    exact hlt
  · intro hout
    rcases List.mem_append.1 hk with hin | hk
    · exact hin
    · exfalso
      rcases List.mem_cons.1 hk with rfl | hk
      · exact Nat.lt_irrefl k (hout k rfl)
      · obtain ⟨j, rfl, hlt⟩ := (List.pairwise_cons.1 hd).1 _ hk
        exact Nat.lt_asymm (hout j rfl) (hlt k rfl)

/-- Nothing is added any more to the blocks further in and to the earlier parts of the block of `e`
exactly if what comes after `e` may follow it. -/
theorem left_eq_nil_iff (hd : Descending (inner ++ e.owner :: outer))
    (hi : ∀ o ∈ inner ++ e.owner :: outer, Outside o i) (h : Placed (i + 1) (es.map Entry.place))
    (hc : ∀ f ∈ es, Outside f.owner i → f.owner ∈ inner ++ e.owner :: outer) :
    inner.flatMap (members (i + 1) es).below ++ (members (i + 1) es).before e.owner e.role = [] ↔
      ∀ q ∈ es.map Entry.place, Role.Follows i e.place q := by
  rw [List.append_eq_nil_iff, List.flatMap_eq_nil_iff, before_members_eq_nil_iff h, List.forall_mem_map]
  simp only [below_members_eq_nil_iff h]
  constructor
  · rintro ⟨hin, hrank⟩ f hf
    refine ⟨fun k hk hout => ?_, hrank f hf⟩
    by_contra hlt
    have hmem : some k ∈ inner ++ e.owner :: outer := by
      rw [← show f.owner = some k from hk]
      refine hc f hf fun j hj => ?_
      obtain rfl : j = k := by simpa [Entry.place, hj] using hk
      omega
    exact hin _ ((hd.mem_inner_iff hmem).2 hout) f hf hk
  · intro hall
    refine ⟨fun o ho f hf hown => ?_, fun f hf => (hall f hf).rank⟩
    obtain ⟨k, rfl, hout⟩ := (List.pairwise_append.1 hd).2.2 o ho _ List.mem_cons_self
    have hle := (hall f hf).inside k hown hout
    have hlt := hi (some k) (List.mem_append_left _ ho) k rfl
    omega

theorem flatMap_below_members (hd : Descending (inner ++ e.owner :: outer))
    (h : Placed i ((e :: es).map Entry.place)) :
    (inner ++ e.owner :: outer).flatMap (members i (e :: es)).below =
      inner.flatMap (members (i + 1) es).below ++ (members (i + 1) es).before e.owner e.role ++
        node (members (i + 1) es) i e :: ((members (i + 1) es).below (some i) ++
          (members (i + 1) es).since e.owner e.role ++ outer.flatMap (members (i + 1) es).below) := by
  let m := members (i + 1) es
  have hsame : ∀ o ∈ inner ++ outer, (members i (e :: es)).below o = m.below o :=
    fun o ho => Members.below_add_ne (hd.ne_of_mem ho)
  have hown : (members i (e :: es)).below e.owner = m.before e.owner e.role ++
      (node m i e :: m.below (some i) ++ m.since e.owner e.role) :=
    Members.below_add (alternate_of_placed h)
  rw [List.flatMap_append, List.flatMap_cons, hown,
    List.flatMap_congr fun o ho => hsame o (List.mem_append_left _ ho),
    List.flatMap_congr fun o ho => hsame o (List.mem_append_right _ ho)]
  simp [m]

theorem owner_mem_of_left (h : Placed (i + 1) (es.map Entry.place))
    (hc : ∀ f ∈ es, Outside f.owner i → f.owner ∈ inner ++ e.owner :: outer)
    (hin : inner.flatMap (members (i + 1) es).below = []) :
    ∀ f ∈ es, Outside f.owner (i + 1) → f.owner ∈ some i :: e.owner :: outer := by
  intro f hf hout
  by_cases hfi : f.owner = some i
  · simp [hfi]
  refine List.mem_cons_of_mem _ ?_
  have hout' : Outside f.owner i := by
    intro j hj
    have hlt := hout j hj
    have hne : j ≠ i := fun he => hfi (he ▸ hj)
    omega
  rcases List.mem_append.1 (hc f hf hout') with hi | ho
  · exact absurd rfl ((below_members_eq_nil_iff h).1 (List.flatMap_eq_nil_iff.1 hin _ hi) f hf)
  · exact ho

/-- The walks over what belongs to the open blocks, the innermost one first, meet the entries in their
order exactly if these are in order. -/
theorem walk_open_eq_iff (h : Placed i (es.map Entry.place))
    (hn : (es.map Entry.shown).Nodup) (hd : Descending owners) (hi : ∀ o ∈ owners, Outside o i)
    (hc : ∀ e ∈ es, Outside e.owner i → e.owner ∈ owners) :
    (owners.flatMap (members i es).below).map Node.shown = es.map Entry.shown ↔
      InOrder i (es.map Entry.place) := by
  induction es generalizing i owners with
  | nil =>
    simp [members, Members.below, Members.none, Node.walkAll, Node.walkOption, InOrder]
  | cons e es ih =>
    obtain ⟨inner, outer, rfl⟩ := List.append_of_mem (hc e (by simp) h.1)
    have hc' : ∀ f ∈ es, Outside f.owner i → f.owner ∈ inner ++ e.owner :: outer :=
      fun f hf => hc f (List.mem_cons_of_mem e hf)
    rw [flatMap_below_members hd h, List.map_append, List.map_cons, List.map_cons]
    refine (cons_eq_append_cons_iff hn).trans ?_
    rw [List.map_eq_nil_iff, List.map_cons, inOrder_cons, ← left_eq_nil_iff hd hi h.2.2.2 hc']
    refine and_congr_right fun hl => ?_
    obtain ⟨hin, hb⟩ := List.append_eq_nil_iff.1 hl
    have hright : (members (i + 1) es).below (some i) ++ (members (i + 1) es).since e.owner e.role ++
        outer.flatMap (members (i + 1) es).below =
          (some i :: e.owner :: outer).flatMap (members (i + 1) es).below := by
      have hs := Members.before_append_since (m := members (i + 1) es) (o := e.owner) (r := e.role)
      rw [hb, List.nil_append] at hs
      simp [hs]
    rw [hright]
    refine ih h.2.2.2 (List.nodup_cons.1 hn).2 ?_ ?_ (owner_mem_of_left h.2.2.2 hc' hin)
    · refine Descending.cons (List.pairwise_append.1 hd).2.1 fun o ho => ?_
      exact hi o (List.mem_append_right _ ho)
    · intro o ho j hj
      rcases List.mem_cons.1 ho with rfl | ho
      · cases hj
        exact Nat.lt_succ_self i
      · exact Nat.lt_succ_of_lt (hi o (List.mem_append_right _ ho) j hj)

end Open

/-- The walk over the tree meets the statements in the order of the outline exactly if they are in
order. -/
theorem walk_eq_iff {o : Outline} (h : Placed 0 (o.toList.map Entry.place))
    (hn : (o.toList.map Entry.shown).Nodup) :
    (Node.walkAll o.nodes).map Node.shown = o.toList.map Entry.shown ↔
      InOrder 0 (o.toList.map Entry.place) := by
  have hopen := @walk_open_eq_iff 0 o.toList [none] h hn (List.pairwise_singleton _ _)
    (fun o ho j hj => by simp [List.mem_singleton.1 ho] at hj) fun e he hout => by
      cases hown : e.owner with
      | none => simp
      | some k => exact absurd (hout k hown) (Nat.not_lt_zero k)
  rw [← hopen]
  simp [Members.below, branches_members_none h, Node.walkAll, Node.walkOption, nodes]

end Outline

end Devalang
