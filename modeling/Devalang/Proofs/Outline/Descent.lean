import Devalang.Proofs.Outline.Listing
import Mathlib.Logic.Relation

/-! The nodes of the tree of an outline are the nodes of its entries. What belongs to a node are the
entries that name it as their owner, in their order, and what is below it are the entries that it
holds. -/
namespace Devalang

namespace Outline
variable {o : Outline} {i j k : Nat} {e : Entry} {es : List Entry} {n x : Node} {r : Role}

/-- The entry `j` belongs to the entry `k`. -/
def Owns (o : Outline) (k j : Nat) : Prop := ∃ e, o[j]? = some e ∧ e.owner = some k

/-- The entry `j` is the entry `k` itself or is inside of it. -/
def Holds (o : Outline) : Nat → Nat → Prop := Relation.ReflTransGen o.Owns

theorem Holds.le (ho : ∀ (i : Nat) (e : Entry), o[i]? = some e → Outside e.owner i)
    (h : o.Holds k j) : k ≤ j := by
  induction h with
  | refl => exact Nat.le_refl k
  | tail _ hown ih =>
    obtain ⟨e, he, hk⟩ := hown
    exact Nat.le_trans ih (Nat.le_of_lt (ho _ e he _ hk))

def placedAt (o : Outline) (p : Option Nat × Role) : List (Entry × Nat) :=
  o.toList.zipIdx.filter fun x => x.1.place = p

theorem mem_placedAt {p : Option Nat × Role} : (e, j) ∈ o.placedAt p ↔ o[j]? = some e ∧ e.place = p := by
  rw [placedAt, List.mem_filter, List.mem_zipIdx_iff_getElem?, Array.getElem?_toList, decide_eq_true_eq]

theorem pairwise_placedAt (o : Outline) (p : Option Nat × Role) :
    (o.placedAt p).Pairwise fun x y => x.2 < y.2 := by
  have h : (o.toList.zipIdx.map Prod.snd).Pairwise (· < ·) := by
    rw [List.zipIdx_map_snd]
    exact List.pairwise_lt_range'
  exact (List.pairwise_map.1 h).sublist List.filter_sublist

theorem node_congr {m m' : Members} (h : ∀ r, m.part (some i) r = m'.part (some i) r) :
    node m i e = node m' i e := by
  have hbody : m.body (some i) = m'.body (some i) := h .body
  have helse : m.elseIfs (some i) = m'.elseIfs (some i) := h .elseIf
  have halt : (m.alternate (some i)).toList = (m'.alternate (some i)).toList := h .alternate
  have halt' : m.alternate (some i) = m'.alternate (some i) := by
    cases hm : m.alternate (some i) <;> cases hm' : m'.alternate (some i) <;> simp_all
  rw [node, node, hbody, helse, halt']

/-- What belongs to a block in a role are the nodes of the entries with that place. `m` are the members
of all entries, of which `es` are the last ones. -/
theorem part_members_eq {m : Members} {p : Option Nat} (h : Placed i (es.map Entry.place))
    (hm : ∀ j, i ≤ j → ∀ r, m.part (some j) r = (members i es).part (some j) r) :
    (members i es).part p r =
      ((es.zipIdx i).filter fun x => x.1.place = (p, r)).map fun x => node m x.2 x.1 := by
  induction es generalizing i with
  | nil => cases r <;> simp [members, Members.none, Members.part]
  | cons e es ih =>
    have hlt : Outside e.owner i := h.1
    have hlater (j : Nat) (hj : i ≤ j) (r : Role) :
        (members i (e :: es)).part (some j) r = (members (i + 1) es).part (some j) r := by
      refine Members.part_add_ne fun he => ?_
      have hji := hlt j (Prod.mk.inj he).1.symm
      omega
    have hnode : node (members (i + 1) es) i e = node m i e :=
      node_congr fun r => by rw [hm i (Nat.le_refl i) r, hlater i (Nat.le_refl i) r]
    have hrest := ih (i := i + 1) h.2.2.2 fun j hj r => by
      rw [hm j (by omega) r, hlater j (by omega) r]
    rw [List.zipIdx_cons, List.filter_cons]
    by_cases hp : e.place = (p, r)
    · obtain ⟨rfl, rfl⟩ : e.owner = p ∧ e.role = r := by simpa [Entry.place] using hp
      rw [if_pos (by simpa using hp), List.map_cons, ← hrest, ← hnode, members]
      refine Members.part_add_self fun hr => ?_
      rw [hr, Members.part, alternate_of_placed h hr]
      rfl
    · rw [if_neg (by simpa using hp), ← hrest, members]
      exact Members.part_add_ne fun he => hp he.symm

def nodesAt (o : Outline) (p : Option Nat × Role) : List Node :=
  (o.placedAt p).map fun x => node (members 0 o.toList) x.2 x.1

theorem mem_nodesAt {p : Option Nat × Role} (hx : x ∈ o.nodesAt p) :
    ∃ j e, o[j]? = some e ∧ e.place = p ∧ o.node? j = some x := by
  obtain ⟨⟨e, j⟩, hm, rfl⟩ := List.mem_map.1 hx
  obtain ⟨he, hp⟩ := mem_placedAt.1 hm
  exact ⟨j, e, he, hp, by rw [node?, he]; rfl⟩

section Tree
variable (h : Placed 0 (o.toList.map Entry.place))
include h

theorem part_members (p : Option Nat) (r : Role) :
    (members 0 o.toList).part p r = o.nodesAt (p, r) :=
  part_members_eq h fun _ _ _ => rfl

theorem parts_of_node? (hn : o.node? j = some n) : n.body = o.nodesAt (some j, .body) ∧
    n.elseIfs = o.nodesAt (some j, .elseIf) ∧ n.alternate.toList = o.nodesAt (some j, .alternate) := by
  obtain ⟨e, -, rfl⟩ := Option.map_eq_some_iff.1 hn
  exact ⟨part_members h _ .body, part_members h _ .elseIf, part_members h _ .alternate⟩

theorem branches_of_node? (hn : o.node? j = some n) :
    n.branches = o.nodesAt (some j, .elseIf) ++ o.nodesAt (some j, .alternate) := by
  obtain ⟨-, helse, halt⟩ := parts_of_node? h hn
  rw [Node.branches, helse, halt]

theorem mem_walk_node? (hn : o.node? j = some n) (hx : x ∈ n.walk) :
    ∃ i, o.node? i = some x ∧ o.Holds j i := by
  induction n using Node.induct generalizing j with
  | node s p b es a hb hes ha =>
    obtain ⟨hbody, helse, halt⟩ := parts_of_node? h hn
    have hpart {ns : List Node} {r : Role} (hns : ns = o.nodesAt (some j, r))
        (hi : ∀ m ∈ ns, ∀ {j : Nat}, o.node? j = some m → x ∈ m.walk →
          ∃ i, o.node? i = some x ∧ o.Holds j i) (hm : x ∈ Node.walkAll ns) :
        ∃ i, o.node? i = some x ∧ o.Holds j i := by
      rw [Node.walkAll_eq_flatMap, List.mem_flatMap] at hm
      obtain ⟨m, hmem, hxm⟩ := hm
      obtain ⟨k, e, he, hp, hk⟩ := mem_nodesAt (hns ▸ hmem)
      obtain ⟨i, hi, hold⟩ := hi m hmem hk hxm
      exact ⟨i, hi, .head ⟨e, he, congrArg Prod.fst hp⟩ hold⟩
    rw [Node.walk, List.mem_cons, List.mem_append, List.mem_append, Members.walkOption_eq] at hx
    rcases hx with rfl | (hx | hx) | hx
    · exact ⟨j, hn, .refl⟩
    · exact hpart hbody hb hx
    · exact hpart helse hes hx
    · exact hpart halt ha hx

theorem exists_of_mem_walk (hx : x ∈ Node.walkAll o.nodes) : ∃ j, o.node? j = some x := by
  rw [Node.walkAll_eq_flatMap, List.mem_flatMap] at hx
  obtain ⟨n, hn, hxn⟩ := hx
  rw [nodes, show (members 0 o.toList).body none = o.nodesAt (none, .body) from part_members h none .body] at hn
  obtain ⟨j, e, -, -, hj⟩ := mem_nodesAt hn
  obtain ⟨i, hi, -⟩ := mem_walk_node? h hj hxn
  exact ⟨i, hi⟩

end Tree

end Outline

end Devalang
