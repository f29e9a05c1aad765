import Devalang.Proofs.Outline.Descent
import Devalang.Proofs.Reading.Extents

/-! The extent of a block in the tree: no statement in the body of a block stands before the first one,
which does not stand before the header. -/
namespace Devalang

def Node.indent? (n : Node) : Option Nat := n.origin.map Origin.indent

namespace Outline
variable {o : Outline} {k : Nat} {n : Node}

theorem map_indent?_filter {es : List Entry} (h : ∀ e ∈ es, ∃ p, e.origin = some p) (k : Nat) :
    (es.filter fun e => e.place = (some k, .body) ∧ e.statement ≠ .simple .blank).map Entry.indent? =
      (es.filterMap (Entry.inset? k)).map some := by
  induction es with
  | nil => rfl
  | cons e es ih =>
    obtain ⟨p, hp⟩ := h e List.mem_cons_self
    have hrest := ih fun f hf => h f (List.mem_cons_of_mem e hf)
    by_cases he : e.place = (some k, .body) ∧ e.statement ≠ .simple .blank
    · have hi : e.inset? k = some p.indent := by rw [Entry.inset?, if_pos he, Entry.indent?, hp]; rfl
      rw [List.filter_cons_of_pos (by simpa using he), List.filterMap_cons_some hi, List.map_cons,
        List.map_cons, hrest, Entry.indent?, hp]
      rfl
    · have hi : e.inset? k = none := if_neg he
      rw [List.filter_cons_of_neg (by simpa using he), List.filterMap_cons_none hi, hrest]

theorem indents_of_node? (hplaced : Placed 0 (o.toList.map Entry.place))
    (horigin : ∀ e ∈ o.toList, ∃ p, e.origin = some p) (hn : o.node? k = some n) :
    (n.body.filter fun m => m.statement ≠ .simple .blank).map Node.indent? = (o.insets k).map some := by
  obtain ⟨hbody, -, -⟩ := parts_of_node? hplaced hn
  rw [insets, ← map_indent?_filter horigin, hbody, nodesAt, placedAt]
  conv_rhs => rw [← List.zipIdx_map_fst 0 o.toList]
  rw [List.filter_map, List.filter_map, List.map_map, List.map_map, List.filter_filter]
  congr 1
  refine List.filter_congr fun x _ => ?_
  rw [Bool.eq_iff_iff]
  simp only [Function.comp_apply, Bool.and_eq_true, decide_eq_true_eq]
  exact and_comm

end Outline

namespace Document

/-- As long as every closing brace is read inside of a `param` block, the open blocks stand one in the body
of the other, and a statement is added to the innermost of those that stay open around it. In the tree no
statement in the body of a block is indented less than the first one, and this one not less than the
header, blank lines left out. -/
theorem blocks_extend_by_indent (s : Text) (h : Reading.BracesClose s) :
    (∀ t ∈ Reading.turns s, Nested t.after.stack) ∧
    (∀ t ∈ Reading.turns s, t.IsStatement →
      settle t.indent t.kept = (t.kept.head?.map Context.node, begun t.indent t.kept) ∧
      t.after.outline = t.before.outline.push ⟨t.statement.1,
        some ⟨t.index, t.index + t.statement.2, t.leading⟩, t.kept.head?.map Context.node, .body⟩ ∧
      t.after.stack = t.statement.1.opened t.indent t.before.outline.size ++ begun t.indent t.kept) ∧
    ∀ n ∈ (Document.read s).walk, ∀ m ms,
      (n.body.filter fun m => m.statement ≠ .simple .blank) = m :: ms →
      ∃ d b, n.indent? = some d ∧ m.indent? = some b ∧ d ≤ b ∧
        ∀ x ∈ ms, ∃ i, x.indent? = some i ∧ b ≤ i := by
  obtain ⟨hturns, hend⟩ := h.extents
  refine ⟨fun t ht => (hturns t ht).nested, fun t _ hs => hs.adds, fun n hn m ms hbody => ?_⟩
  have hsound := Reading.sound_ofText s
  obtain ⟨k, hk⟩ := Outline.exists_of_mem_walk hsound.placed hn
  have horigin : ∀ e ∈ (Reading.ofText s).outline.toList, ∃ p, e.origin = some p :=
    fun e he => (hsound.origin e he).imp fun p hp => hp.1
  have hindents := Outline.indents_of_node? hsound.placed horigin hk
  rw [hbody, List.map_cons] at hindents
  obtain ⟨b, bs, hinsets, hb, hbs⟩ := List.map_eq_cons_iff.1 hindents.symm
  obtain ⟨e, he, rfl⟩ := Option.map_eq_some_iff.1 hk
  obtain ⟨⟨d, hd, hle⟩, hall⟩ := hend.inset k e b bs he hinsets
  refine ⟨d, b, hd, hb.symm, hle, fun x hx => ?_⟩
  have hm : x.indent? ∈ bs.map some := hbs ▸ List.mem_map_of_mem hx
  obtain ⟨i, hi, hxi⟩ := List.mem_map.1 hm
  exact ⟨i, hxi.symm, hall i hi⟩

/-- A closed `param` block, an `if` with a blank line and a flat loop in its body, and an `else` branch. -/
theorem blocks_extend_by_indent_automation : ∃ s : Text,
    s = ("automate a:\n  param p \x7b\n    0% = 1\n  \x7d\nif x:\n    .a\n\n      loop 2:\n      .b\n" ++
      "    .c\nelse:\n  .d\n").toList ∧
    Reading.BracesClose s ∧ (∃ t ∈ Reading.turns s, t.content = ['}']) ∧
    (∀ t ∈ Reading.turns s, Nested t.after.stack) ∧
    ((Document.read s).walk.map fun n =>
        (n.body.filter fun m => m.statement ≠ .simple .blank).map Node.indent?) =
      [[some 2], [some 4], [], [some 4, some 6, some 4], [], [], [some 6], [], [], [some 2], []] ∧
    ∀ n ∈ (Document.read s).walk, ∀ m ms,
      (n.body.filter fun m => m.statement ≠ .simple .blank) = m :: ms →
      ∃ d b, n.indent? = some d ∧ m.indent? = some b ∧ d ≤ b ∧
        ∀ x ∈ ms, ∃ i, x.indent? = some i ∧ b ≤ i := by
  refine ⟨_, rfl, by decide +kernel, by decide +kernel, ?_, by decide +kernel, ?_⟩
  · exact (blocks_extend_by_indent _ (by decide +kernel)).1
  · exact (blocks_extend_by_indent _ (by decide +kernel)).2.2

end Document

end Devalang
