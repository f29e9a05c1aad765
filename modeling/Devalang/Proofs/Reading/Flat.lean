import Devalang.Proofs.Outline.Descent
import Devalang.Proofs.Reading.Turn
import Mathlib.Data.List.Nodup

/-! Headers and flat blocks. A header closes the flat blocks of its indent from the innermost open block
on, so that another block inside of a flat one keeps it open, and then takes the header in. -/
namespace Devalang

/-! Each open block is inside of all blocks further out. -/

namespace Outline
variable {o : Outline} {i j k : Nat} {rs rs' : List (Nat × Option Nat)}

theorem Owns.push (h : o.Owns k j) (e : Entry) : Owns (o.push e) k j := by
  obtain ⟨f, hf, hk⟩ := h
  exact ⟨f, getElem?_push_of_some hf e, hk⟩

theorem Owns.close (h : o.Owns k j) (i last : Nat) : (o.close i last).Owns k j := by
  obtain ⟨f, hf, hk⟩ := h
  obtain ⟨g, hg, -, hp, -⟩ := getElem?_close_of_some hf i last
  exact ⟨g, hg, (congrArg Prod.fst hp).trans hk⟩

theorem Holds.push (h : o.Holds k j) (e : Entry) : Holds (o.push e) k j :=
  Relation.ReflTransGen.mono (fun _ _ h => Owns.push h e) _ _ h

theorem Holds.close (h : o.Holds k j) (i last : Nat) : (o.close i last).Holds k j :=
  Relation.ReflTransGen.mono (fun _ _ h => Owns.close h i last) _ _ h

/-- The blocks, innermost first, and the `if`s that they continue are inside of the blocks further out. -/
def HoldsInner (o : Outline) (rs : List (Nat × Option Nat)) : Prop :=
  rs.Pairwise fun a b => o.Holds b.1 a.1 ∧ ∀ k, a.2 = some k → o.Holds b.1 k

theorem HoldsInner.push (h : o.HoldsInner rs) (e : Entry) (hs : rs'.Sublist rs) :
    HoldsInner (o.push e) rs' :=
  (h.sublist hs).imp fun hab => ⟨hab.1.push e, fun k hk => (hab.2 k hk).push e⟩

theorem HoldsInner.close (h : o.HoldsInner rs) (i last : Nat) (hs : rs'.Sublist rs) :
    (o.close i last).HoldsInner rs' :=
  (h.sublist hs).imp fun hab => ⟨hab.1.close i last, fun k hk => (hab.2 k hk).close i last⟩

theorem HoldsInner.of_head (h : o.HoldsInner rs) {b : Nat × Option Nat} (hb : b ∈ rs)
    (howns : ∀ a, rs.head? = some a → o.Owns a.1 j) : o.Holds b.1 j := by
  cases rs with
  | nil => cases hb
  | cons a rs =>
    have ha : o.Owns a.1 j := howns a rfl
    rcases List.mem_cons.1 hb with rfl | hb
    · exact .single ha
    · exact .tail ((List.pairwise_cons.1 h).1 b hb).1 ha

end Outline

theorem refers_begun (indent : Nat) (cs : List Context) :
    (begun indent cs).map Context.refers = cs.map Context.refers := by
  cases cs <;> rfl

namespace Turn
variable {t : Turn}

/-- The statement of a line is inside of all the blocks that stay open around it. -/
theorem holds_of_mem_kept {st : Statement} {n : Nat} {c : Context}
    (h : t.before.outline.HoldsInner t.before.refers)
    (ho : t.after.outline = t.before.outline.push
      ⟨st, some ⟨t.index, t.index + n, t.leading⟩, t.kept.head?.map Context.node, .body⟩)
    (hc : c ∈ t.kept) : t.after.outline.Holds c.node t.before.outline.size := by
  rw [ho]
  have hkept := h.push ⟨st, some ⟨t.index, t.index + n, t.leading⟩, t.kept.head?.map Context.node, .body⟩
    (t.kept_suffix.sublist.map Context.refers)
  refine hkept.of_head (b := c.refers) (List.mem_map_of_mem hc) fun a ha => ⟨_, Array.getElem?_push_size, ?_⟩
  rw [← Reading.head?_refers, ha]
  rfl

theorem holdsInner (t : Turn) (h : t.before.outline.HoldsInner t.before.refers) :
    t.after.outline.HoldsInner t.after.refers := by
  cases t.move with
  | blank content outline stack remarks =>
    rw [outline]
    exact h.push _ (stack.sublist.map _)
  | branch notStatement b role c k outer conditional suffix continues indent kind outline stack remarks =>
    have hc := List.pairwise_cons.1 (h.sublist (suffix.sublist.map Context.refers))
    have houter := h.push ⟨.block b, some t.origin, some k, role⟩
      (((List.suffix_cons c outer).trans suffix).sublist.map Context.refers)
    rw [outline, Reading.refers, stack, List.map_cons]
    refine List.pairwise_cons.2 ⟨fun a ha => ?_, houter⟩
    have hk := ((hc.1 a ha).2 k continues).push ⟨.block b, some t.origin, some k, role⟩
    refine ⟨.tail hk ⟨_, Array.getElem?_push_size, rfl⟩, fun j hj => ?_⟩
    rcases kind with ⟨-, -, rfl⟩ | ⟨-, -, rfl⟩
    · cases hj
      exact hk
    · cases hj
  | close content c param outline stack remarks =>
    rw [outline]
    exact h.close _ _ ((((List.suffix_cons c _).trans stack).sublist).map _)
  | stray content none outline stack remarks =>
    rw [outline, Reading.refers, stack, settle_refers]
    exact h.push _ (List.Sublist.refl _)
  | statement isStatement s n reads nonblank outline stack remarks =>
    have hkept := h.push ⟨s, some ⟨t.index, t.index + n, t.leading⟩, t.kept.head?.map Context.node, .body⟩
      (t.kept_suffix.sublist.map Context.refers)
    rw [← outline] at hkept
    rw [Reading.refers, stack, List.map_append, refers_begun]
    cases s with
    | simple s => exact hkept
    | block b =>
      refine List.pairwise_cons.2 ⟨fun a ha => ?_, hkept⟩
      obtain ⟨c, hc, rfl⟩ := List.mem_map.1 ha
      have hnew := holds_of_mem_kept h outline hc
      refine ⟨hnew, fun k hk => ?_⟩
      obtain ⟨-, hk⟩ := Option.ite_none_right_eq_some.1 hk
      cases hk
      exact hnew

theorem holdsInner_turns {s : Text} (ht : t ∈ Reading.turns s) :
    t.before.outline.HoldsInner t.before.refers :=
  ((Reading.turns_invariant (P := fun r => r.outline.HoldsInner r.refers) List.Pairwise.nil
    fun t _ => t.holdsInner).1 t ht).1

/-! The blocks that a header closes. -/

/-- The block is flat and has the indent of the line, so that a header on this line is meant to close
it. -/
def Ends (t : Turn) (c : Context) : Bool := c.isFlat && c.indent == t.indent

variable {c : Context} {inner outer : List Context}

theorem contains_of_ends (h : t.Ends c = true) : c.contains t.indent = true := by
  rw [Ends, Bool.and_eq_true, Context.isFlat, beq_iff_eq, beq_iff_eq] at h
  exact (Context.contains_of_some h.1).2 (Nat.le_of_eq h.2)

theorem kept_of_all (hh : t.isHeader = true) (hs : t.before.stack = inner ++ c :: outer)
    (hc : t.Ends c = true) (hi : ∀ d ∈ inner, t.Ends d = true) : t.kept <:+ outer := by
  have hdrop : t.before.stack.dropWhile t.Ends = outer.dropWhile t.Ends := by
    rw [hs, List.dropWhile_append_of_pos hi, List.dropWhile_cons_of_pos hc]
  rw [kept, if_pos hh]
  exact (List.dropWhile_suffix _).trans (hdrop ▸ List.dropWhile_suffix _)

theorem suffix_kept (hh : t.isHeader = true) (hs : t.before.stack = inner ++ c :: outer)
    (hc : t.Ends c = true) (hi : ∃ d ∈ inner, t.Ends d = false) : c :: outer <:+ t.kept := by
  have hne : ¬ (inner.dropWhile t.Ends).isEmpty = true := by
    rw [List.isEmpty_iff, List.dropWhile_eq_nil_iff]
    obtain ⟨d, hd, hends⟩ := hi
    exact fun hall => absurd (hall d hd) (by simp [hends])
  have hdrop : t.before.stack.dropWhile t.Ends = inner.dropWhile t.Ends ++ c :: outer := by
    rw [hs, List.dropWhile_append, if_neg hne]
  have hkept : t.kept = (inner.dropWhile t.Ends ++ c :: outer).dropWhile (!·.contains t.indent) := by
    rw [kept, if_pos hh, ← hdrop]
    rfl
  -- what is left of the inner blocks may be closed by their indents, but `c` contains the line
  rw [hkept, List.dropWhile_append]
  split
  · rw [List.dropWhile_cons_of_neg (by simp [contains_of_ends hc])]
  · exact List.suffix_append _ _

theorem isStatement_of_isHeader (h : t.isHeader = true) : t.IsStatement := by
  rw [isHeader, Bool.and_eq_true, Bool.not_eq_true'] at h
  have hne {content : Text} (hc : isHeaderLine content = false) : t.content ≠ content := by
    intro he
    rw [he, hc] at h
    cases h.1
  refine ⟨hne (by decide +kernel), hne (by decide +kernel), fun he => ?_⟩
  exact absurd (h.2.symm.trans he) Bool.false_ne_true

variable {s : Text}

theorem mem_nodes_iff (ht : t ∈ Reading.turns s) (hst : t.IsStatement)
    (hc : c ∈ t.before.stack) : c.node ∈ t.after.stack.map Context.node ↔ c ∈ t.kept := by
  obtain ⟨-, -, hstack⟩ := hst.adds
  have hlt : c.node < t.before.outline.size := (sound ht).1.node_lt hc
  have hopened : c.node ∉ (t.statement.1.opened t.indent t.before.outline.size).map Context.node := by
    cases t.statement.1 with
    | simple st => simp [Statement.opened]
    | block b => simpa [Statement.opened] using Nat.ne_of_lt hlt
  have hbegun : (begun t.indent t.kept).map Context.node = t.kept.map Context.node := by
    cases t.kept <;> rfl
  rw [hstack, List.map_append, List.mem_append, hbegun]
  constructor
  · rintro (hmem | hmem)
    · exact absurd hmem hopened
    · obtain ⟨d, hd, hn⟩ := List.mem_map.1 hmem
      rwa [← List.inj_on_of_nodup_map (sound ht).1.nodup (t.kept_suffix.subset hd) hc hn]
  · exact fun hmem => Or.inr (List.mem_map_of_mem hmem)

theorem holds_iff (ht : t ∈ Reading.turns s) (hst : t.IsStatement) (hc : c ∈ t.before.stack) :
    t.after.outline.Holds c.node t.before.outline.size ↔ c ∈ t.kept := by
  obtain ⟨-, hout, -⟩ := hst.adds
  refine ⟨fun h => ?_, holds_of_mem_kept (holdsInner_turns ht) hout⟩
  obtain ⟨hbefore, hafter⟩ := ordered ht
  rcases Relation.ReflTransGen.cases_tail h with he | ⟨k, hk, e, he, hek⟩
  · have := (sound ht).1.node_lt hc
    omega
  rw [hout, Array.getElem?_push_size] at he
  obtain rfl := Option.some.inj he
  obtain ⟨d, hd, rfl⟩ := Option.map_eq_some_iff.1 hek
  have hle : c.node ≤ d.node := Outline.Holds.le hafter.owner hk
  -- the block that takes the statement would be further out than `c`, and come before it
  obtain ⟨pre, hpre⟩ := t.kept_suffix
  rcases List.mem_append.1 (hpre ▸ hc) with hpc | hkc
  · exfalso
    have houter : t.before.refers.Pairwise fun a b => b.1 < a.2.getD a.1 := hbefore.tiered.outer
    rw [Reading.refers, ← hpre, List.map_append] at houter
    have hlt : d.node < c.conditional.getD c.node := (List.pairwise_append.1 houter).2.2 c.refers
      (List.mem_map_of_mem hpc) d.refers (List.mem_map_of_mem (List.mem_of_mem_head? hd))
    have hge : c.conditional.getD c.node ≤ c.node :=
      hbefore.tiered.conditional c.refers (List.mem_map_of_mem hc)
    omega
  · exact hkc

/-- A header closes a flat block of its indent exactly if it would close the blocks inside of it too. -/
theorem mem_kept_iff (ht : t ∈ Reading.turns s) (hh : t.isHeader = true)
    (hs : t.before.stack = inner ++ c :: outer) (hc : t.Ends c = true) :
    c ∉ t.kept ↔ ∀ d ∈ inner, t.Ends d = true := by
  constructor
  · intro hnot
    by_contra hall
    push Not at hall
    obtain ⟨d, hd, hends⟩ := hall
    exact hnot ((suffix_kept hh hs hc ⟨d, hd, Bool.eq_false_iff.2 hends⟩).subset List.mem_cons_self)
  · intro hall hmem
    have hnodup := (sound ht).1.nodup
    rw [hs, List.map_append, List.map_cons, List.nodup_append] at hnodup
    exact (List.nodup_cons.1 hnodup.2.1).1
      (List.mem_map_of_mem ((kept_of_all hh hs hc hall).subset hmem))

end Turn

namespace Reading

/-- A header closes a flat block of its indent exactly if all blocks that are open inside of it are flat
and of the same indent too. Otherwise the flat block stays open and the header is inside of it. -/
theorem header_closes_flat_iff (s : Text) (t : Turn) (ht : t ∈ turns s) (hh : t.isHeader = true)
    (c : Context) (inner outer : List Context) (hs : t.before.stack = inner ++ c :: outer)
    (hf : c.bodyIndent = some c.indent) (hi : c.indent = t.indent) :
    (c.node ∉ t.after.stack.map Context.node ↔
      ∀ d ∈ inner, d.bodyIndent = some d.indent ∧ d.indent = t.indent) ∧
    (¬ t.after.outline.Holds c.node t.before.outline.size ↔
      ∀ d ∈ inner, d.bodyIndent = some d.indent ∧ d.indent = t.indent) := by
  have hends (d : Context) : t.Ends d = true ↔ d.bodyIndent = some d.indent ∧ d.indent = t.indent := by
    rw [Turn.Ends, Bool.and_eq_true, Context.isFlat, beq_iff_eq, beq_iff_eq]
  have hmem : c ∈ t.before.stack := by simp [hs]
  have hst := Turn.isStatement_of_isHeader hh
  have hkept := Turn.mem_kept_iff ht hh hs ((hends c).2 ⟨hf, hi⟩)
  simp only [hends] at hkept
  exact ⟨(not_congr (Turn.mem_nodes_iff ht hst hmem)).trans hkept,
    (not_congr (Turn.holds_iff ht hst hmem)).trans hkept⟩

/-- A flat `param` block inside of a flat loop: the header closes both. -/
theorem header_closes_flat_param :
    ∃ t ∈ turns "loop 4:\nparam p \x7b\n0% = 1\ngroup g:\n".toList, ∃ c d,
      t.isHeader = true ∧ t.before.stack = [d] ++ c :: [] ∧ c.bodyIndent = some c.indent ∧
      c.indent = t.indent ∧ (∀ e ∈ [d], e.bodyIndent = some e.indent ∧ e.indent = t.indent) ∧
      c.node ∉ t.after.stack.map Context.node ∧
      ¬ t.after.outline.Holds c.node t.before.outline.size := by
  have hrun : ∃ t ∈ turns "loop 4:\nparam p \x7b\n0% = 1\ngroup g:\n".toList, t.isHeader = true ∧
      t.indent = 0 ∧ t.before.stack = [⟨"Param".toList, 0, 1, some 0, none⟩] ++
        ⟨"Loop".toList, 0, 0, some 0, none⟩ :: [] := by decide +kernel
  obtain ⟨t, ht, hh, hi, hs⟩ := hrun
  have hall : ∀ e ∈ [(⟨"Param".toList, 0, 1, some 0, none⟩ : Context)],
      e.bodyIndent = some e.indent ∧ e.indent = t.indent := by simp [hi]
  obtain ⟨hnode, hholds⟩ := header_closes_flat_iff _ t ht hh _ _ _ hs rfl hi.symm
  exact ⟨t, ht, _, _, hh, hs, rfl, hi.symm, hall, hnode.2 hall, hholds.2 hall⟩

/-- The loop on the third line is no flat block of the indent of the group, and keeps the flat loop around
it open: the group is put into the flat loop. -/
theorem header_leaves_flat_open :
    ¬ (∀ t ∈ turns "loop 4:\n.a\n  loop 2:\n    .b\ngroup g:\n".toList, t.isHeader = true →
      ∀ c ∈ t.before.stack, c.bodyIndent = some c.indent → c.indent = t.indent →
        c.node ∉ t.after.stack.map Context.node) ∧
    (Document.read "loop 4:\n.a\n  loop 2:\n    .b\ngroup g:\n".toList).nodes.map
      (fun n => n.body.map fun m => m.origin.map Origin.line) = [[some 1, some 2, some 4]] := by
  decide +kernel

end Reading

end Devalang
