import Devalang.Proofs.Reading.Coverage
import Mathlib.Data.List.Nodup

/-! The statements of a document share out the lines of its source. -/
namespace Devalang

def Node.stretches (n : Node) : List (List Nat) := (n.origin.map n.statement.stretches).getD []

theorem Node.flatMap_stretches (ns : List Node) :
    ns.flatMap Node.stretches =
      (ns.map Node.shown).flatMap fun p => (p.2.map p.1.stretches).getD [] := by
  rw [List.flatMap_map]
  rfl

theorem Outline.stretches_eq (o : Outline) :
    o.stretches = (o.toList.map Entry.shown).flatMap fun p => (p.2.map p.1.stretches).getD [] := by
  rw [List.flatMap_map]
  rfl

namespace Document

theorem walk_shown (s : Text) : ((Document.read s).walk.map Node.shown).Perm
    ((Reading.ofText s).outline.toList.map Entry.shown) :=
  Outline.walk_perm (Reading.sound_ofText s).placed

theorem stretches_perm (s : Text) :
    ((Document.read s).walk.flatMap Node.stretches).Perm (Reading.ofText s).outline.stretches := by
  rw [Node.flatMap_stretches, Outline.stretches_eq]
  exact (walk_shown s).flatMap_right _

theorem flatten_stretches_perm (s : Text) :
    ((Document.read s).walk.flatMap Node.stretches).flatten.Perm (List.range s.lines.length) :=
  (stretches_perm s).flatten.trans (Reading.sound_ofText s).covered

theorem exists_origin {s : Text} {n : Node} (h : n ∈ (Document.read s).walk) :
    ∃ o, n.origin = some o ∧ o.line ≤ o.last := by
  have hm : n.shown ∈ (Reading.ofText s).outline.toList.map Entry.shown :=
    (walk_shown s).subset (List.mem_map_of_mem h)
  obtain ⟨e, he, hs⟩ := List.mem_map.1 hm
  obtain ⟨p, hp, hle⟩ := (Reading.sound_ofText s).origin e he
  simp only [Entry.shown, Node.shown, Prod.mk.injEq] at hs
  exact ⟨p, by rw [← hs.2, hp], hle⟩

theorem line_mem_stretches {n : Node} {o : Origin} (ho : n.origin = some o) (hle : o.line ≤ o.last) :
    ∃ t ∈ n.stretches, o.line ∈ t := by
  simpa [Node.stretches, ho] using n.statement.line_mem_stretches hle

theorem walk_disjoint (s : Text) :
    (Document.read s).walk.Pairwise fun m n => m.stretches.flatten.Disjoint n.stretches.flatten := by
  have hn : ((Document.read s).walk.flatMap Node.stretches).flatten.Nodup :=
    (flatten_stretches_perm s).nodup_iff.2 List.nodup_range
  rw [List.flatMap_def, List.flatten_flatten, List.map_map] at hn
  have hp := (List.nodup_flatten.1 hn).2
  exact List.pairwise_map.1 hp

/-- No line of a source text is lost or read twice: the stretches of lines that the statements of a
document stand on do not meet and are all of its lines together, and no statement occurs twice. -/
theorem walk_partitions_lines (s : Text) :
    ((Document.read s).walk.flatMap Node.stretches).Pairwise List.Disjoint ∧
      (∀ i, (∃ t ∈ (Document.read s).walk.flatMap Node.stretches, i ∈ t) ↔
        i < s.lines.length) ∧
      (Document.read s).walk.Nodup ∧
      ∀ n ∈ (Document.read s).walk, ∃ o, n.origin = some o ∧ o.line ≤ o.last := by
  have hperm := flatten_stretches_perm s
  refine ⟨(List.nodup_flatten.1 (hperm.nodup_iff.2 List.nodup_range)).2, ?_, ?_,
    fun n hn => exists_origin hn⟩
  · intro i
    rw [← List.mem_flatten, hperm.mem_iff, List.mem_range]
  · refine (walk_disjoint s).imp_of_mem ?_
    rintro m n hm - hd rfl
    obtain ⟨o, ho, hle⟩ := exists_origin hm
    obtain ⟨t, ht, hl⟩ := line_mem_stretches ho hle
    exact hd (List.mem_flatten.2 ⟨t, ht, hl⟩) (List.mem_flatten.2 ⟨t, ht, hl⟩)

end Document

end Devalang
