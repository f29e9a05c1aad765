import Devalang.Proofs.Document.Coverage
import Devalang.Proofs.Reading.Order

/-! The order of the statements in the tree. A closing brace without a `param` block leaves all blocks
open, even those that it does not belong to, so that a later statement may still be put before it. -/
namespace Devalang

def Origin.Before (o o' : Option Origin) : Prop := ∃ p q, o = some p ∧ o' = some q ∧ p.line < q.line

def Node.Before (m n : Node) : Prop := Origin.Before m.origin n.origin

theorem Reading.Increasing.pairwise {r : Reading} (h : r.Increasing) :
    (r.outline.toList.map Entry.shown).Pairwise fun a b => Origin.Before a.2 b.2 := by
  rw [List.pairwise_map, List.pairwise_iff_getElem]
  intro i j hi hj hij
  have hget {k : Nat} (hk : k < r.outline.toList.length) : r.outline[k]? = some r.outline.toList[k] := by
    rw [← Array.getElem?_toList, List.getElem?_eq_getElem hk]
  obtain ⟨l, l', hl, hl', hlt⟩ := h i j _ _ hij (hget (by simpa using hi)) (hget (by simpa using hj))
  obtain ⟨p, hp, rfl⟩ := Option.map_eq_some_iff.1 hl
  obtain ⟨q, hq, rfl⟩ := Option.map_eq_some_iff.1 hl'
  exact ⟨p, q, hp, hq, hlt⟩

namespace Document

/-- The walk meets the lines in their order exactly if it meets the statements in the order in which
they were read. -/
theorem walk_pairwise_iff (s : Text) : (Document.read s).walk.Pairwise Node.Before ↔
    (Document.read s).walk.map Node.shown = (Reading.ofText s).outline.toList.map Entry.shown := by
  have hread := (Reading.increasing_ofText s).pairwise
  have hwalk : (Document.read s).walk.Pairwise Node.Before ↔
      ((Document.read s).walk.map Node.shown).Pairwise fun a b => Origin.Before a.2 b.2 := by
    rw [List.pairwise_map]
    rfl
  rw [hwalk]
  constructor
  · intro h
    refine List.Perm.eq_of_pairwise ?_ h hread (walk_shown s)
    rintro a b - - ⟨p, q, hp, hq, hlt⟩ ⟨q', p', hq', hp', hgt⟩
    obtain rfl : p = p' := by simpa [hp] using hp'
    obtain rfl : q = q' := by simpa [hq] using hq'
    omega
  · intro h
    rwa [h]

/-- The tree keeps the order of the lines (a statement, its body, its branches, what comes after it)
exactly if no statement after a closing brace without a `param` block belongs to a block that had been
opened before the brace and does not hold it. -/
theorem walk_increasing_iff (s : Text) : (Document.read s).walk.Pairwise Node.Before ↔
    ∀ i j e f k, i < j → (Reading.ofText s).outline[i]? = some e →
      (Reading.ofText s).outline[j]? = some f → e.statement = .strayBrace →
      f.owner = some k → Outside e.owner k → i ≤ k := by
  have hordered := Reading.ordered_ofText s
  have hnodup : ((Reading.ofText s).outline.toList.map Entry.shown).Nodup := by
    refine (Reading.increasing_ofText s).pairwise.imp ?_
    rintro a b ⟨p, q, hp, hq, hlt⟩ rfl
    obtain rfl : p = q := by simpa [hp] using hq
    omega
  rw [walk_pairwise_iff, show (Document.read s).walk = Node.walkAll (Reading.ofText s).outline.nodes from rfl,
    Outline.walk_eq_iff (Reading.sound_ofText s).placed hnodup, inOrder_iff]
  simp only [List.getElem?_map, Array.getElem?_toList, Option.map_eq_some_iff, Nat.zero_add]
  constructor
  · intro h i j e f k hij he hf _ hk hout
    exact (h i j e.place f.place hij ⟨e, he, rfl⟩ ⟨f, hf, rfl⟩).inside k hk hout
  · rintro h i j p q hij ⟨e, he, rfl⟩ ⟨f, hf, rfl⟩
    by_cases hb : e.statement = .strayBrace
    · refine ⟨fun k hk hout => h i j e f k hij he hf hb hk hout, fun _ => ?_⟩
      rw [Entry.place, hordered.brace i e he hb]
      exact Nat.zero_le _
    · exact hordered.earlier i j e f hij he hf hb

/-- The brace belongs to the document and not to the loop, but it leaves the loop open. The line after
it is put into the loop, before the brace. -/
theorem walk_stray_brace :
    (Document.read "loop 4:\n  .a\n\x7d\n  .b\n".toList).walk.map (·.origin.map Origin.line) =
        [some 0, some 1, some 3, some 2] ∧
      ¬ (Document.read "loop 4:\n  .a\n\x7d\n  .b\n".toList).walk.Pairwise Node.Before := by
  have hlines : (Document.read "loop 4:\n  .a\n\x7d\n  .b\n".toList).walk.map (·.origin.map Origin.line) =
      [some 0, some 1, some 3, some 2] := by decide +kernel
  refine ⟨hlines, fun h => ?_⟩
  have hp : ((Document.read "loop 4:\n  .a\n\x7d\n  .b\n".toList).walk.map
      (·.origin.map Origin.line)).Pairwise fun a b => ∃ l l', a = some l ∧ b = some l' ∧ l < l' := by
    rw [List.pairwise_map]
    refine h.imp ?_
    rintro m n ⟨p, q, hp, hq, hlt⟩
    exact ⟨p.line, q.line, by rw [hp]; rfl, by rw [hq]; rfl, hlt⟩
  rw [hlines] at hp
  simp at hp

end Document

end Devalang
