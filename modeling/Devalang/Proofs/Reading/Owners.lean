import Devalang.Proofs.Outline.Descent
import Devalang.Proofs.Reading.Persistence

/-! Statements belong to blocks only: in a document that was read nothing is below a simple statement. -/
namespace Devalang

namespace Outline
variable {o : Outline} {k : Nat}

def IsBlock (o : Outline) (k : Nat) : Prop := ∃ e, o[k]? = some e ∧ e.statement.isBlock = true

theorem IsBlock.push (h : o.IsBlock k) (e : Entry) : IsBlock (o.push e) k := by
  obtain ⟨f, hf, hb⟩ := h
  have hlt := (Array.getElem?_eq_some_iff.1 hf).1
  exact ⟨f, by rw [Array.getElem?_push, if_neg (by omega), hf], hb⟩

theorem isBlock_push_size (o : Outline) {e : Entry} (h : e.statement.isBlock = true) :
    IsBlock (o.push e) o.size := ⟨e, Array.getElem?_push_size, h⟩

theorem IsBlock.close (h : o.IsBlock k) (i last : Nat) : (o.close i last).IsBlock k := by
  obtain ⟨f, hf, hb⟩ := h
  rw [IsBlock, Outline.close, Array.getElem?_modify]
  by_cases hi : i = k
  · refine ⟨{ f with origin := f.origin.map fun p => { p with last := last } }, ?_, hb⟩
    rw [if_pos hi, hf]
    rfl
  · exact ⟨f, by rw [if_neg hi, hf], hb⟩

end Outline

namespace Reading

/-- All statements that the open blocks refer to, and all owners, are blocks. -/
structure OwnedByBlocks (r : Reading) : Prop where
  owner : ∀ e ∈ r.outline.toList, ∀ k, e.owner = some k → r.outline.IsBlock k
  node : ∀ c ∈ r.stack, r.outline.IsBlock c.node
  conditional : ∀ c ∈ r.stack, ∀ k, c.conditional = some k → r.outline.IsBlock k

variable {r r' : Reading} {index n k : Nat} {leading content : Text} {following : List Text} {e : Entry}

theorem OwnedByBlocks.start : Reading.start.OwnedByBlocks :=
  ⟨by simp [Reading.start], by simp [Reading.start], by simp [Reading.start]⟩

theorem OwnedByBlocks.owner_of_fits (h : r.OwnedByBlocks) (hf : r.Fits e) (hk : e.owner = some k) :
    r.outline.IsBlock k := by
  have hbranch : (∃ j, e.owner = some j ∧ ∃ c ∈ r.stack, c.conditional = some j) → r.outline.IsBlock k := by
    rintro ⟨j, hj, c, hc, hcj⟩
    obtain rfl : j = k := Option.some.inj (hj.symm.trans hk)
    exact h.conditional c hc j hcj
  cases hr : e.role with
  | body =>
    simp only [Fits, hr] at hf
    obtain ⟨c, hc, rfl⟩ := hf k hk
    exact h.node c hc
  | elseIf =>
    simp only [Fits, hr] at hf
    exact hbranch hf
  | alternate =>
    simp only [Fits, hr] at hf
    obtain ⟨j, hj, -, hc⟩ := hf
    exact hbranch ⟨j, hj, hc⟩

theorem OwnedByBlocks.owner_push (h : r.OwnedByBlocks) (hf : r.Fits e) :
    ∀ f ∈ (r.outline.push e).toList, ∀ k, f.owner = some k → Outline.IsBlock (r.outline.push e) k := by
  intro f hm k hk
  rw [Array.toList_push] at hm
  rcases List.mem_append.1 hm with hm | hm
  · exact (h.owner f hm k hk).push e
  · rw [List.mem_singleton.1 hm] at hk
    exact (h.owner_of_fits hf hk).push e

theorem OwnedByBlocks.refers (h : r.OwnedByBlocks) {c : Context}
    (hc : c.refers ∈ r.stack.map Context.refers) :
    r.outline.IsBlock c.node ∧ ∀ k, c.conditional = some k → r.outline.IsBlock k := by
  obtain ⟨d, hd, hdc⟩ := List.mem_map.1 hc
  obtain ⟨hnode, hconditional⟩ := Prod.mk.inj hdc
  rw [← hnode, ← hconditional]
  exact ⟨h.node d hd, h.conditional d hd⟩

theorem OwnedByBlocks.step (h : r.OwnedByBlocks) (he : r.Effect index leading content following n r') :
    r'.OwnedByBlocks := by
  cases he with
  | adds s owner reads fits outline stack =>
    have hold (c : Context) (hc : c ∈ r'.stack) := h.refers (stack.subset (List.mem_map_of_mem hc))
    refine ⟨?_, fun c hc => ?_, fun c hc k hk => ?_⟩ <;> rw [outline]
    · exact h.owner_push fits
    · exact (hold c hc).1.push _
    · exact ((hold c hc).2 k hk).push _
  | opens b owner role single reads fits outline c cs stack node conditional outer =>
    have hold (d : Context) (hd : d ∈ cs) := h.refers (outer.subset (List.mem_map_of_mem hd))
    have hnew := Outline.isBlock_push_size r.outline
      (e := ⟨.block b, some ⟨index, index, leading⟩, owner, role⟩) rfl
    refine ⟨?_, fun d hd => ?_, fun d hd k hk => ?_⟩ <;> rw [outline]
    · exact h.owner_push fits
    · rw [stack] at hd
      rcases List.mem_cons.1 hd with rfl | hd
      · rwa [node]
      · exact (hold d hd).1.push _
    · rw [stack] at hd
      rcases List.mem_cons.1 hd with rfl | hd
      · rcases conditional k hk with rfl | ⟨f, hf, hfk⟩
        · exact hnew
        · exact (h.conditional f hf k hfk).push _
      · exact ((hold d hd).2 k hk).push _
  | closes c single outline param stack =>
    have hold : ∀ d ∈ r'.stack, d ∈ r.stack := fun d hd => stack.subset (List.mem_cons_of_mem c hd)
    refine ⟨fun e hm k hk => ?_, fun d hd => ?_, fun d hd k hk => ?_⟩ <;> rw [outline] at *
    · rcases Outline.mem_close hm with hm | ⟨f, hf, rfl⟩
      · exact (h.owner e hm k hk).close _ _
      · have hfm : f ∈ r.outline.toList := by
          obtain ⟨hlt, hget⟩ := Array.getElem?_eq_some_iff.1 hf
          exact hget ▸ Array.getElem_mem_toList hlt
        exact (h.owner f hfm k hk).close _ _
    · exact (h.node d (hold d hd)).close _ _
    · exact (h.conditional d (hold d hd) k hk).close _ _

theorem OwnedByBlocks.readLines (h : r.OwnedByBlocks) (skip index : Nat) (lines : List Text) :
    (r.readLines skip index lines).OwnedByBlocks := by
  induction lines generalizing r skip index with
  | nil => simpa [Reading.readLines] using h
  | cons line lines ih =>
    cases skip with
    | zero => exact ih (h.step (readLine_effect r index line lines)) _ _
    | succ skip => exact ih h _ _

theorem ownedByBlocks_ofText (s : Text) : (ofText s).OwnedByBlocks := OwnedByBlocks.start.readLines 0 0 _

end Reading

theorem Document.body_eq_nil {s : Text} {n : Node} (hn : n ∈ (Document.read s).walk)
    (hb : n.statement.isBlock = false) : n.body = [] := by
  have hplaced := (Reading.sound_ofText s).placed
  obtain ⟨k, hk⟩ := Outline.exists_of_mem_walk hplaced hn
  rw [(Outline.parts_of_node? hplaced hk).1, List.eq_nil_iff_forall_not_mem]
  intro m hm
  obtain ⟨i, e, he, hp, -⟩ := Outline.mem_nodesAt hm
  obtain ⟨f, hf, hblock⟩ := (Reading.ownedByBlocks_ofText s).owner e
    (Array.mem_toList_iff.2 (Array.mem_of_getElem? he)) k (congrArg Prod.fst hp)
  obtain ⟨f', hf', rfl⟩ := Option.map_eq_some_iff.1 hk
  obtain rfl : f = f' := Option.some.inj (hf.symm.trans hf')
  have hstatement : f.statement.isBlock = false := hb
  rw [hblock] at hstatement
  cases hstatement

end Devalang
