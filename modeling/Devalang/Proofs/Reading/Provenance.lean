import Devalang.Proofs.Reading.Coverage

/-! Every statement of an outline is what its line reads as, whatever was open around that line. -/
namespace Devalang

def Statement.ReadsFrom (lines : List Text) (s : Statement) (origin : Option Origin) : Prop :=
  ∃ p line following n, origin = some p ∧ lines.drop p.line = line :: following ∧
    p.leading = Text.leading (Text.trimReturns line) ∧
    Statement.ReadsAs p.leading.length following (Text.trim line) s n ∧
    (s.isBlock = false → p.last = p.line + n)

namespace Reading
variable {r r' : Reading} {index n : Nat} {line : Text} {following lines : List Text}

/-- All statements that have been read are what their lines read as. -/
def Faithful (lines : List Text) (r : Reading) : Prop :=
  ∀ e ∈ r.outline.toList, e.statement.ReadsFrom lines e.origin

theorem Faithful.step (h : r.Faithful lines) (hl : lines.drop index = line :: following)
    (he : r.Effect index (Text.leading (Text.trimReturns line)) (Text.trim line) following n r') :
    r'.Faithful lines := by
  intro e hm
  cases he with
  | adds s owner reads fits outline stack =>
    rw [outline, Array.toList_push] at hm
    rcases List.mem_append.1 hm with hm | hm
    · exact h e hm
    · rw [List.mem_singleton.1 hm]
      exact ⟨_, line, following, n, rfl, hl, rfl, reads, fun _ => rfl⟩
  | opens b owner role single reads fits outline c cs stack node conditional outer =>
    rw [outline, Array.toList_push] at hm
    rcases List.mem_append.1 hm with hm | hm
    · exact h e hm
    · rw [List.mem_singleton.1 hm]
      exact ⟨_, line, following, 0, rfl, hl, rfl, reads, fun hb => by simp [Statement.isBlock] at hb⟩
  | closes c single outline param stack =>
    rw [outline] at hm
    rcases Outline.mem_close hm with hm | ⟨f, hf, rfl⟩
    · exact h e hm
    · have hfm : f ∈ r.outline.toList := by
        obtain ⟨hk, hget⟩ := Array.getElem?_eq_some_iff.1 hf
        exact hget ▸ Array.getElem_mem_toList hk
      obtain ⟨p, line', following', m, hp, hl', hlead, hreads, -⟩ := h f hfm
      have hblock : f.statement.isBlock = true := by
        have hparam : f.statement.isParam = true := by simpa [hf] using param
        cases hs : f.statement with
        | simple s => simp [hs, Statement.isParam] at hparam
        | block b => rfl
      exact ⟨{ p with last := index }, line', following', m, by rw [hp]; rfl, hl', hlead, hreads,
        fun hb => by rw [hblock] at hb; cases hb⟩

theorem Faithful.readLines {skip : Nat} {ls : List Text} (h : r.Faithful lines)
    (hl : lines.drop index = ls) : (r.readLines skip index ls).Faithful lines := by
  induction ls generalizing r skip index with
  | nil => simpa [Reading.readLines] using h
  | cons line ls ih =>
    have hnext : lines.drop (index + 1) = ls := by
      rw [← List.drop_drop, hl, List.drop_succ_cons, List.drop_zero]
    cases skip with
    | zero => exact ih (h.step hl (readLine_effect r index line ls)) hnext
    | succ skip => exact ih h hnext

theorem faithful_ofText (s : Text) : (ofText s).Faithful s.lines := by
  have hstart : Reading.start.Faithful s.lines := by
    intro e he
    simp [Reading.start] at he
  exact hstart.readLines rfl

end Reading

end Devalang
