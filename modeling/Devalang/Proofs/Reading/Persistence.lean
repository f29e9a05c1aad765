import Devalang.Proofs.Reading.Coverage

/-! Statements that have been read stay in the outline, and the lines that they stand on stay theirs. -/
namespace Devalang

/-- What remains of an entry while more lines are read: a simple statement stays as it is, and a block
may get the line of its closing brace. -/
structure Entry.Keeps (e e' : Entry) : Prop where
  statement : e'.statement = e.statement
  simple : e.statement.isBlock = false → e' = e
  stretches : ∀ t ∈ e.stretches, t ∈ e'.stretches

theorem Entry.Keeps.refl (e : Entry) : e.Keeps e := ⟨rfl, fun _ => rfl, fun _ h => h⟩

theorem Entry.Keeps.trans {e f g : Entry} (h : e.Keeps f) (h' : f.Keeps g) : e.Keeps g where
  statement := h'.statement.trans h.statement
  simple hs := by
    have hf := h.simple hs
    rw [h'.simple (by rw [hf]; exact hs), hf]
  stretches t ht := h'.stretches t (h.stretches t ht)

namespace Reading
variable {r r' : Reading} {index n : Nat} {leading content : Text} {following : List Text}

def Keeps (r r' : Reading) : Prop :=
  ∀ (k : Nat) (e : Entry), r.outline[k]? = some e → ∃ e', r'.outline[k]? = some e' ∧ e.Keeps e'

theorem Keeps.trans {r'' : Reading} (h : r.Keeps r') (h' : r'.Keeps r'') : r.Keeps r'' := by
  intro k e he
  obtain ⟨f, hf, hef⟩ := h k e he
  obtain ⟨g, hg, hfg⟩ := h' k f hf
  exact ⟨g, hg, hef.trans hfg⟩

theorem keeps_of_push {e : Entry} (h : r'.outline = r.outline.push e) : r.Keeps r' := by
  intro k f hf
  refine ⟨f, ?_, .refl f⟩
  have hk := (Array.getElem?_eq_some_iff.1 hf).1
  rw [h, Array.getElem?_push, if_neg (by omega), hf]

theorem Sound.keeps (h : r.Sound index) (he : r.Effect index leading content following n r') :
    r.Keeps r' := by
  cases he with
  | adds s owner reads fits outline stack => exact keeps_of_push outline
  | opens b owner role single reads fits outline c cs stack node conditional outer =>
    exact keeps_of_push outline
  | closes c single outline param stack =>
    intro k e he
    rw [outline, Outline.close, Array.getElem?_modify]
    by_cases hk : c.node = k
    · subst hk
      obtain ⟨f, p, hf, hp, hlast, hline⟩ := h.block c (stack.subset (by simp))
      obtain rfl : f = e := by simpa [he] using hf.symm
      have hparam : f.statement.isParam = true := by simpa [he] using param
      refine ⟨{ f with origin := f.origin.map fun p => { p with last := index } }, by simp [he], rfl, ?_, ?_⟩
      · intro hb
        cases hs : f.statement with
        | simple s => simp [hs, Statement.isParam] at hparam
        | block b => simp [hs, Statement.isBlock] at hb
      · intro t ht
        cases hs : f.statement with
        | simple s => simp [hs, Statement.isParam] at hparam
        | block b =>
          rw [hs] at hparam
          have hne : index ≠ p.line := Nat.ne_of_gt hline
          simp only [Entry.stretches, hp, hs, Option.map_some, Option.getD_some, Statement.stretches,
            hparam, Origin.isMultiline, hlast, bne_self_eq_false, Bool.and_false, Bool.false_eq_true,
            if_false, List.mem_singleton] at ht
          simp [Entry.stretches, hp, Statement.stretches, hparam, Origin.isMultiline, hne, ht]
    · exact ⟨e, by rw [if_neg hk, he], .refl e⟩

theorem Sound.keeps_readLines {skip : Nat} {lines : List Text} (h : r.Sound (index + skip)) :
    r.Keeps (r.readLines skip index lines) := by
  induction lines generalizing r skip index with
  | nil => exact fun k e he => ⟨e, he, .refl e⟩
  | cons line lines ih =>
    cases skip with
    | zero =>
      have heffect := readLine_effect r index line lines
      have hs := Sound.step (by simpa using h) heffect
      rw [Nat.add_right_comm] at hs
      exact (Sound.keeps (by simpa using h) heffect).trans (ih hs)
    | succ skip =>
      refine ih ?_
      have he : index + 1 + skip = index + (skip + 1) := by omega
      rwa [he]

/-! The entry of a line. -/

variable {indent : Nat} {line : Text}

/-- The line is read as a statement: it is not blank, no branch that continues an `if`, and no closing
brace. -/
structure IsStatement (r : Reading) (index indent : Nat) (origin : Option Origin) (content : Text) :
    Prop where
  nonempty : content ≠ []
  brace : content ≠ ['}']
  branch : Text.startsWith "else".toList content = true →
    (r.addBranch index indent origin content).2 = none

theorem readLine_statement (h : r.IsStatement index (Text.leading (Text.trimReturns line)).length
    (some ⟨index, index, Text.leading (Text.trimReturns line)⟩) (Text.trim line)) :
    ∃ r₀ : Reading, r₀.outline = r.outline ∧ r.readLine index line following =
      r₀.addStatement index (Text.leading (Text.trimReturns line)) (Text.trim line) following := by
  have hne : (Text.trim line).isEmpty = false := by simpa using h.nonempty
  simp only [readLine, hne, Bool.false_eq_true, if_false, h.brace]
  by_cases he : Text.startsWith "else".toList (Text.trim line) = true
  · have hn := h.branch he
    simp only [he, if_true]
    generalize hp : r.addBranch index _ _ _ = p at hn ⊢
    obtain ⟨x, k⟩ := p
    obtain rfl : k = none := hn
    refine ⟨x, ?_, rfl⟩
    rcases addBranch_none hp with rfl | ⟨m, rfl⟩
    · rfl
    · rfl
  · simp only [he]
    cases isHeaderLine (Text.trim line) with
    | true =>
      exact ⟨{ r with stack := r.stack.dropWhile fun c => c.isFlat && c.indent ==
        (Text.leading (Text.trimReturns line)).length }, rfl, rfl⟩
    | false => exact ⟨r, rfl, rfl⟩

theorem addStatement_outline (r : Reading) (index : Nat) (leading content : Text)
    (following : List Text) : ∃ owner,
      (Statement.read? leading.length following content = none ∧
        (r.addStatement index leading content following).1.outline =
          r.outline.push ⟨.simple (.unknown content), some ⟨index, index, leading⟩, owner, .body⟩) ∨
      ∃ s n, Statement.read? leading.length following content = some (s, n) ∧
        (r.addStatement index leading content following).1.outline =
          r.outline.push ⟨s, some ⟨index, index + n, leading⟩, owner, .body⟩ := by
  refine ⟨(settle leading.length (r.stack.dropWhile (!·.contains leading.length))).1, ?_⟩
  simp only [addStatement]
  cases hr : Statement.read? leading.length following content with
  | none => exact Or.inl ⟨rfl, rfl⟩
  | some x =>
    obtain ⟨s, n⟩ := x
    refine Or.inr ⟨s, n, rfl, ?_⟩
    cases s with
    | simple s => rfl
    | block b => rfl

theorem readLine_branch (hne : Text.trim line ≠ [])
    (he : Text.startsWith "else".toList (Text.trim line) = true)
    (h : (r.addBranch index (Text.leading (Text.trimReturns line)).length
      (some ⟨index, index, Text.leading (Text.trimReturns line)⟩) (Text.trim line)).2 ≠ none) :
    ∃ b owner role, (r.readLine index line following).1.outline =
      r.outline.push ⟨.block b, some ⟨index, index, Text.leading (Text.trimReturns line)⟩, owner, role⟩ := by
  have hne : (Text.trim line).isEmpty = false := by simpa using hne
  simp only [readLine, hne, Bool.false_eq_true, if_false, he, if_true]
  generalize hp : r.addBranch index _ _ _ = p at h ⊢
  obtain ⟨x, k⟩ := p
  cases k with
  | none => exact absurd rfl h
  | some k =>
    obtain ⟨-, b, role, _, _, _, -, hb⟩ := addBranch_eq_some hp
    exact ⟨b, _, role, hb.outline⟩

end Reading

end Devalang
