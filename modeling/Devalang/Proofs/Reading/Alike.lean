import Devalang.Proofs.Reading.Likeness
import Devalang.Proofs.Statement.Restated

/-! Two readings that have read statements with the same text go on alike: the same blocks are open in
both, and lines that are read as statements alike keep it so. -/
namespace Devalang
open Text

/-- Statements with the same text. Headers are the same. -/
inductive Statement.Alike : Statement → Statement → Prop where
  | simple (r r' : Simple) (alike : r.Alike r') : Alike (.simple r) (.simple r')
  | block (b : Header) : Alike (.block b) (.block b)

theorem Statement.Alike.refl : (s : Statement) → s.Alike s
  | .simple r => .simple r r (.refl r)
  | .block b => .block b

structure Entry.Alike (e e' : Entry) : Prop where
  statement : e.statement.Alike e'.statement
  origin : e'.origin = e.origin
  owner : e'.owner = e.owner
  role : e'.role = e.role

structure Outline.Alike (o o' : Outline) : Prop where
  size : o'.size = o.size
  entry : ∀ (k : Nat) (e e' : Entry), o[k]? = some e → o'[k]? = some e' → e.Alike e'

theorem Outline.Alike.cases {o o' : Outline} (h : o.Alike o') (k : Nat) :
    o[k]? = none ∧ o'[k]? = none ∨ ∃ e e', o[k]? = some e ∧ o'[k]? = some e' ∧ e.Alike e' := by
  by_cases hk : k < o.size
  · have hk' : k < o'.size := by rw [h.size]; exact hk
    have he := Array.getElem?_eq_getElem hk
    have he' := Array.getElem?_eq_getElem hk'
    exact Or.inr ⟨_, _, he, he', h.entry k _ _ he he'⟩
  · refine Or.inl ⟨Array.getElem?_eq_none (by omega), Array.getElem?_eq_none ?_⟩
    rw [h.size]
    omega

inductive Statement.ReadAlike (indent : Nat) (following following' : List Text)
    (content content' : Text) : Prop where
  | unknown (same : content' = content) (read : Statement.read? indent following content = none)
    (read' : Statement.read? indent following' content' = none)
  | known (s s' : Statement) (n : Nat) (alike : s.Alike s')
    (read : Statement.read? indent following content = some (s, n))
    (read' : Statement.read? indent following' content' = some (s', n))

structure Reading.Alike (r r' : Reading) : Prop where
  stack : r'.stack = r.stack
  outline : r.outline.Alike r'.outline

/-- How a line and the line in its place are read, after the lines that `r` has read. -/
inductive Reading.LineAlike (r : Reading) (index indent : Nat) (origin : Option Origin)
    (following following' : List Text) (content content' : Text) : Prop where
  | blank (empty : content = []) (empty' : content' = [])
  | branch (nonempty : content ≠ []) (branch : startsWith "else".toList content = true)
    (added : (r.addBranch index indent origin content).2 ≠ none) (same : content' = content)
  | brace (brace : content = ['}']) (same : content' = content)
  | statement (nonempty : content ≠ []) (nonempty' : content' ≠ [])
    (brace : content ≠ ['}']) (brace' : content' ≠ ['}'])
    (alternative : startsWith "else".toList content' = startsWith "else".toList content)
    (branch : startsWith "else".toList content = true →
      (r.addBranch index indent origin content).2 = none ∧
        Header.readBranch content' = Header.readBranch content)
    (header : isHeaderLine content' = isHeaderLine content)
    (reads : Statement.ReadAlike indent following following' content content')

/-- The same indents, and statements with the same text at the same place. -/
def Likeness.written : Likeness where
  shift := 0
  Shown p q := p.1.Alike q.1 ∧ q.2 = p.2
  header := by
    rintro ⟨s, o⟩ ⟨s', o'⟩ ⟨h, -⟩
    cases h <;> rfl
  close last h := ⟨h.1, congrArg (Option.map _) h.2⟩

theorem Entry.like_written_iff {e e' : Entry} : e.Like .written e' ↔ e.Alike e' :=
  ⟨fun h => ⟨h.shown.1, h.shown.2, h.owner, h.role⟩, fun h => ⟨⟨h.statement, h.origin⟩, h.owner, h.role⟩⟩

theorem Outline.like_written_iff {o o' : Outline} : o.Like .written o' ↔ o.Alike o' :=
  ⟨fun h => ⟨h.size, fun k e e' he he' => Entry.like_written_iff.1 (h.entry k e e' he he')⟩,
    fun h => ⟨h.size, fun k e e' he he' => Entry.like_written_iff.2 (h.entry k e e' he he')⟩⟩

namespace Reading
variable {r r' : Reading} {index : Nat} {line line' leading content content' : Text}
  {following following' : List Text}

theorem like_written_iff : r.Like .written r' ↔ r.Alike r' := by
  have hs : r.stack.map (Context.shift Likeness.written.shift) = r.stack := by
    rw [show Context.shift Likeness.written.shift = id from funext Context.shift_zero, List.map_id]
  constructor
  · intro h
    exact ⟨h.stack.trans hs, Outline.like_written_iff.1 h.outline⟩
  · intro h
    exact ⟨h.stack.trans hs.symm, Outline.like_written_iff.2 h.outline⟩

theorem LineAlike.like (h : r.LineAlike index leading.length (some ⟨index, index, leading⟩) following
    following' content content') :
    r.LineLike .written index leading leading following following' content content' := by
  cases h with
  | blank empty empty' => exact .blank empty empty'
  | branch nonempty branch added same => exact .branch nonempty branch added same
  | brace brace same => exact .brace brace same
  | statement nonempty nonempty' brace brace' alternative branch header reads =>
    refine .statement nonempty nonempty' brace brace' alternative branch header ?_
    cases reads with
    | unknown same read read' => exact .unknown same read read'
    | known s s' n alike read read' => exact .known s s' n ⟨alike, rfl⟩ read read'

theorem Alike.start : Reading.start.Alike Reading.start := like_written_iff.1 .start

/-- Lines alike keep readings alike and take as many of the lines that follow. -/
theorem Alike.readLine (h : r.Alike r')
    (hlead : Text.leading (trimReturns line') = Text.leading (trimReturns line))
    (hl : r.LineAlike index (Text.leading (trimReturns line)).length
      (some ⟨index, index, Text.leading (trimReturns line)⟩) following following' (trim line) (trim line')) :
    (r.readLine index line following).1.Alike (r'.readLine index line' following').1 ∧
      (r'.readLine index line' following').2 = (r.readLine index line following).2 := by
  have hstep := (like_written_iff.2 h).readLine rfl hlead (fun s => ⟨.refl s, rfl⟩) (fun _ => rfl) hl.like
  exact ⟨like_written_iff.1 hstep.1, hstep.2⟩

end Reading

end Devalang
