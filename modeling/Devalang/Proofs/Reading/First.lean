import Devalang.Proofs.Outline.Order
import Devalang.Proofs.Reading.Owners

/-! The first statement of a document is what its first line reads as. -/
namespace Devalang

namespace Reading
variable {r : Reading} {n : Nat} {leading content : Text} {following : List Text}

theorem Effect.first (h : start.Effect 0 leading content following n r) : ∃ s k,
    r.outline = #[⟨s, some ⟨0, if s.isBlock then 0 else k, leading⟩, none, .body⟩] ∧
      Statement.ReadsAs leading.length following content s k := by
  have hplace {e : Entry} (hf : start.Fits e) : e.owner = none ∧ e.role = .body := by
    cases hr : e.role with
    | body =>
      refine ⟨?_, rfl⟩
      cases ho : e.owner with
      | none => rfl
      | some k =>
        simp only [Fits, hr] at hf
        obtain ⟨c, hc, -⟩ := hf k ho
        simp [start] at hc
    | elseIf | alternate =>
      simp only [Fits, hr] at hf
      obtain ⟨k, -, hf⟩ := hf
      simp [start] at hf
  cases h with
  | adds s owner reads fits outline stack =>
    obtain ⟨rfl, -⟩ := hplace fits
    exact ⟨.simple s, n, by simpa [start, Statement.isBlock] using outline, reads⟩
  | opens b owner role single reads fits outline c cs stack node conditional outer =>
    obtain ⟨rfl, rfl⟩ := hplace fits
    exact ⟨.block b, 0, by simpa [start, Statement.isBlock] using outline, reads⟩
  | closes c single outline param stack =>
    have hmem : c ∈ start.stack := stack.subset (by simp)
    simp [start] at hmem

end Reading

theorem Outline.node_eq {i : Nat} {e : Entry} {es : List Entry} (h : Placed (i + 1) (es.map Entry.place))
    (hes : ∀ f ∈ es, f.owner ≠ some i) :
    Outline.node (members (i + 1) es) i e = .node e.statement e.origin [] [] none := by
  have hpart (r : Role) : (members (i + 1) es).part (some i) r = [] := by
    rw [part_members_eq_nil_iff h, List.mem_map]
    rintro ⟨f, hf, hp⟩
    exact hes f hf (congrArg Prod.fst hp)
  have halternate : (members (i + 1) es).alternate (some i) = none := Option.toList_eq_nil_iff.1 (hpart .alternate)
  have hbody : (members (i + 1) es).body (some i) = [] := hpart .body
  have helse : (members (i + 1) es).elseIfs (some i) = [] := hpart .elseIf
  rw [node, hbody, helse, halternate]

/-- The first statement of a document is what the first line reads as. Nothing is below it, unless it is a
block. -/
theorem Document.head_nodes {t line : Text} {following : List Text} (h : t.lines = line :: following) :
    ∃ n k, (Document.read t).nodes.head? = some n ∧
      Statement.ReadsAs (Text.leading (Text.trimReturns line)).length following (Text.trim line)
        n.statement k ∧
      (n.statement.isBlock = false → ∃ o, n = .node n.statement (some o) [] [] none ∧ o.line = 0 ∧
        o.last = k) := by
  obtain ⟨s, k, hout, hreads⟩ := (Reading.readLine_effect .start 0 line following).first
  have hsound := Reading.Sound.start.step (Reading.readLine_effect .start 0 line following)
  have hkeeps : (Reading.start.readLine 0 line following).1.Keeps (.ofText t) := by
    rw [Reading.ofText, h, Reading.readLines]
    exact Reading.Sound.keeps_readLines (by rwa [Nat.add_right_comm] at hsound)
  obtain ⟨e, he, hstatement, hsimple, -⟩ := hkeeps 0
    ⟨s, some ⟨0, if s.isBlock then 0 else k, Text.leading (Text.trimReturns line)⟩, none, .body⟩
    (by rw [hout]; rfl)
  replace hstatement : e.statement = s := hstatement
  have hplaced := (Reading.sound_ofText t).placed
  obtain ⟨es, hes⟩ : ∃ es, (Reading.ofText t).outline.toList = e :: es := by
    rw [← Array.getElem?_toList, ← List.head?_eq_getElem?] at he
    exact List.head?_eq_some_iff.1 he
  rw [hes] at hplaced
  have howner : e.owner = none := by
    cases ho : e.owner with
    | none => rfl
    | some k => exact absurd (hplaced.1 k ho) (Nat.not_lt_zero k)
  have hrole : e.role = .body := hplaced.2.1 howner
  refine ⟨Outline.node (Outline.members 1 es) 0 e, k, ?_, ?_, ?_⟩
  · rw [Document.read, Outline.nodes, hes, Outline.members, howner, hrole]
    simp [Members.add]
  · rwa [← hstatement] at hreads
  · intro hs
    have hs' : s.isBlock = false := by rwa [← hstatement]
    have hes : ∀ f ∈ es, f.owner ≠ some 0 := by
      intro f hf ho
      obtain ⟨e', he', hb⟩ := (Reading.ownedByBlocks_ofText t).owner f (by rw [hes]; simp [hf]) 0 ho
      rw [← Array.getElem?_toList, hes, List.getElem?_cons_zero, Option.some.injEq] at he'
      rw [← he', hstatement, hs'] at hb
      cases hb
    rw [Outline.node_eq hplaced.2.2.2 hes, hsimple hs']
    exact ⟨_, rfl, rfl, by simp [hs']⟩

theorem Document.nodes_singleton {t line : Text} (h : t.lines = [line]) : ∃ s o k,
    (Document.read t).nodes = [.node s o [] [] none] ∧
      Statement.ReadsAs (Text.leading (Text.trimReturns line)).length [] (Text.trim line) s k := by
  obtain ⟨s, k, hout, hreads⟩ := (Reading.readLine_effect .start 0 line []).first
  refine ⟨s, some ⟨0, if s.isBlock then 0 else k, Text.leading (Text.trimReturns line)⟩, k, ?_, hreads⟩
  have hnodes : (Document.read t).nodes = (Reading.start.readLine 0 line []).1.outline.nodes := by
    rw [Document.read, Reading.ofText, h]
    rfl
  rw [hnodes, hout]
  rfl

end Devalang
