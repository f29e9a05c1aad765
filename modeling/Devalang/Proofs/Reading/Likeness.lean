import Devalang.Proofs.Outline.Walk
import Devalang.Proofs.Reading.Effect
import Mathlib.Data.List.Forall2

/-! Two readings in step. Texts whose lines are read alike one by one have outlines of the same shape,
even if all lines of the one are indented by some blanks more than those of the other. -/
namespace Devalang
open Text

def Statement.header? : Statement → Option Header
  | .simple _ => none
  | .block b => some b

/-- How two readings may differ: how much further the lines of the second one are indented, and which
statements, with their origins, may stand for each other. -/
structure Likeness where
  shift : Nat
  Shown : Statement × Option Origin → Statement × Option Origin → Prop
  header : ∀ {p q}, Shown p q → q.1.header? = p.1.header?
  close : ∀ {b : Header} {o o' : Option Origin} (last : Nat), Shown (.block b, o) (.block b, o') →
    Shown (.block b, o.map fun p => { p with last := last })
      (.block b, o'.map fun p => { p with last := last })

/-! Open blocks that are indented further. -/

def Context.shift (k : Nat) (c : Context) : Context :=
  { c with indent := c.indent + k, bodyIndent := c.bodyIndent.map (· + k) }

namespace Context
variable (k : Nat) (c : Context) (i : Nat)

@[simp] theorem shift_node : (c.shift k).node = c.node := rfl

@[simp] theorem shift_conditional : (c.shift k).conditional = c.conditional := rfl

@[simp] theorem shift_indent : (c.shift k).indent = c.indent + k := rfl

theorem shift_zero : c.shift 0 = c := by
  cases c
  simp [shift]

@[simp] theorem shift_isFlat : (c.shift k).isFlat = c.isFlat := by
  rw [Bool.eq_iff_iff]
  simp [isFlat, shift]

@[simp] theorem shift_contains : (c.shift k).contains (i + k) = c.contains i := by
  rw [Bool.eq_iff_iff]
  cases hb : c.bodyIndent <;> simp [contains, shift, hb]

end Context

section Stack
variable (k i : Nat) (cs : List Context)

theorem settle_shift : settle (i + k) (cs.map (Context.shift k)) =
    ((settle i cs).1, (settle i cs).2.map (Context.shift k)) := by
  induction cs with
  | nil => rfl
  | cons c cs ih =>
    rw [List.map_cons, settle, settle, ih]
    cases hb : c.bodyIndent with
    | none => simp [Context.shift, hb]
    | some b => by_cases hle : b ≤ i <;> simp [Context.shift, hb, hle]

theorem findConditional_shift : findConditional (i + k) (cs.map (Context.shift k)) =
    (findConditional i cs).map fun (j, outer) => (j, outer.map (Context.shift k)) := by
  induction cs with
  | nil => rfl
  | cons c cs ih =>
    rw [List.map_cons, findConditional, findConditional, ih]
    cases hc : c.conditional with
    | none => simp [hc]
    | some j => by_cases hi : c.indent = i <;> simp [hc, hi]

theorem dropWhile_contains_shift :
    (cs.map (Context.shift k)).dropWhile (!·.contains (i + k)) =
      (cs.dropWhile (!·.contains i)).map (Context.shift k) := by
  rw [List.dropWhile_map]
  congr 2
  funext c
  simp

theorem dropWhile_isFlat_shift :
    ((cs.map (Context.shift k)).dropWhile fun c => c.isFlat && c.indent == i + k) =
      (cs.dropWhile fun c => c.isFlat && c.indent == i).map (Context.shift k) := by
  rw [List.dropWhile_map]
  congr 2
  funext c
  rw [Bool.eq_iff_iff]
  simp

end Stack

variable {L : Likeness}

structure Entry.Like (L : Likeness) (e e' : Entry) : Prop where
  shown : L.Shown e.shown e'.shown
  owner : e'.owner = e.owner
  role : e'.role = e.role

structure Outline.Like (L : Likeness) (o o' : Outline) : Prop where
  size : o'.size = o.size
  entry : ∀ (k : Nat) (e e' : Entry), o[k]? = some e → o'[k]? = some e' → e.Like L e'

namespace Outline.Like
variable {o o' : Outline} {e e' : Entry}

theorem cases (h : o.Like L o') (k : Nat) :
    o[k]? = none ∧ o'[k]? = none ∨ ∃ e e', o[k]? = some e ∧ o'[k]? = some e' ∧ e.Like L e' := by
  by_cases hk : k < o.size
  · have hk' : k < o'.size := by rw [h.size]; exact hk
    have he := Array.getElem?_eq_getElem hk
    have he' := Array.getElem?_eq_getElem hk'
    exact Or.inr ⟨_, _, he, he', h.entry k _ _ he he'⟩
  · refine Or.inl ⟨Array.getElem?_eq_none (by omega), Array.getElem?_eq_none ?_⟩
    rw [h.size]
    omega

theorem push (h : o.Like L o') (he : e.Like L e') : Outline.Like L (o.push e) (o'.push e') where
  size := by rw [Array.size_push, Array.size_push, h.size]
  entry k f f' hf hf' := by
    rw [Array.getElem?_push] at hf hf'
    rw [h.size] at hf'
    split at hf
    · rename_i hk
      rw [if_pos hk] at hf'
      cases hf
      cases hf'
      exact he
    · rename_i hk
      rw [if_neg hk] at hf'
      exact h.entry k f f' hf hf'

theorem isParam (h : o.Like L o') (k : Nat) :
    o'[k]?.any (·.statement.isParam) = o[k]?.any (·.statement.isParam) := by
  rcases h.cases k with ⟨he, he'⟩ | ⟨e, e', he, he', ha⟩
  · rw [he, he']
  · rw [he, he', Option.any_some, Option.any_some]
    have hs : e'.statement.header? = e.statement.header? := L.header ha.shown
    cases hst : e.statement <;> cases hst' : e'.statement <;> simp_all [Statement.header?, Statement.isParam]

theorem findParam (h : o.Like L o') (cs : List Context) :
    findParam o' (cs.map (Context.shift L.shift)) =
      (findParam o cs).map fun (j, outer) => (j, outer.map (Context.shift L.shift)) := by
  induction cs with
  | nil => rfl
  | cons c cs ih =>
    rw [List.map_cons, Devalang.findParam, Devalang.findParam, ih, Context.shift_node, h.isParam]
    split <;> rfl

theorem close (h : o.Like L o') {k : Nat} (hk : o[k]?.any (·.statement.isParam) = true) (last : Nat) :
    (o.close k last).Like L (o'.close k last) where
  size := by simp [Outline.close, h.size]
  entry j f f' hf hf' := by
    rw [Outline.close, Array.getElem?_modify] at hf hf'
    by_cases hkj : k = j
    · rw [if_pos hkj] at hf hf'
      obtain ⟨g, hg, rfl⟩ := Option.map_eq_some_iff.1 hf
      obtain ⟨g', hg', rfl⟩ := Option.map_eq_some_iff.1 hf'
      have ha := h.entry j g g' hg hg'
      refine ⟨?_, ha.owner, ha.role⟩
      rw [hkj, hg, Option.any_some] at hk
      have hshown := ha.shown
      have hs : g'.statement.header? = g.statement.header? := L.header hshown
      obtain ⟨st, origin, owner, role⟩ := g
      obtain ⟨st', origin', owner', role'⟩ := g'
      cases st with
      | simple r => cases hk
      | block b =>
        cases st' with
        | simple r => cases hs
        | block b' =>
          obtain rfl : b' = b := Option.some.inj hs
          exact L.close last hshown
    · rw [if_neg hkj] at hf hf'
      exact h.entry j f f' hf hf'

theorem hasAlternate (h : o.Like L o') (k : Nat) : o'.hasAlternate k = o.hasAlternate k := by
  rw [Bool.eq_iff_iff, Outline.hasAlternate, Outline.hasAlternate, Array.any_eq_true', Array.any_eq_true']
  constructor
  · rintro ⟨e, he, hp⟩
    obtain ⟨j, hj⟩ := Array.mem_iff_getElem?.1 he
    rcases h.cases j with ⟨-, hn⟩ | ⟨f, f', hf, hf', hff⟩
    · rw [hn] at hj
      cases hj
    · obtain rfl : f' = e := by simpa [hf'] using hj
      exact ⟨f, Array.mem_of_getElem? hf, by rw [← hff.owner, ← hff.role]; exact hp⟩
  · rintro ⟨e, he, hp⟩
    obtain ⟨j, hj⟩ := Array.mem_iff_getElem?.1 he
    rcases h.cases j with ⟨hn, -⟩ | ⟨f, f', hf, hf', hff⟩
    · rw [hn] at hj
      cases hj
    · obtain rfl : f = e := by simpa [hf] using hj
      exact ⟨f', Array.mem_of_getElem? hf', by rw [hff.owner, hff.role]; exact hp⟩

theorem forall₂ {R : Entry → Entry → Prop} (h : o.Like L o') (hR : ∀ e e', e.Like L e' → R e e') :
    List.Forall₂ R o.toList o'.toList := by
  refine List.forall₂_iff_get.2 ⟨by simp [h.size], fun k hk hk' => hR _ _ (h.entry k _ _ ?_ ?_)⟩
  · rw [← Array.getElem?_toList]
    exact List.getElem?_eq_getElem hk
  · rw [← Array.getElem?_toList]
    exact List.getElem?_eq_getElem hk'

end Outline.Like

/-- What is read from the two contents of a line is alike, and takes as many of the lines that follow. -/
inductive Statement.ReadLike (L : Likeness) (index : Nat) (leading leading' : Text)
    (following following' : List Text) (content content' : Text) : Prop where
  | unknown (same : content' = content)
    (read : Statement.read? leading.length following content = none)
    (read' : Statement.read? leading'.length following' content' = none)
  | known (s s' : Statement) (n : Nat)
    (shown : L.Shown (s, some ⟨index, index + n, leading⟩) (s', some ⟨index, index + n, leading'⟩))
    (read : Statement.read? leading.length following content = some (s, n))
    (read' : Statement.read? leading'.length following' content' = some (s', n))

structure Reading.Like (L : Likeness) (r r' : Reading) : Prop where
  stack : r'.stack = r.stack.map (Context.shift L.shift)
  outline : r.outline.Like L r'.outline

namespace Reading.Like
variable {r r' : Reading} {s s' : Statement} {origin origin' : Option Origin} {o o' : Origin}
  {index i : Nat} {leading leading' content content' : Text} {following following' : List Text}

theorem start : Reading.start.Like L Reading.start := ⟨rfl, rfl, fun k e e' he => by cases he⟩

theorem remark (h : r.Like L r') (m m' : Remark) : (r.remark m).Like L (r'.remark m') :=
  ⟨h.stack, h.outline⟩

theorem restack (h : r.Like L r') (cs : List Context) :
    Reading.Like L { r with stack := cs } { r' with stack := cs.map (Context.shift L.shift) } :=
  ⟨rfl, h.outline⟩

theorem add (h : r.Like L r') (hs : L.Shown (s, some o) (s', some o')) (i : Nat) :
    (r.add i s o).Like L (r'.add (i + L.shift) s' o') where
  stack := by rw [Reading.add, Reading.add, h.stack, settle_shift]
  outline := by
    rw [Reading.add, Reading.add, h.stack, settle_shift]
    exact h.outline.push ⟨hs, rfl, rfl⟩

theorem addBlank (h : r.Like L r') (hs : L.Shown (.simple .blank, some o) (.simple .blank, some o')) :
    (r.addBlank o).Like L (r'.addBlank o') := by
  simp only [Reading.addBlank, h.stack]
  cases r.stack with
  | nil => exact ⟨rfl, h.outline.push ⟨hs, rfl, rfl⟩⟩
  | cons c cs =>
    rw [List.map_cons]
    simp only [Context.shift_isFlat]
    cases c.isFlat with
    | true =>
      refine ⟨rfl, h.outline.push ⟨hs, ?_, rfl⟩⟩
      cases cs <;> rfl
    | false => exact ⟨rfl, h.outline.push ⟨hs, rfl, rfl⟩⟩

theorem addBranch (h : r.Like L r') (hs : ∀ s, L.Shown (s, origin) (s, origin')) (index i : Nat)
    (content : Text) :
    (r.addBranch index i origin content).1.Like L (r'.addBranch index (i + L.shift) origin' content).1 ∧
      (r'.addBranch index (i + L.shift) origin' content).2 = (r.addBranch index i origin content).2 := by
  simp only [Reading.addBranch, h.stack, findConditional_shift]
  cases Header.readBranch content with
  | none => exact ⟨h, rfl⟩
  | some b =>
    cases findConditional i r.stack with
    | none => exact ⟨h.remark _ _, rfl⟩
    | some c =>
      have hpush (role : Role) : Outline.Like L (r.outline.push ⟨.block b, origin, some c.1, role⟩)
          (r'.outline.push ⟨.block b, origin', some c.1, role⟩) :=
        h.outline.push ⟨hs _, rfl, rfl⟩
      by_cases hb : b = .otherwise
      · simp only [Option.map_some, hb, if_true, h.outline.hasAlternate, h.outline.size]
        cases r.outline.hasAlternate c.1 with
        | true => exact ⟨h.remark _ _, rfl⟩
        | false => exact ⟨⟨rfl, hb ▸ hpush .alternate⟩, rfl⟩
      · simp only [Option.map_some, hb, if_false, h.outline.size]
        exact ⟨⟨rfl, hpush .elseIf⟩, trivial⟩

theorem addBrace (h : r.Like L r') (hs : ∀ s, L.Shown (s, some o) (s, some o')) (ho : o'.last = o.last)
    (i : Nat) (content : Text) :
    (r.addBrace i o content).Like L (r'.addBrace (i + L.shift) o' content) := by
  simp only [Reading.addBrace, h.stack, h.outline.findParam]
  cases hf : findParam r.outline r.stack with
  | none => exact (h.remark _ _).add (hs _) i
  | some c =>
    obtain ⟨k, outer⟩ := c
    obtain ⟨c, -, -, hp⟩ := findParam_eq_some hf
    simp only [Option.map_some, ho]
    exact ⟨rfl, h.outline.close hp _⟩

theorem addStatement (h : r.Like L r') (hlen : leading'.length = leading.length + L.shift)
    (hs : ∀ s, L.Shown (s, some ⟨index, index, leading⟩) (s, some ⟨index, index, leading'⟩))
    (hr : Statement.ReadLike L index leading leading' following following' content content') :
    (r.addStatement index leading content following).1.Like L
        (r'.addStatement index leading' content' following').1 ∧
      (r'.addStatement index leading' content' following').2 =
        (r.addStatement index leading content following).2 := by
  have hstack := h.restack (r.stack.dropWhile (!·.contains leading.length))
  simp only [Reading.addStatement, h.stack, hlen, dropWhile_contains_shift]
  cases hr with
  | unknown same read read' =>
    subst same
    rw [read, ← hlen, read', hlen]
    exact ⟨(hstack.remark _ _).add (hs _) _, rfl⟩
  | known s s' n shown read read' =>
    rw [read, ← hlen, read', hlen]
    have hhead : s'.header? = s.header? := L.header shown
    have ha := hstack.add shown leading.length
    cases s with
    | simple a =>
      cases s' with
      | simple a' => exact ⟨ha, rfl⟩
      | block b => cases hhead
    | block b =>
      cases s' with
      | simple a' => cases hhead
      | block b' =>
        obtain rfl : b' = b := Option.some.inj hhead
        refine ⟨⟨?_, ha.outline⟩, rfl⟩
        simp only [ha.stack, h.outline.size, List.map_cons]
        rfl

end Reading.Like

inductive Reading.LineLike (L : Likeness) (r : Reading) (index : Nat) (leading leading' : Text)
    (following following' : List Text) (content content' : Text) : Prop where
  | blank (empty : content = []) (empty' : content' = [])
  | branch (nonempty : content ≠ []) (branch : startsWith "else".toList content = true)
    (added : (r.addBranch index leading.length (some ⟨index, index, leading⟩) content).2 ≠ none)
    (same : content' = content)
  | brace (brace : content = ['}']) (same : content' = content)
  | statement (nonempty : content ≠ []) (nonempty' : content' ≠ [])
    (brace : content ≠ ['}']) (brace' : content' ≠ ['}'])
    (alternative : startsWith "else".toList content' = startsWith "else".toList content)
    (branch : startsWith "else".toList content = true →
      (r.addBranch index leading.length (some ⟨index, index, leading⟩) content).2 = none ∧
        Header.readBranch content' = Header.readBranch content)
    (header : isHeaderLine content' = isHeaderLine content)
    (reads : Statement.ReadLike L index leading leading' following following' content content')

namespace Reading
variable {r r' : Reading} {index i : Nat} {line line' leading leading' content content' : Text}
  {origin origin' : Option Origin} {following following' : List Text}

theorem LineLike.of_same (same : content' = content)
    (hr : content ≠ [] →
      Statement.ReadLike L index leading leading' following following' content content) :
    r.LineLike L index leading leading' following following' content content' := by
  subst same
  by_cases hempty : content' = []
  · exact .blank hempty hempty
  by_cases hbrace : content' = ['}']
  · exact .brace hbrace rfl
  by_cases hbranch : startsWith "else".toList content' = true ∧
      (r.addBranch index leading.length (some ⟨index, index, leading⟩) content').2 ≠ none
  · exact .branch hempty hbranch.1 hbranch.2 rfl
  · exact .statement hempty hempty hbrace hbrace rfl
      (fun he => ⟨Classical.byContradiction fun hn => hbranch ⟨he, hn⟩, rfl⟩) rfl (hr hempty)

theorem addBranch_congr (h : Header.readBranch content' = Header.readBranch content)
    (hn : (r.addBranch index i origin content).2 = none) :
    (r.addBranch index i origin content').2 = none := by
  simp only [addBranch] at hn ⊢
  rw [h]
  split at hn <;> try rfl
  split at hn <;> try rfl
  split at hn
  · split at hn
    · rename_i ho ha
      simp [ho, ha]
    · cases hn
  · cases hn

theorem Like.of_addBranch {x x' : Reading} {j : Nat} (h : r.Like L r')
    (hn : r.addBranch index i origin content = (x, none))
    (hn' : r'.addBranch index j origin' content' = (x', none)) : x.Like L x' := by
  rcases addBranch_none hn with rfl | ⟨m, rfl⟩
  · rcases addBranch_none hn' with rfl | ⟨m', rfl⟩
    · exact h
    · exact ⟨h.stack, h.outline⟩
  · rcases addBranch_none hn' with rfl | ⟨m', rfl⟩
    · exact ⟨h.stack, h.outline⟩
    · exact h.remark m m'

/-- Lines alike keep readings alike and take as many of the lines that follow. -/
theorem Like.readLine (h : r.Like L r')
    (hlead : Text.leading (trimReturns line) = leading)
    (hlead' : Text.leading (trimReturns line') = leading')
    (hs : ∀ s, L.Shown (s, some ⟨index, index, leading⟩) (s, some ⟨index, index, leading'⟩))
    (hlen : trim line ≠ [] → leading'.length = leading.length + L.shift)
    (hl : r.LineLike L index leading leading' following following' (trim line) (trim line')) :
    (r.readLine index line following).1.Like L (r'.readLine index line' following').1 ∧
      (r'.readLine index line' following').2 = (r.readLine index line following).2 := by
  simp only [Reading.readLine, hlead, hlead']
  cases hl with
  | blank empty empty' =>
    rw [empty, empty']
    exact ⟨h.addBlank (hs _), rfl⟩
  | branch nonempty branch added same =>
    have hb := h.addBranch hs index leading.length (trim line)
    have hne : (trim line).isEmpty = false := by simpa using nonempty
    rw [same, hne, branch, hlen nonempty]
    simp only [Bool.false_eq_true, if_false, if_true]
    generalize r.addBranch index _ _ _ = p at hb added ⊢
    generalize r'.addBranch index _ _ _ = p' at hb ⊢
    obtain ⟨x, k⟩ := p
    obtain ⟨x', k'⟩ := p'
    obtain ⟨hx, rfl⟩ : x.Like L x' ∧ k' = k := hb
    cases k' with
    | none => exact absurd rfl added
    | some k => exact ⟨hx, rfl⟩
  | brace brace same =>
    have hb := hlen (by simp [brace])
    rw [same, brace, hb]
    exact ⟨h.addBrace hs rfl _ _, rfl⟩
  | statement nonempty nonempty' brace brace' alternative branch header reads =>
    have hne : (trim line).isEmpty = false := by simpa using nonempty
    have hne' : (trim line').isEmpty = false := by simpa using nonempty'
    rw [hne, hne', alternative, header]
    simp only [Bool.false_eq_true, if_false, brace, brace']
    by_cases halt : startsWith "else".toList (trim line) = true
    · obtain ⟨hn, hread⟩ := branch halt
      have hn' := (h.addBranch hs index leading.length (trim line)).2.trans hn
      rw [← hlen nonempty] at hn'
      have hn' := addBranch_congr hread hn'
      simp only [halt, if_true]
      generalize hp : r.addBranch index _ _ _ = p at hn ⊢
      generalize hp' : r'.addBranch index _ _ _ = p' at hn' ⊢
      obtain ⟨x, k⟩ := p
      obtain ⟨x', k'⟩ := p'
      obtain rfl : k = none := hn
      obtain rfl : k' = none := hn'
      exact (h.of_addBranch hp hp').addStatement (hlen nonempty) hs reads
    · simp only [halt]
      cases isHeaderLine (trim line) with
      | true =>
        simp only [if_true, h.stack, hlen nonempty, dropWhile_isFlat_shift]
        exact (h.restack _).addStatement (hlen nonempty) hs reads
      | false =>
        simp only [Bool.false_eq_true, if_false]
        exact h.addStatement (hlen nonempty) hs reads

end Reading

/-- With `f line` in the place of each line, a line has the same content as before and is read alike in
front of the given lines. -/
structure Likeness.Preserves (L : Likeness) (f : Text → Text) (line : Text) (following : List Text) :
    Prop where
  content : trim (f line) = trim line
  shown : ∀ s index, L.Shown (s, some ⟨index, index, leading (trimReturns line)⟩)
    (s, some ⟨index, index, leading (trimReturns (f line))⟩)
  indent : trim line ≠ [] →
    (leading (trimReturns (f line))).length = (leading (trimReturns line)).length + L.shift
  reads : trim line ≠ [] → ∀ index, Statement.ReadLike L index (leading (trimReturns line))
    (leading (trimReturns (f line))) following (following.map f) (trim line) (trim line)

namespace Reading
variable {r r' : Reading} {f : Text → Text} {lines : List Text} {s s' : Text}

theorem Like.readLines (h : r.Like L r')
    (hf : ∀ line following, line :: following <:+ lines → L.Preserves f line following)
    (skip index : Nat) :
    (r.readLines skip index lines).Like L (r'.readLines skip index (lines.map f)) := by
  induction lines generalizing r r' skip index with
  | nil => exact h
  | cons line lines ih =>
    have hrest (l : Text) (ls : List Text) (hs : l :: ls <:+ lines) : L.Preserves f l ls :=
      hf l ls (hs.trans (List.suffix_cons line lines))
    cases skip with
    | zero =>
      have hp := hf line lines List.suffix_rfl
      have hline := LineLike.of_same (r := r) hp.content fun hne => hp.reads hne index
      have hstep := h.readLine rfl rfl (fun s => hp.shown s index) hp.indent hline
      rw [List.map_cons, Reading.readLines, Reading.readLines, hstep.2]
      exact ih hstep.1 hrest _ _
    | succ skip => exact ih h hrest _ _

theorem like_ofText (hl : s'.lines = s.lines.map f)
    (hf : ∀ line following, line :: following <:+ s.lines → L.Preserves f line following) :
    (ofText s).Like L (ofText s') := by
  rw [ofText, ofText, hl]
  exact Like.start.readLines hf 0 0

end Reading

end Devalang
