import Devalang.Proofs.Reading.Turn
import Mathlib.Data.List.Chain

/-! The extent of a block. The open blocks stand one in the body of the other, and the indent at which
the body of a block begins is the least one in it, as long as no brace is met that closes nothing. -/
namespace Devalang

namespace Context

def StandsIn (inner outer : Context) : Prop :=
  ∃ b, outer.bodyIndent = some b ∧ outer.indent ≤ b ∧ b ≤ inner.indent

end Context

/-- Each open block stands in the body of the next one; the body of the innermost one need not have
begun. -/
structure Nested (cs : List Context) : Prop where
  chain : cs.IsChain Context.StandsIn
  innermost : ∀ c, cs.head? = some c → ∀ b, c.bodyIndent = some b → c.indent ≤ b

namespace Nested
variable {c d : Context} {cs ds : List Context} {indent : Nat}

theorem nil : Nested [] := ⟨.nil, by simp⟩

theorem tail (h : Nested (c :: cs)) : Nested cs where
  chain := h.chain.tail
  innermost d hd b hb := by
    obtain ⟨ds, rfl⟩ := List.head?_eq_some_iff.1 hd
    obtain ⟨b', hb', hle, -⟩ := (List.isChain_cons_cons.1 h.chain).1
    obtain rfl : b' = b := Option.some.inj (hb'.symm.trans hb)
    exact hle

theorem suffix (h : Nested ds) (hs : cs <:+ ds) : Nested cs := by
  obtain ⟨ps, rfl⟩ := hs
  induction ps with
  | nil => exact h
  | cons p ps ih => exact ih h.tail

theorem begun (h : Nested cs) (hc : ∀ c, cs.head? = some c → c.contains indent = true) :
    Nested (begun indent cs) := by
  cases cs with
  | nil => exact nil
  | cons c cs =>
    refine ⟨h.chain.imp_head fun ⟨b, hb⟩ => ⟨b, hb⟩, ?_⟩
    rintro _ ⟨⟩ _ ⟨⟩
    cases hbody : c.bodyIndent with
    | none => exact (Context.contains_of_none hbody).1 (hc c rfl)
    | some b => exact h.innermost c rfl b hbody

theorem open_begun (h : Nested cs) (hc : ∀ c, cs.head? = some c → c.contains indent = true)
    (hi : d.indent = indent) (hd : d.bodyIndent = none) : Nested (d :: Devalang.begun indent cs) := by
  have hbegun := h.begun hc
  refine ⟨?_, by simp [hd]⟩
  cases cs with
  | nil => exact .singleton d
  | cons c cs =>
    refine List.isChain_cons_cons.2 ⟨⟨c.bodyIndent.getD indent, rfl, ?_, ?_⟩, hbegun.chain⟩
    · exact hbegun.innermost _ rfl _ rfl
    · rw [hi]
      cases hbody : c.bodyIndent with
      | none => exact Nat.le_refl _
      | some b => exact (Context.contains_of_some hbody).1 (hc c rfl)

theorem replace (h : Nested (c :: cs)) (hi : d.indent = c.indent) (hd : d.bodyIndent = none) :
    Nested (d :: cs) := by
  refine ⟨h.chain.imp_head fun ⟨b, hb, hle, hlt⟩ => ?_, by simp [hd]⟩
  exact ⟨b, hb, hle, hi ▸ hlt⟩

end Nested

/-! The indents in the body of a block. -/

/-- The indent of a statement in the body of the entry `k`, if it is not a blank line. -/
def Entry.inset? (k : Nat) (e : Entry) : Option Nat :=
  if e.place = (some k, .body) ∧ e.statement ≠ .simple .blank then e.indent? else none

namespace Outline
variable {o : Outline} {k : Nat} {e : Entry}

def insets (o : Outline) (k : Nat) : List Nat := o.toList.filterMap (Entry.inset? k)

theorem insets_push (o : Outline) (e : Entry) (k : Nat) :
    insets (o.push e) k = o.insets k ++ (e.inset? k).toList := by
  rw [insets, Array.toList_push, List.filterMap_append, insets]
  cases h : e.inset? k <;> simp [h]

theorem insets_push_of_none (h : e.inset? k = none) : insets (o.push e) k = o.insets k := by
  rw [insets_push, h, Option.toList_none, List.append_nil]

theorem insets_close (o : Outline) (i last k : Nat) : (o.close i last).insets k = o.insets k := by
  have hsame (e : Entry) :
      Entry.inset? k { e with origin := e.origin.map fun p => { p with last := last } } = e.inset? k := by
    simp only [Entry.inset?, Entry.indent?, Entry.place, Option.map_map]
    rfl
  rw [insets, insets, Outline.close, Array.toList_modify]
  generalize o.toList = es
  induction es generalizing i with
  | nil => simp
  | cons e es ih =>
    cases i with
    | zero => simp [List.filterMap_cons, hsame]
    | succ i => simp [List.filterMap_cons, ih]

theorem insets_eq_nil (ho : ∀ (i : Nat) (e : Entry), o[i]? = some e → Outside e.owner i)
    (h : o.size ≤ k + 1) : o.insets k = [] := by
  rw [insets, List.filterMap_eq_nil_iff]
  intro e he
  obtain ⟨i, hi⟩ := List.mem_iff_getElem?.1 he
  rw [Array.getElem?_toList] at hi
  have hlt := (Array.getElem?_eq_some_iff.1 hi).1
  refine if_neg fun hp => ?_
  have hki := ho i e hi k (congrArg Prod.fst hp.1)
  omega

end Outline

namespace Reading

/-- Every body begins at the indent that its open block notes, not before the header, and no statement in
it stands before its first one. -/
structure Extents (r : Reading) : Prop where
  nested : Nested r.stack
  header : ∀ c ∈ r.stack, ∃ e, r.outline[c.node]? = some e ∧ e.indent? = some c.indent
  first : ∀ c ∈ r.stack, (r.outline.insets c.node).head? = c.bodyIndent
  inset : ∀ (k : Nat) (e : Entry) (b : Nat) (bs : List Nat), r.outline[k]? = some e →
    r.outline.insets k = b :: bs → (∃ d, e.indent? = some d ∧ d ≤ b) ∧ ∀ x ∈ bs, b ≤ x

variable {r r' : Reading} {e : Entry} {s : Text} {t : Turn}

theorem Extents.start : Reading.start.Extents where
  nested := .nil
  header := by simp [Reading.start]
  first := by simp [Reading.start]
  inset := by simp [Reading.start]

theorem Extents.opens {d : Context} (h : r.Extents) (ho : r'.outline = r.outline)
    (hs : r'.stack = d :: r.stack) (hnested : Nested r'.stack) (he : r.outline[d.node]? = some e)
    (hi : e.indent? = some d.indent) (hd : r.outline.insets d.node = []) (hb : d.bodyIndent = none) :
    r'.Extents where
  nested := hnested
  header c hc := by
    rw [ho]
    rcases List.mem_cons.1 (hs ▸ hc) with rfl | hc
    · exact ⟨e, he, hi⟩
    · exact h.header c hc
  first c hc := by
    rw [ho]
    rcases List.mem_cons.1 (hs ▸ hc) with rfl | hc
    · rw [hd, hb]
      rfl
    · exact h.first c hc
  inset := by
    rw [ho]
    exact h.inset

theorem Extents.inset_push {k b : Nat} {bs : List Nat} {f : Entry} (h : r.Extents)
    (ho : r'.outline = r.outline.push e)
    (howner : ∀ (i : Nat) (e : Entry), r'.outline[i]? = some e → Outside e.owner i)
    (he : e.inset? k = none) (hf : r'.outline[k]? = some f) (hbs : r'.outline.insets k = b :: bs) :
    (∃ d, f.indent? = some d ∧ d ≤ b) ∧ ∀ x ∈ bs, b ≤ x := by
  rcases Outline.getElem?_push_cases (ho ▸ hf) with ⟨hf, -⟩ | ⟨rfl, -⟩
  · rw [ho, Outline.insets_push_of_none he] at hbs
    exact h.inset k f b bs hf hbs
  · rw [Outline.insets_eq_nil howner (by simp [ho])] at hbs
    cases hbs

/-- A blank line, a branch and a statement outside of all blocks are not among the statements of a
body. -/
theorem Extents.push_outside (h : r.Extents) (ho : r'.outline = r.outline.push e)
    (howner : ∀ (i : Nat) (e : Entry), r'.outline[i]? = some e → Outside e.owner i)
    (he : ∀ k, e.inset? k = none) (hs : r'.stack <:+ r.stack) : r'.Extents where
  nested := h.nested.suffix hs
  header c hc := by
    obtain ⟨f, hf, hi⟩ := h.header c (hs.subset hc)
    exact ⟨f, ho ▸ Outline.getElem?_push_of_some hf e, hi⟩
  first c hc := by
    rw [ho, Outline.insets_push_of_none (he c.node)]
    exact h.first c (hs.subset hc)
  inset k _ _ _ hf hbs := h.inset_push ho howner (he k) hf hbs

theorem Extents.push_body {indent : Nat} {c : Context} {cs : List Context} (h : r.Extents)
    (hnodup : (r.stack.map Context.node).Nodup) (hcs : c :: cs <:+ r.stack)
    (hc : c.contains indent = true) (ho : r'.outline = r.outline.push e)
    (howner : ∀ (i : Nat) (e : Entry), r'.outline[i]? = some e → Outside e.owner i)
    (hi : e.indent? = some indent) (hp : e.place = (some c.node, .body))
    (hblank : e.statement ≠ .simple .blank) (hs : r'.stack = begun indent (c :: cs)) : r'.Extents := by
  have hself : e.inset? c.node = some indent := by simp [Entry.inset?, hp, hblank, hi]
  have hother {k : Nat} (hk : c.node ≠ k) : e.inset? k = none := by simp [Entry.inset?, hp, hk]
  have hfirst := h.first c (hcs.subset List.mem_cons_self)
  have hnested : Nested r'.stack := by
    rw [hs]
    exact (h.nested.suffix hcs).begun fun d hd => Option.some.inj hd ▸ hc
  refine ⟨hnested, fun d hd => ?_, fun d hd => ?_, fun k f b bs hf hbs => ?_⟩
  · obtain ⟨a, ha, hai, han, -⟩ := exists_of_frame (frame_begun indent (c :: cs)) (hs ▸ hd)
    obtain ⟨f, hf, hfi⟩ := h.header a (hcs.subset ha)
    rw [ho, ← hai, ← han]
    exact ⟨f, Outline.getElem?_push_of_some hf e, hfi⟩
  · rw [hs, begun, List.mem_cons] at hd
    rcases hd with rfl | hd
    · rw [ho, Outline.insets_push, hself, List.head?_append, hfirst]
      cases c.bodyIndent <;> rfl
    · have hne : c.node ≠ d.node := by
        have hnot := (List.nodup_cons.1 (hnodup.sublist (hcs.sublist.map _))).1
        exact fun he => hnot (he ▸ List.mem_map_of_mem hd)
      rw [ho, Outline.insets_push_of_none (hother hne)]
      exact h.first d (hcs.subset (List.mem_cons_of_mem c hd))
  · by_cases hk : c.node = k
    · subst hk
      obtain ⟨g, hg, hgi⟩ := h.header c (hcs.subset List.mem_cons_self)
      obtain rfl : g = f := Option.some.inj ((Outline.getElem?_push_of_some hg e).symm.trans (ho ▸ hf))
      rw [ho, Outline.insets_push, hself, Option.toList_some] at hbs
      -- the statement is the first one in the body and begins it, or comes after the others
      cases hold : r.outline.insets c.node with
      | nil =>
        rw [hold] at hbs hfirst
        obtain ⟨rfl, rfl⟩ := List.cons.inj hbs
        have hle : c.indent ≤ indent := (Context.contains_of_none hfirst.symm).1 hc
        exact ⟨⟨c.indent, hgi, hle⟩, by simp⟩
      | cons a as =>
        rw [hold] at hbs hfirst
        obtain ⟨rfl, rfl⟩ := List.cons.inj hbs
        have hle : a ≤ indent := (Context.contains_of_some hfirst.symm).1 hc
        obtain ⟨hd, hall⟩ := h.inset c.node g a as hg hold
        refine ⟨hd, fun x hx => ?_⟩
        rcases List.mem_append.1 hx with hx | hx
        · exact hall x hx
        · exact List.mem_singleton.1 hx ▸ hle
    · exact h.inset_push ho howner (hother hk) hf hbs

theorem Extents.close {k last : Nat} (h : r.Extents) (ho : r'.outline = r.outline.close k last)
    (hs : r'.stack <:+ r.stack) : r'.Extents where
  nested := h.nested.suffix hs
  header c hc := by
    obtain ⟨f, hf, hi⟩ := h.header c (hs.subset hc)
    obtain ⟨g, hg, -, -, hgi⟩ := Outline.getElem?_close_of_some hf k last
    exact ⟨g, ho ▸ hg, hgi.trans hi⟩
  first c hc := by
    rw [ho, Outline.insets_close]
    exact h.first c (hs.subset hc)
  inset i e b bs he hbs := by
    obtain ⟨f, hf, -, -, -, hi, -⟩ := Outline.getElem?_close_cases (ho ▸ he)
    rw [ho, Outline.insets_close] at hbs
    rw [hi]
    exact h.inset i f b bs hf hbs

theorem Extents.turn_statement (ht : t ∈ turns s) (h : t.before.Extents) {st : Statement} {n : Nat}
    (hblank : st ≠ .simple .blank)
    (ho : t.after.outline = t.before.outline.push
      ⟨st, some ⟨t.index, t.index + n, t.leading⟩, t.kept.head?.map Context.node, .body⟩)
    (hs : t.after.stack = st.opened t.indent t.before.outline.size ++ begun t.indent t.kept) :
    t.after.Extents := by
  have howner := (Turn.ordered ht).2.owner
  have hadded : Extents { t.after with stack := begun t.indent t.kept } := by
    cases hk : t.kept with
    | nil =>
      refine h.push_outside ho howner (fun k => ?_) List.nil_suffix
      simp [Entry.inset?, Entry.place, hk]
    | cons c cs =>
      rw [hk] at ho
      exact h.push_body (Turn.sound ht).1.nodup (hk ▸ t.kept_suffix)
        (Turn.contains_of_head?_kept (by rw [hk]; rfl)) ho howner rfl rfl hblank rfl
  cases st with
  | simple st =>
    have hr : t.after = { t.after with stack := begun t.indent t.kept } := by
      rw [← show t.after.stack = begun t.indent t.kept from hs]
    rw [hr]
    exact hadded
  | block b =>
    refine hadded.opens rfl hs ?_ (by rw [ho]; exact Array.getElem?_push_size) rfl ?_ rfl
    · rw [hs]
      exact (h.nested.suffix t.kept_suffix).open_begun (fun c => Turn.contains_of_head?_kept) rfl rfl
    · exact Outline.insets_eq_nil howner (by simp [ho])

def HasOpenParam (r : Reading) : Prop :=
  ∃ c ∈ r.stack, r.outline[c.node]?.any (·.statement.isParam) = true

instance (r : Reading) : Decidable r.HasOpenParam := inferInstanceAs (Decidable (∃ c ∈ r.stack, _))

theorem HasOpenParam.findParam_ne_none (h : r.HasOpenParam) : findParam r.outline r.stack ≠ none := by
  obtain ⟨c, hc, hp⟩ := h
  generalize r.stack = cs at hc
  induction cs with
  | nil => cases hc
  | cons d ds ih =>
    rw [findParam]
    split
    · simp
    · rename_i hd
      rcases List.mem_cons.1 hc with rfl | hc
      · exact absurd hp hd
      · exact ih hc

theorem Extents.turn (ht : t ∈ turns s) (hbrace : t.content = ['}'] → t.before.HasOpenParam)
    (h : t.before.Extents) : t.after.Extents := by
  have howner := (Turn.ordered ht).2.owner
  cases t.move with
  | blank content outline stack remarks =>
    exact h.push_outside outline howner (fun k => by simp [Entry.inset?]) stack
  | branch notStatement b role c k outer conditional suffix continues indent kind outline stack remarks =>
    have hrole : role ≠ .body := by
      rcases kind with ⟨-, rfl, -⟩ | ⟨-, rfl, -⟩ <;> simp
    have hadded : Extents { t.after with stack := outer } :=
      h.push_outside outline howner
        (fun k => by simp [Entry.inset?, Entry.place, hrole]) ((List.suffix_cons c outer).trans suffix)
    refine hadded.opens rfl stack ?_ (by rw [outline]; exact Array.getElem?_push_size) rfl ?_ rfl
    · rw [stack]
      exact (h.nested.suffix suffix).replace indent.symm rfl
    · exact Outline.insets_eq_nil howner (by simp [outline])
  | close content c param outline stack remarks =>
    exact h.close outline ((List.suffix_cons c _).trans stack)
  | stray content none outline stack remarks =>
    exact absurd none (hbrace content).findParam_ne_none
  | statement isStatement st n reads nonblank outline stack remarks =>
    exact h.turn_statement ht nonblank outline stack

/-- Every line that is a closing brace is read inside of a `param` block. -/
def BracesClose (s : Text) : Prop :=
  ∀ t ∈ turns s, t.content = ['}'] → t.before.HasOpenParam

instance (s : Text) : Decidable (BracesClose s) := inferInstanceAs (Decidable (∀ t ∈ turns s, _))

theorem BracesClose.extents (h : BracesClose s) :
    (∀ t ∈ turns s, t.after.Extents) ∧ (ofText s).Extents := by
  obtain ⟨hall, hend⟩ := turns_invariant Extents.start fun t ht => Extents.turn ht (h t ht)
  exact ⟨fun t ht => (hall t ht).2, hend⟩

end Reading

end Devalang
