import Devalang.Proofs.Outline.Comparison
import Devalang.Proofs.Outline.Order
import Devalang.Proofs.Reading.Persistence

/-! Reading lines whose indents are those of a tree, a tab for each block around them. One lemma for each
kind of line says which blocks are open after it. -/
namespace Devalang

namespace Context

def Tabbed (tab : Nat) (c : Context) : Prop := c.bodyIndent = none ∨ c.bodyIndent = some (c.indent + tab)

structure Inner (tab d : Nat) (es : List Entry) (c : Context) : Prop where
  tabbed : c.Tabbed tab
  indent : d ≤ c.indent
  entry : ∃ e, es[c.node]? = some e ∧ e.statement.isParam = false

structure Holds (tab d : Nat) (es : List Entry) (c : Context) : Prop where
  tabbed : c.Tabbed tab
  indent : c.indent + tab = d
  node : c.node < es.length

variable {tab d : Nat} {es : List Entry} {c : Context}

theorem Holds.append (h : c.Holds tab d es) (more : List Entry) : c.Holds tab d (es ++ more) where
  tabbed := h.tabbed
  indent := h.indent
  node := by
    rw [List.length_append]
    exact Nat.lt_add_right _ h.node

theorem Tabbed.not_isFlat (h : c.Tabbed tab) (ht : 0 < tab) : c.isFlat = false := by
  rw [isFlat, beq_eq_false_iff_ne]
  rcases h with h | h
  · simp [h]
  · rw [h]
    simp only [ne_eq, Option.some.injEq]
    omega

theorem Tabbed.contains_of_lt (h : c.Tabbed tab) (hd : d < c.indent) : c.contains d = false := by
  rw [contains]
  rcases h with h | h
  · simp only [h, decide_eq_false_iff_not]
    omega
  · simp only [h, decide_eq_false_iff_not]
    omega

theorem contains_of_begun (ht : 0 < tab) (h : c.bodyIndent = some (c.indent + tab)) (hd : d ≤ c.indent) :
    c.contains d = false := by
  simp only [contains, h, decide_eq_false_iff_not]
  omega

theorem Holds.contains (h : c.Holds tab d es) : c.contains d = true := by
  have hi := h.indent
  rw [Context.contains]
  rcases h.tabbed with hb | hb <;> simp only [hb, decide_eq_true_eq] <;> omega

end Context

def settled (d : Nat) : List Context → List Context
  | [] => []
  | c :: cs => { c with bodyIndent := some d } :: cs

def owner? (cs : List Context) : Option Nat := cs.head?.map (·.node)

@[simp] theorem owner?_settled (d : Nat) (cs : List Context) : owner? (settled d cs) = owner? cs := by
  cases cs <;> rfl

@[simp] theorem settled_settled (d : Nat) (cs : List Context) : settled d (settled d cs) = settled d cs := by
  cases cs <;> rfl

namespace Reading

/-- What has been read are the entries `es`. Lines of the indent `d` belong to the innermost of the blocks
`base`, or to the document if there is none; inside of it the blocks `inner` are still open. -/
structure Between (tab d : Nat) (es : List Entry) (inner base : List Context) (r : Reading) : Prop where
  outline : List.Forall₂ Entry.Equal r.outline.toList es
  stack : r.stack = inner ++ base
  inner : ∀ c ∈ inner, c.Inner tab d es
  base : ∀ c, base.head? = some c → c.Holds tab d es
  owned : ∀ e ∈ es, Outside e.owner es.length

variable {tab d : Nat} {es : List Entry} {inner base : List Context} {r : Reading}

theorem Between.size (h : r.Between tab d es inner base) : r.outline.size = es.length := by
  simpa using h.outline.length_eq

theorem Between.not_isFlat (h : r.Between tab d es inner base) (ht : 0 < tab) :
    ∀ c, r.stack.head? = some c → c.isFlat = false := by
  intro c hc
  rw [h.stack, List.head?_append] at hc
  cases hi : inner.head? with
  | some x =>
    obtain rfl : x = c := by simpa [hi] using hc
    exact (h.inner x (List.mem_of_mem_head? hi)).tabbed.not_isFlat ht
  | none =>
    rw [hi] at hc
    exact (h.base c hc).tabbed.not_isFlat ht

theorem Between.settle (h : r.Between tab d es inner base) :
    settle d base = (owner? base, settled d base) := by
  cases base with
  | nil => rfl
  | cons c cs =>
    have hc := h.base c rfl
    rw [Devalang.settle]
    rcases hc.tabbed with hb | hb
    · simp only [hb]
      rfl
    · rw [hc.indent] at hb
      obtain ⟨label, indent, node, bodyIndent, conditional⟩ := c
      obtain rfl : bodyIndent = some d := hb
      simp [owner?, settled]

theorem Between.holds_settled (h : r.Between tab d es inner base) :
    ∀ c, (settled d base).head? = some c → c.Holds tab d es := by
  cases base with
  | nil => simp [settled]
  | cons c cs =>
    have hc := h.base c rfl
    rintro _ ⟨⟩
    exact ⟨Or.inr (by rw [hc.indent]), hc.indent, hc.node⟩

theorem Between.owner (h : r.Between tab d es inner base) : Outside (owner? base) es.length := by
  intro k hk
  obtain ⟨c, hc, rfl⟩ := Option.map_eq_some_iff.1 hk
  exact (h.base c hc).node

theorem Between.dropWhile (h : r.Between tab d es inner base)
    (hclosed : ∀ c ∈ inner, c.contains d = false) :
    r.stack.dropWhile (!·.contains d) = base := by
  rw [h.stack, List.dropWhile_append_of_pos (by simpa using hclosed)]
  cases base with
  | nil => rfl
  | cons c cs => exact List.dropWhile_cons_of_neg (by simp [(h.base c rfl).contains])

theorem owned_concat {e : Entry} (h : ∀ e ∈ es, Outside e.owner es.length) (he : Outside e.owner es.length) :
    ∀ f ∈ es ++ [e], Outside f.owner (es ++ [e]).length := by
  intro f hf k hk
  rw [List.length_append, List.length_singleton]
  rcases List.mem_append.1 hf with hf | hf
  · exact Nat.lt_succ_of_lt (h f hf k hk)
  · rw [List.mem_singleton.1 hf] at hk
    exact Nat.lt_succ_of_lt (he k hk)

theorem Between.outline_push (h : r.Between tab d es inner base) {e e' : Entry} (he : e.Equal e') :
    List.Forall₂ Entry.Equal (r.outline.push e).toList (es ++ [e']) := by
  rw [Array.toList_push]
  exact List.rel_append h.outline (.cons he .nil)

/-! Lines that are read as statements. -/

variable {index n : Nat} {line leading content : Text} {following : List Text}

theorem readLine_eq_addStatement (hne : Text.trim line ≠ [])
    (hbranch : Text.startsWith "else".toList (Text.trim line) = false) (hbrace : Text.trim line ≠ ['}'])
    (hflat : ∀ c, r.stack.head? = some c → c.isFlat = false) :
    r.readLine index line following =
      r.addStatement index (Text.leading (Text.trimReturns line)) (Text.trim line) following := by
  have hdrop (k : Nat) : r.stack.dropWhile (fun c => c.isFlat && c.indent == k) = r.stack := by
    cases hs : r.stack with
    | nil => rfl
    | cons c cs => exact List.dropWhile_cons_of_neg (by simp [hflat c (by rw [hs]; rfl)])
  rw [readLine]
  simp only [List.isEmpty_iff, hne, hbranch, hbrace, hdrop, if_false, Bool.false_eq_true]
  split <;> rfl

theorem Between.addStatement_simple (h : r.Between tab d es inner base)
    (hclosed : ∀ c ∈ inner, c.contains d = false) (hd : leading.length = d) (hne : content ≠ [])
    {s s' : Simple} (hs : s.compare s' = .equal) (o : Option Origin)
    (hreads : Statement.ReadsAs d following content (.simple s) n) :
    (r.addStatement index leading content following).2 = n ∧
      (r.addStatement index leading content following).1.Between tab d
        (es ++ [⟨.simple s', o, owner? base, .body⟩]) [] (settled d base) := by
  have hbetween {r' : Reading} (p : Option Origin)
      (hout : r'.outline = r.outline.push ⟨.simple s, p, owner? base, .body⟩)
      (hstack : r'.stack = settled d base) :
      r'.Between tab d (es ++ [⟨.simple s', o, owner? base, .body⟩]) [] (settled d base) := by
    refine ⟨?_, hstack, by simp, fun c hc => (h.holds_settled c hc).append _,
      owned_concat h.owned h.owner⟩
    rw [hout]
    exact h.outline_push ⟨hs, rfl, rfl⟩
  simp only [addStatement, hd, h.dropWhile hclosed]
  cases hreads with
  | blank hc => exact absurd hc hne
  | known _ _ _ hr =>
    rw [hr]
    refine ⟨rfl, hbetween (some ⟨index, index + n, leading⟩) ?_ ?_⟩ <;> simp [add, h.settle]
  | unknown _ hr =>
    rw [hr]
    refine ⟨rfl, hbetween (some ⟨index, index, leading⟩) ?_ ?_⟩ <;> simp [add, remark, h.settle]

theorem Between.addStatement_block (h : r.Between tab d es inner base)
    (hclosed : ∀ c ∈ inner, c.contains d = false) (hd : leading.length = d) {b : Header} (o : Option Origin)
    (hread : Statement.read? d following content = some (.block b, 0)) :
    (r.addStatement index leading content following).2 = 0 ∧
      (r.addStatement index leading content following).1.Between tab (d + tab)
        (es ++ [⟨.block b, o, owner? base, .body⟩]) []
        (⟨b.label, d, es.length, none,
          if (Statement.block b).isConditional then some es.length else none⟩ :: settled d base) := by
  rw [addStatement]
  simp only [hd, h.dropWhile hclosed, hread, true_and]
  refine ⟨?_, ?_, by simp, ?_, owned_concat h.owned h.owner⟩
  · simp only [add, h.settle]
    exact h.outline_push ⟨Statement.compare_self _, rfl, rfl⟩
  · simp only [add, h.settle, h.size]
    rfl
  · rintro _ ⟨⟩
    exact ⟨Or.inl rfl, rfl, by simp⟩

/-! Blank lines, branches, and closing braces. -/

theorem addBlank_eq (hflat : ∀ c, r.stack.head? = some c → c.isFlat = false) (origin : Origin) :
    r.addBlank origin =
      { r with outline := r.outline.push ⟨.simple .blank, some origin, owner? r.stack, .body⟩ } := by
  obtain ⟨stack, outline, remarks⟩ := r
  cases stack with
  | nil => rfl
  | cons c cs =>
    simp only [addBlank, hflat c rfl, Bool.false_eq_true, if_false]
    rfl

theorem Between.readLine_blank (h : r.Between tab d es [] base) (ht : 0 < tab) (o : Option Origin)
    (hb : Text.trim line = []) :
    (r.readLine index line following).2 = 0 ∧ (r.readLine index line following).1.Between tab d
      (es ++ [⟨.simple .blank, o, owner? base, .body⟩]) [] base := by
  have hstack : r.stack = base := h.stack
  rw [readLine]
  simp only [hb, List.isEmpty_nil, if_true, addBlank_eq (h.not_isFlat ht), hstack, true_and]
  exact ⟨h.outline_push ⟨rfl, rfl, rfl⟩, rfl, by simp, fun c hc => (h.base c hc).append _,
    owned_concat h.owned h.owner⟩

theorem Between.readLine_branch {c : Context} {outer : List Context} {k : Nat} {b : Header}
    (h : r.Between tab (d + tab) es inner (c :: outer)) (ht : 0 < tab) (hk : c.conditional = some k)
    (hlt : k < es.length) (o : Option Origin) (hd : (Text.leading (Text.trimReturns line)).length = d)
    (hb : Header.readBranch (Text.trim line) = some b) (helse : Text.startsWith "else".toList (Text.trim line) = true)
    (halt : b = .otherwise → ∀ e ∈ es, e.place ≠ (some k, .alternate)) :
    (r.readLine index line following).2 = 0 ∧ (r.readLine index line following).1.Between tab (d + tab)
      (es ++ [⟨.block b, o, some k, if b = .otherwise then .alternate else .elseIf⟩]) []
      (⟨b.label, d, es.length, none, if b = .otherwise then none else some k⟩ :: outer) := by
  have hindent : c.indent = d := by
    have := (h.base c rfl).indent
    omega
  have hinner : ∀ x ∈ inner, x.indent = d → x.conditional = none := by
    intro x hx hi
    have := (h.inner x hx).indent
    omega
  have hfind : findConditional d r.stack = some (k, outer) :=
    Continues.findConditional_eq ⟨⟨inner, h.stack, hinner⟩, hindent, hk⟩
  have hne : Text.trim line ≠ [] := by
    intro hn
    rw [hn] at helse
    cases helse
  have hbetween {r' : Reading} (p : Option Origin) {role : Role} {x : Context}
      (hx : x.Tabbed tab ∧ x.indent = d ∧ x.node = es.length)
      (hout : r'.outline = r.outline.push ⟨.block b, p, some k, role⟩) (hstack : r'.stack = x :: outer) :
      r'.Between tab (d + tab) (es ++ [⟨.block b, o, some k, role⟩]) [] (x :: outer) := by
    refine ⟨?_, hstack, by simp, ?_, owned_concat h.owned (by rintro _ ⟨⟩; exact hlt)⟩
    · rw [hout]
      exact h.outline_push ⟨Statement.compare_self _, rfl, rfl⟩
    · rintro _ ⟨⟩
      exact ⟨hx.1, by rw [hx.2.1], by simp [hx.2.2]⟩
  rw [readLine]
  simp only [List.isEmpty_iff, hne, if_false, helse, if_true, addBranch, hb, hd, hfind]
  by_cases hother : b = .otherwise
  · have hno : r.outline.hasAlternate k = false := by
      rw [Outline.hasAlternate_eq_false_iff, Entry.places_eq h.outline, List.mem_map]
      rintro ⟨e, he, hp⟩
      exact halt hother e he hp
    subst hother
    simp only [if_true, hno, Bool.false_eq_true, if_false, true_and]
    exact hbetween _ ⟨Or.inl rfl, rfl, rfl⟩ rfl (by rw [h.size])
  · simp only [hother, if_false, true_and]
    exact hbetween _ ⟨Or.inl rfl, rfl, rfl⟩ rfl (by rw [h.size])

theorem findParam_inner {o : Outline} {c : Context} {outer : List Context}
    (hinner : ∀ x ∈ inner, o[x.node]?.any (·.statement.isParam) = false)
    (hc : o[c.node]?.any (·.statement.isParam) = true) :
    findParam o (inner ++ c :: outer) = some (c.node, outer) := by
  induction inner with
  | nil => simp [findParam, hc]
  | cons x xs ih =>
    rw [List.cons_append, findParam, if_neg (by simp [hinner x (by simp)])]
    exact ih fun y hy => hinner y (List.mem_cons_of_mem x hy)

theorem Between.isParam (h : r.Between tab d es inner base) (k : Nat) :
    r.outline[k]?.any (·.statement.isParam) = es[k]?.any (·.statement.isParam) := by
  have hany (o : Option Entry) : o.any (·.statement.isParam) = (o.map (·.statement.isParam)).getD false := by
    cases o <;> rfl
  rw [hany, hany, ← Array.getElem?_toList, ← List.getElem?_map, ← List.getElem?_map,
    Entry.params_eq h.outline]

theorem Between.readLine_brace {c : Context} {outer : List Context} {e : Entry}
    (h : r.Between tab (d + tab) es inner (c :: outer)) (he : es[c.node]? = some e)
    (hparam : e.statement.isParam = true) (hb : Text.trim line = ['}'])
    (houter : ∀ x, outer.head? = some x → x.Holds tab d es) :
    (r.readLine index line following).2 = 0 ∧
      (r.readLine index line following).1.Between tab d es [] outer := by
  have hfind : findParam r.outline r.stack = some (c.node, outer) := by
    rw [h.stack]
    refine findParam_inner (fun x hx => ?_) ?_
    · obtain ⟨f, hf, hp⟩ := (h.inner x hx).entry
      simp [h.isParam, hf, hp]
    · simp [h.isParam, he, hparam]
  rw [readLine]
  simp only [hb, addBrace, hfind]
  exact ⟨rfl, Entry.equal_close h.outline _ _, rfl, by simp, houter, h.owned⟩

/-- A block that no line closes stays open. -/
theorem Between.leave {c : Context} {outer : List Context} {e : Entry}
    (h : r.Between tab (d + tab) es inner (c :: outer)) (he : es[c.node]? = some e)
    (hparam : e.statement.isParam = false) (houter : ∀ x, outer.head? = some x → x.Holds tab d es) :
    r.Between tab d es (inner ++ [c]) outer where
  outline := h.outline
  stack := by rw [h.stack, List.append_assoc]; rfl
  inner x hx := by
    rcases List.mem_append.1 hx with hx | hx
    · have hi := h.inner x hx
      exact ⟨hi.tabbed, Nat.le_trans (Nat.le_add_right d tab) hi.indent, hi.entry⟩
    · rw [List.mem_singleton.1 hx]
      have hc := h.base c rfl
      exact ⟨hc.tabbed, by have := hc.indent; omega, e, he, hparam⟩
  base := houter
  owned := h.owned

/-- A line of the indent `d` belongs to none of the blocks that are left open, if the body of the outermost
one has begun. -/
theorem Between.closed {c : Context} {outer : List Context} (h : r.Between tab (d + tab) es inner (c :: outer))
    (ht : 0 < tab) (hc : c.bodyIndent = some (d + tab)) : ∀ x ∈ inner ++ [c], x.contains d = false := by
  intro x hx
  rcases List.mem_append.1 hx with hx | hx
  · have hi := h.inner x hx
    exact hi.tabbed.contains_of_lt (by have := hi.indent; omega)
  · rw [List.mem_singleton.1 hx]
    have hi := (h.base c rfl).indent
    exact Context.contains_of_begun ht (by rw [hc, hi]) (by omega)

/-! Runs over several lines. -/

/-- From every reading that `P` holds of, the lines lead to one that `Q` holds of, if the lines
`following` come after them. -/
def Leads (P : Reading → Prop) (lines following : List Text) (Q : Reading → Prop) : Prop :=
  ∀ r index, P r → ∃ r' index', Q r' ∧
    r.readLines 0 index (lines ++ following) = r'.readLines 0 index' following

variable {P Q R : Reading → Prop} {a b : List Text}

theorem Leads.nil (h : ∀ r, P r → Q r) : Leads P [] following Q :=
  fun r index hr => ⟨r, index, h r hr, rfl⟩

theorem Leads.append (h : Leads P a (b ++ following) Q) (h' : Leads Q b following R) :
    Leads P (a ++ b) following R := by
  intro r index hr
  obtain ⟨r₁, i₁, h₁, he₁⟩ := h r index hr
  obtain ⟨r₂, i₂, h₂, he₂⟩ := h' r₁ i₁ h₁
  exact ⟨r₂, i₂, h₂, by rw [List.append_assoc, he₁, he₂]⟩

theorem Leads.weaken (h : Leads P a following Q) (hq : ∀ r, Q r → R r) : Leads P a following R := by
  intro r index hr
  obtain ⟨r', i', h', he⟩ := h r index hr
  exact ⟨r', i', hq r' h', he⟩

theorem readLines_skip (r : Reading) (index : Nat) (skipped following : List Text) :
    r.readLines skipped.length index (skipped ++ following) =
      r.readLines 0 (index + skipped.length) following := by
  induction skipped generalizing index with
  | nil => rfl
  | cons line skipped ih =>
    rw [List.length_cons, List.cons_append, readLines, ih, Nat.add_right_comm]
    rfl

theorem Leads.single {skipped : List Text} (h : ∀ (r : Reading) (index : Nat), P r →
    (r.readLine index line (skipped ++ following)).2 = skipped.length ∧
      Q (r.readLine index line (skipped ++ following)).1) : Leads P (line :: skipped) following Q := by
  intro r index hr
  obtain ⟨hn, hq⟩ := h r index hr
  refine ⟨_, index + 1 + skipped.length, hq, ?_⟩
  rw [List.cons_append, readLines, hn, readLines_skip]

theorem Leads.step (h : ∀ (r : Reading) (index : Nat), P r →
    (r.readLine index line following).2 = 0 ∧ Q (r.readLine index line following).1) :
    Leads P [line] following Q := Leads.single h

end Reading

end Devalang
