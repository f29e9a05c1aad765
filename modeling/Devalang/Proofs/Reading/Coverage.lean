import Devalang.Proofs.Outline.Walk
import Devalang.Proofs.Reading.Effect

/-! The lines that the statements of a reading stand on. Every line is taken by one statement, and a
block is closed at most once, so no line is lost and none is read twice. -/
namespace Devalang

/-- The stretches of lines that a statement stands on: a simple statement on all lines up to its last
one, a header on its own line, and a `param` block that was closed also on the line of its brace. -/
def Statement.stretches (s : Statement) (o : Origin) : List (List Nat) :=
  match s with
  | .simple _ => [List.range' o.line (o.last + 1 - o.line)]
  | .block _ => if s.isParam && o.isMultiline then [[o.line], [o.last]] else [[o.line]]

theorem Statement.line_mem_stretches (s : Statement) {o : Origin} (hle : o.line ≤ o.last) :
    ∃ t ∈ s.stretches o, o.line ∈ t := by
  cases s with
  | simple s =>
    refine ⟨List.range' o.line (o.last + 1 - o.line), by simp [stretches], ?_⟩
    rw [List.mem_range'_1]
    omega
  | block b =>
    refine ⟨[o.line], ?_, by simp⟩
    simp only [stretches]
    split <;> simp

def Entry.stretches (e : Entry) : List (List Nat) := (e.origin.map e.statement.stretches).getD []

def Outline.stretches (o : Outline) : List (List Nat) := o.toList.flatMap Entry.stretches

theorem Outline.stretches_push (o : Outline) (e : Entry) :
    Outline.stretches (o.push e) = o.stretches ++ e.stretches := by
  simp [Outline.stretches]

theorem Outline.stretches_close {o : Outline} {e : Entry} {p : Origin} {k last : Nat}
    (he : o[k]? = some e) (ho : e.origin = some p) (hparam : e.statement.isParam = true)
    (hsingle : p.last = p.line) (hlast : p.line ≠ last) :
    (o.close k last).stretches.Perm (o.stretches ++ [[last]]) := by
  obtain ⟨hk, hget⟩ := Array.getElem?_eq_some_iff.1 he
  have hlen : k < o.toList.length := by simpa using hk
  obtain ⟨before, hbefore⟩ : ∃ l, l = o.toList.take k := ⟨_, rfl⟩
  obtain ⟨after, hafter⟩ : ∃ l, l = o.toList.drop (k + 1) := ⟨_, rfl⟩
  have hsplit : o.toList = before ++ e :: after := by
    rw [hbefore, hafter, ← hget, ← Array.getElem_toList hk, ← List.drop_eq_getElem_cons hlen,
      List.take_append_drop]
  have hmod : (o.close k last).toList = before ++
      { e with origin := e.origin.map fun p => { p with last := last } } :: after := by
    rw [Outline.close, Array.toList_modify, List.modify_eq_take_cons_drop hlen, hbefore, hafter]
    simp [hget]
  have hold : e.stretches = [[p.line]] := by
    cases hs : e.statement with
    | simple s => simp [hs, Statement.isParam] at hparam
    | block h => simp [Entry.stretches, Statement.stretches, ho, hs, Origin.isMultiline, hsingle]
  have hnew : Entry.stretches { e with origin := e.origin.map fun p => { p with last := last } } =
      [[p.line], [last]] := by
    cases hs : e.statement with
    | simple s => simp [hs, Statement.isParam] at hparam
    | block h =>
      rw [hs] at hparam
      simp [Entry.stretches, Statement.stretches, ho, hparam, Origin.isMultiline, Ne.symm hlast]
  simp only [Outline.stretches, hmod, hsplit, List.flatMap_append, List.flatMap_cons, hold, hnew,
    List.append_assoc, List.cons_append, List.nil_append]
  refine List.Perm.append_left _ (List.Perm.cons _ ?_)
  exact @List.perm_append_comm _ [[last]] _

theorem Outline.places_close (o : Outline) (k last : Nat) :
    (o.close k last).toList.map Entry.place = o.toList.map Entry.place := by
  apply List.ext_getElem?
  intro i
  simp only [Outline.close, Array.toList_modify, List.getElem?_map, List.getElem?_modify]
  cases o.toList[i]? with
  | none => rfl
  | some e => by_cases hk : k = i <;> simp [hk, Entry.place]

theorem Outline.mem_close {o : Outline} {k last : Nat} {e : Entry}
    (h : e ∈ (o.close k last).toList) : e ∈ o.toList ∨ ∃ f, o[k]? = some f ∧
      e = { f with origin := f.origin.map fun p => { p with last := last } } := by
  obtain ⟨i, hi⟩ := List.mem_iff_getElem?.1 h
  simp only [Outline.close, Array.toList_modify, List.getElem?_modify] at hi
  obtain ⟨f, hf, he⟩ := Option.map_eq_some_iff.1 hi
  by_cases hk : k = i
  · exact Or.inr ⟨f, by simpa [hk] using hf, by simpa [hk] using he.symm⟩
  · have hfe : f = e := by simpa [hk] using he
    exact Or.inl (List.mem_iff_getElem?.2 ⟨i, hfe ▸ hf⟩)

theorem Outline.hasAlternate_eq_false_iff {o : Outline} {k : Nat} :
    o.hasAlternate k = false ↔ (some k, Role.alternate) ∉ o.toList.map Entry.place := by
  rw [Outline.hasAlternate, Bool.eq_false_iff, not_iff_not, Array.any_eq_true', List.mem_map]
  simp [Entry.place]

namespace Reading

/-- What holds after lines have been read of which the next one has the index `next`. -/
structure Sound (r : Reading) (next : Nat) : Prop where
  placed : Placed 0 (r.outline.toList.map Entry.place)
  /-- Open blocks are headers that have not been closed. -/
  block : ∀ c ∈ r.stack, ∃ e p, r.outline[c.node]? = some e ∧ e.origin = some p ∧
    p.last = p.line ∧ p.line < next
  conditional : ∀ c ∈ r.stack, ∀ k, c.conditional = some k → k < r.outline.size
  nodup : (r.stack.map Context.node).Nodup
  origin : ∀ e ∈ r.outline.toList, ∃ p, e.origin = some p ∧ p.line ≤ p.last
  covered : r.outline.stretches.flatten.Perm (List.range next)

theorem Sound.start : Sound .start 0 where
  placed := trivial
  block := by simp [Reading.start]
  conditional := by simp [Reading.start]
  nodup := by simp [Reading.start]
  origin := by simp [Reading.start]
  covered := by simp [Reading.start, Outline.stretches]

variable {r r' : Reading} {index n : Nat} {leading content : Text} {following : List Text}

theorem Sound.node_lt (h : r.Sound index) {c : Context} (hc : c ∈ r.stack) :
    c.node < r.outline.size := by
  obtain ⟨e, p, he, -⟩ := h.block c hc
  exact (Array.getElem?_eq_some_iff.1 he).1

theorem Sound.line_lt (h : r.Sound index) {e : Entry} {p : Origin} (he : e ∈ r.outline.toList)
    (hp : e.origin = some p) : p.line < index := by
  obtain ⟨q, hq, hle⟩ := h.origin e he
  obtain rfl : q = p := by simpa [hq] using hp
  obtain ⟨t, ht, hl⟩ := e.statement.line_mem_stretches hle
  have hm : t ∈ e.stretches := by simpa [Entry.stretches, hq] using ht
  rw [← List.mem_range, ← h.covered.mem_iff]
  exact List.mem_flatten.2 ⟨t, List.mem_flatMap.2 ⟨e, he, hm⟩, hl⟩

theorem Sound.placed_push (h : r.Sound index) {e : Entry} (hf : r.Fits e) :
    Placed 0 ((r.outline.push e).toList.map Entry.place) := by
  have hsize : (r.outline.toList.map Entry.place).length = r.outline.size := by simp
  rw [Array.toList_push, List.map_append, List.map_singleton, placed_concat, hsize]
  refine ⟨h.placed, ?_⟩
  cases hr : e.role with
  | body =>
    simp only [Fits, hr] at hf
    refine ⟨fun k hk => ?_, fun _ => hr, fun ha => by simp [Entry.place, hr] at ha⟩
    obtain ⟨c, hc, rfl⟩ := hf k hk
    simpa using h.node_lt hc
  | elseIf =>
    simp only [Fits, hr] at hf
    obtain ⟨k, hk, c, hc, hck⟩ := hf
    refine ⟨fun j hj => ?_, fun hn => by simp [Entry.place, hk] at hn,
      fun ha => by simp [Entry.place, hr] at ha⟩
    have hj : k = j := by simpa [Entry.place, hk] using hj
    subst hj
    simpa using h.conditional c hc k hck
  | alternate =>
    simp only [Fits, hr] at hf
    obtain ⟨k, hk, hno, c, hc, hck⟩ := hf
    refine ⟨fun j hj => ?_, fun hn => by simp [Entry.place, hk] at hn, fun _ => ?_⟩
    · have hj : k = j := by simpa [Entry.place, hk] using hj
      subst hj
      simpa using h.conditional c hc k hck
    · have hp : e.place = (some k, .alternate) := by simp [Entry.place, hk, hr]
      rw [hp]
      exact Outline.hasAlternate_eq_false_iff.1 hno

theorem Sound.conditional_lt (h : r.Sound index) {c : Context} {k : Nat}
    (hc : c.refers ∈ r.stack.map Context.refers) (hk : c.conditional = some k) :
    k < r.outline.size := by
  obtain ⟨d, hd, hdc⟩ := List.mem_map.1 hc
  simp only [Context.refers, Prod.mk.injEq] at hdc
  exact h.conditional d hd k (hdc.2.trans hk)

theorem Sound.block_push (h : r.Sound index) (e : Entry) {next : Nat} (hn : index ≤ next)
    {c : Context} (hc : c.refers ∈ r.stack.map Context.refers) :
    ∃ f p, (r.outline.push e)[c.node]? = some f ∧ f.origin = some p ∧ p.last = p.line ∧
      p.line < next := by
  obtain ⟨d, hd, hdc⟩ := List.mem_map.1 hc
  simp only [Context.refers, Prod.mk.injEq] at hdc
  obtain ⟨f, p, hf, hp, hs, hl⟩ := h.block d hd
  have hlt := h.node_lt hd
  refine ⟨f, p, ?_, hp, hs, by omega⟩
  rw [← hdc.1, Array.getElem?_push, if_neg (by omega), hf]

theorem map_node_eq (cs : List Context) :
    cs.map Context.node = (cs.map Context.refers).map Prod.fst := by
  simp [Context.refers]

theorem Sound.nodup_of_suffix (h : r.Sound index) {cs : List Context}
    (hs : cs.map Context.refers <:+ r.stack.map Context.refers) : (cs.map Context.node).Nodup := by
  have hn := h.nodup
  rw [map_node_eq] at hn ⊢
  exact hn.sublist (hs.sublist.map _)

theorem Sound.origin_push (h : r.Sound index) {e : Entry} {p : Origin} (hp : e.origin = some p)
    (hle : p.line ≤ p.last) :
    ∀ f ∈ (r.outline.push e).toList, ∃ q, f.origin = some q ∧ q.line ≤ q.last := by
  intro f hf
  rw [Array.toList_push] at hf
  rcases List.mem_append.1 hf with hf | hf
  · exact h.origin f hf
  · obtain rfl := List.mem_singleton.1 hf
    exact ⟨p, hp, hle⟩

theorem Sound.covered_push (h : r.Sound index) {e : Entry} (n : Nat)
    (he : e.stretches.flatten = List.range' index (n + 1)) :
    (Outline.stretches (r.outline.push e)).flatten.Perm (List.range (index + n + 1)) := by
  have hrange : List.range (index + n + 1) = List.range index ++ List.range' index (n + 1) := by
    have ha := List.range'_append_1 (s := 0) (m := index) (n := n + 1)
    rw [Nat.zero_add] at ha
    rw [Nat.add_assoc, List.range_eq_range', List.range_eq_range', ha]
  rw [Outline.stretches_push, List.flatten_append, he, hrange]
  exact h.covered.append_right _

theorem Sound.adds (h : r.Sound index) {s : Simple} {owner : Option Nat}
    (fits : r.Fits ⟨.simple s, some ⟨index, index + n, leading⟩, owner, .body⟩)
    (outline : r'.outline =
      r.outline.push ⟨.simple s, some ⟨index, index + n, leading⟩, owner, .body⟩)
    (stack : r'.stack.map Context.refers <:+ r.stack.map Context.refers) :
    r'.Sound (index + n + 1) where
  placed := by
    rw [outline]
    exact h.placed_push fits
  block c hc := by
    rw [outline]
    exact h.block_push _ (by omega) (stack.subset (List.mem_map_of_mem hc))
  conditional c hc k hk := by
    have := h.conditional_lt (stack.subset (List.mem_map_of_mem hc)) hk
    rw [outline, Array.size_push]
    omega
  nodup := h.nodup_of_suffix stack
  origin := by
    rw [outline]
    exact h.origin_push rfl (Nat.le_add_right index n)
  covered := by
    have hlen : index + n + 1 - index = n + 1 := by omega
    rw [outline]
    exact h.covered_push n (by simp [Entry.stretches, Statement.stretches, hlen])

theorem Sound.opens (h : r.Sound index) {b : Header} {owner : Option Nat} {role : Role}
    (fits : r.Fits ⟨.block b, some ⟨index, index, leading⟩, owner, role⟩)
    (outline : r'.outline = r.outline.push ⟨.block b, some ⟨index, index, leading⟩, owner, role⟩)
    {c : Context} {cs : List Context} (stack : r'.stack = c :: cs) (node : c.node = r.outline.size)
    (conditional : ∀ k, c.conditional = some k →
      k = r.outline.size ∨ ∃ d ∈ r.stack, d.conditional = some k)
    (outer : cs.map Context.refers <:+ r.stack.map Context.refers) : r'.Sound (index + 1) where
  placed := by
    rw [outline]
    exact h.placed_push fits
  block := by
    rw [stack, outline, List.forall_mem_cons]
    refine ⟨⟨_, _, by rw [node, Array.getElem?_push_size], rfl, rfl, Nat.lt_succ_self index⟩, ?_⟩
    intro d hd
    exact h.block_push _ (Nat.le_succ index) (outer.subset (List.mem_map_of_mem hd))
  conditional := by
    rw [stack, outline, Array.size_push, List.forall_mem_cons]
    constructor
    · intro k hk
      rcases conditional k hk with rfl | ⟨d, hd, hdk⟩
      · omega
      · have := h.conditional d hd k hdk
        omega
    · intro d hd k hk
      have := h.conditional_lt (outer.subset (List.mem_map_of_mem hd)) hk
      omega
  nodup := by
    rw [stack, List.map_cons, List.nodup_cons]
    refine ⟨fun hm => ?_, h.nodup_of_suffix outer⟩
    obtain ⟨d, hd, hdc⟩ := List.mem_map.1 hm
    obtain ⟨f, hf, hfd⟩ := List.mem_map.1 (outer.subset (List.mem_map_of_mem hd))
    simp only [Context.refers, Prod.mk.injEq] at hfd
    have := h.node_lt hf
    omega
  origin := by
    rw [outline]
    exact h.origin_push rfl (Nat.le_refl index)
  covered := by
    rw [outline]
    exact h.covered_push 0 (by simp [Entry.stretches, Statement.stretches, Origin.isMultiline])

theorem Sound.closes (h : r.Sound index) {c : Context}
    (outline : r'.outline = r.outline.close c.node index)
    (param : r.outline[c.node]?.any (·.statement.isParam) = true)
    (stack : c :: r'.stack <:+ r.stack) : r'.Sound (index + 1) := by
  have hold : ∀ d ∈ r'.stack, d ∈ r.stack := fun d hd => stack.subset (List.mem_cons_of_mem c hd)
  have hnodup := h.nodup.sublist (stack.sublist.map Context.node)
  rw [List.map_cons, List.nodup_cons] at hnodup
  obtain ⟨e, p, he, hp, hs, hl⟩ := h.block c (stack.subset List.mem_cons_self)
  have hparam : e.statement.isParam = true := by simpa [he] using param
  exact {
    placed := by
      rw [outline, Outline.places_close]
      exact h.placed
    block := by
      intro d hd
      have hne : c.node ≠ d.node := fun heq => hnodup.1 (heq ▸ List.mem_map_of_mem hd)
      obtain ⟨f, q, hf, hq, hs', hl'⟩ := h.block d (hold d hd)
      refine ⟨f, q, ?_, hq, hs', by omega⟩
      rw [outline, Outline.close, Array.getElem?_modify, if_neg hne, hf]
    conditional := by
      intro d hd k hk
      simpa [outline, Outline.close] using h.conditional d (hold d hd) k hk
    nodup := hnodup.2
    origin := by
      intro f hf
      rw [outline] at hf
      rcases Outline.mem_close hf with hf | ⟨g, hg, rfl⟩
      · exact h.origin f hf
      · obtain rfl : e = g := by simpa [he] using hg
        exact ⟨_, by rw [hp]; rfl, Nat.le_of_lt hl⟩
    covered := by
      have hclose := Outline.stretches_close he hp hparam hs (Nat.ne_of_lt hl)
      rw [outline, List.range_succ]
      refine hclose.flatten.trans ?_
      rw [List.flatten_append]
      exact h.covered.append (by simp) }

theorem Sound.step (h : r.Sound index) (he : r.Effect index leading content following n r') :
    r'.Sound (index + n + 1) := by
  cases he with
  | adds s owner reads fits outline stack => exact h.adds fits outline stack
  | opens b owner role single reads fits outline c cs stack node conditional outer =>
    subst single
    exact h.opens fits outline stack node conditional outer
  | closes c single outline param stack =>
    subst single
    exact h.closes outline param stack

/-- Reading lines keeps the reading sound, after lines that the statement before them has taken. -/
theorem Sound.readLines {skip : Nat} {lines : List Text} (h : r.Sound (index + skip))
    (hskip : skip ≤ lines.length) : (r.readLines skip index lines).Sound (index + lines.length) := by
  induction lines generalizing r skip index with
  | nil =>
    obtain rfl : skip = 0 := by simpa using hskip
    simpa [Reading.readLines] using h
  | cons line lines ih =>
    have hlen : index + (line :: lines).length = index + 1 + lines.length := by
      simp only [List.length_cons]; omega
    rw [hlen]
    cases skip with
    | zero =>
      rw [Reading.readLines]
      refine ih ?_ (readLine_le r index line lines)
      have hs := Sound.step (by simpa using h) (readLine_effect r index line lines)
      rwa [Nat.add_right_comm] at hs
    | succ skip =>
      rw [Reading.readLines]
      refine ih ?_ (by simpa using hskip)
      have he : index + 1 + skip = index + (skip + 1) := by omega
      rwa [he]

theorem sound_ofText (s : Text) : (ofText s).Sound s.lines.length := by
  have h := @Sound.readLines .start 0 0 _ Sound.start (Nat.zero_le s.lines.length)
  simpa [ofText] using h

end Reading

end Devalang
