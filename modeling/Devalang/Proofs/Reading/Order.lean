import Devalang.Proofs.Outline.Order
import Devalang.Proofs.Reading.Coverage

/-! The statements of an outline are in order, except that a closing brace without a `param` block may
be put outside of blocks that stay open. Every other statement belongs to the innermost of the blocks
that are open after it, or continues an `if` in their place. -/
namespace Devalang

/-- A closing brace that closes no `param` block. -/
def Statement.strayBrace : Statement := .simple (.unknown ['}'])

section Open
variable {i k : Nat} {rs rs' : List (Nat × Option Nat)} {a : Nat × Option Nat} {q : Option Nat × Role}

/-- The statements that the open blocks refer to, innermost first: a block and the `if` that its
branches continue come after all the blocks further out. -/
structure Tiered (rs : List (Nat × Option Nat)) : Prop where
  outer : rs.Pairwise fun a b => b.1 < a.2.getD a.1
  conditional : ∀ a ∈ rs, a.2.getD a.1 ≤ a.1

/-- A statement with the given place belongs to the document, to the body of an open block or to the
`if` that an open block continues. -/
def Takes (rs : List (Nat × Option Nat)) (q : Option Nat × Role) : Prop :=
  ∀ k, q.1 = some k → ∃ a ∈ rs, if q.2 = .body then a.1 = k else a.2 = some k

theorem takes_cons : Takes (a :: rs) q ↔
    Takes rs q ∨ ∃ k, q.1 = some k ∧ if q.2 = .body then a.1 = k else a.2 = some k := by
  constructor
  · intro h
    by_cases hq : ∃ k, q.1 = some k ∧ if q.2 = .body then a.1 = k else a.2 = some k
    · exact Or.inr hq
    · refine Or.inl fun k hk => ?_
      obtain ⟨b, hb, hbk⟩ := h k hk
      rcases List.mem_cons.1 hb with rfl | hb
      · exact absurd ⟨k, hk, hbk⟩ hq
      · exact ⟨b, hb, hbk⟩
  · rintro (h | ⟨j, hj, hjk⟩) k hk
    · obtain ⟨b, hb, hbk⟩ := h k hk
      exact ⟨b, List.mem_cons_of_mem a hb, hbk⟩
    · obtain rfl : j = k := by simpa [hj] using hk
      exact ⟨a, List.mem_cons_self, hjk⟩

theorem Tiered.cons (h : Tiered rs) (ho : ∀ b ∈ rs, b.1 < a.2.getD a.1) (hc : a.2.getD a.1 ≤ a.1) :
    Tiered (a :: rs) where
  outer := List.pairwise_cons.2 ⟨ho, h.outer⟩
  conditional b hb := by
    rcases List.mem_cons.1 hb with rfl | hb
    · exact hc
    · exact h.conditional b hb

theorem Tiered.sublist (h : Tiered rs) (hs : rs'.Sublist rs) : Tiered rs' :=
  ⟨h.outer.sublist hs, fun a ha => h.conditional a (hs.subset ha)⟩

theorem Takes.mono (h : Takes rs' q) (hs : rs' ⊆ rs) : Takes rs q := by
  intro k hk
  obtain ⟨a, ha, hak⟩ := h k hk
  exact ⟨a, hs ha, hak⟩

theorem Tiered.le_of_takes (h : Tiered rs) (hq : Takes rs q) (hk : q.1 = some k) :
    ∃ a ∈ rs, a.2.getD a.1 ≤ k ∧ k ≤ a.1 := by
  obtain ⟨a, ha, hak⟩ := hq k hk
  have hle := h.conditional a ha
  refine ⟨a, ha, ?_⟩
  split at hak
  · omega
  · rw [hak, Option.getD_some] at hle ⊢
    exact ⟨Nat.le_refl k, hle⟩

theorem Tiered.follows (h : Tiered rs) (hq : Takes rs q) :
    Role.Follows i (rs.head?.map Prod.fst, .body) q where
  inside k hk hout := by
    exfalso
    obtain ⟨a, ha, -, hle⟩ := h.le_of_takes hq hk
    cases rs with
    | nil => cases ha
    | cons b rs =>
      have hlt : b.1 < k := hout b.1 rfl
      rcases List.mem_cons.1 ha with rfl | ha
      · omega
      · have hb := (List.pairwise_cons.1 h.outer).1 a ha
        have hb' := h.conditional b List.mem_cons_self
        omega
  rank _ := Nat.zero_le _

theorem Tiered.follows_branch (h : Tiered rs) (hq : Takes rs q) {p : Option Nat × Role}
    (hk : p.1 = some k) (hlt : ∀ a ∈ rs, a.1 < k) : Role.Follows i p q where
  inside j hj hout := by
    obtain ⟨a, ha, -, hja⟩ := h.le_of_takes hq hj
    have hak := hlt a ha
    have hkj := hout k hk
    omega
  rank hown := by
    obtain ⟨a, ha, -, hka⟩ := h.le_of_takes hq (hown.trans hk)
    have hak := hlt a ha
    omega

theorem Role.Follows.of_self {p : Option Nat × Role} (hq : q.1 = some i) (hp : p.1 ≠ some i) :
    Role.Follows i p q where
  inside _ hk _ := Nat.le_of_eq (Option.some.inj (hq.symm.trans hk))
  rank hown := absurd (hown.symm.trans hq) hp

theorem Role.Follows.of_branch (hq : q.1 = some k) (hbody : q.2 ≠ .body) :
    Role.Follows i (some k, .elseIf) q where
  inside j hj hout := by
    obtain rfl : k = j := Option.some.inj (hq.symm.trans hj)
    exact absurd (hout k rfl) (Nat.lt_irrefl k)
  rank _ := by
    cases hr : q.2 with
    | body => exact absurd hr hbody
    | elseIf => exact Nat.le_refl _
    | alternate => exact Nat.le_succ _

theorem takes_branch {n : Nat} {role : Role} {conditional : Option Nat}
    (hc : role = .elseIf ∧ conditional = some k ∨ conditional = none)
    (hq : Takes ((n, conditional) :: rs) q) :
    Takes rs q ∨ q.1 = some n ∨ q.1 = some k ∧ q.2 ≠ .body ∧ role = .elseIf := by
  rw [takes_cons] at hq
  refine hq.imp_right ?_
  rintro ⟨j, hj, hcj⟩
  split at hcj
  · exact Or.inl (by rw [hj, ← hcj])
  · rename_i hbody
    rcases hc with ⟨hrole, rfl⟩ | rfl
    · exact Or.inr ⟨by rw [hj, ← hcj], hbody, hrole⟩
    · cases hcj

end Open

/-! Blocks that contain a line. -/

section Contains
variable {c : Context} {cs : List Context} {indent b : Nat}

theorem Context.contains_of_none (h : c.bodyIndent = none) : c.contains indent = true ↔ c.indent ≤ indent := by
  rw [contains, h]
  exact decide_eq_true_iff

theorem Context.contains_of_some (h : c.bodyIndent = some b) : c.contains indent = true ↔ b ≤ indent := by
  rw [contains, h]
  exact decide_eq_true_iff

theorem contains_of_head?_dropWhile
    (h : (cs.dropWhile fun c => !c.contains indent).head? = some c) : c.contains indent = true := by
  have hn := List.head?_dropWhile_not (fun c : Context => !c.contains indent) cs
  rw [h] at hn
  simpa using hn

/-- The body of the innermost block has begun, at the given indent if it had not before. -/
def begun (indent : Nat) : List Context → List Context
  | [] => []
  | c :: cs => { c with bodyIndent := some (c.bodyIndent.getD indent) } :: cs

theorem settle_of_contains (h : ∀ c, cs.head? = some c → c.contains indent = true) :
    settle indent cs = (cs.head?.map Context.node, begun indent cs) := by
  cases cs with
  | nil => rfl
  | cons c cs =>
    rw [settle]
    cases hb : c.bodyIndent with
    | none => simp [begun, hb]
    | some b =>
      have hle : b ≤ indent := (Context.contains_of_some hb).1 (h c rfl)
      simp only [hle, if_true, begun, hb, Option.getD_some, List.head?_cons, Option.map_some]
      rw [← hb]

end Contains

def Entry.line? (e : Entry) : Option Nat := e.origin.map Origin.line

/-! Reading off an entry after the outline has been changed. -/

def Entry.indent? (e : Entry) : Option Nat := e.origin.map Origin.indent

namespace Outline
variable {o : Outline} {e f : Entry} {i k last : Nat}

theorem getElem?_push_of_some (h : o[i]? = some f) (e : Entry) : (o.push e)[i]? = some f := by
  have hlt := (Array.getElem?_eq_some_iff.1 h).1
  rw [Array.getElem?_push, if_neg (by omega), h]

theorem getElem?_push_cases (h : (o.push e)[i]? = some f) :
    o[i]? = some f ∧ i < o.size ∨ i = o.size ∧ f = e := by
  rw [Array.getElem?_push] at h
  split at h
  · rename_i hsize
    exact Or.inr ⟨hsize, (Option.some.inj h).symm⟩
  · exact Or.inl ⟨h, (Array.getElem?_eq_some_iff.1 h).1⟩

theorem getElem?_close_cases (h : (o.close k last)[i]? = some e) :
    ∃ f, o[i]? = some f ∧ e.statement = f.statement ∧ e.place = f.place ∧ e.line? = f.line? ∧
      e.indent? = f.indent? ∧ (i ≠ k → e = f) := by
  rw [Outline.close, Array.getElem?_modify] at h
  split at h
  · rename_i hk
    obtain ⟨f, hf, rfl⟩ := Option.map_eq_some_iff.1 h
    exact ⟨f, hf, rfl, rfl, Option.map_map _ _ _, Option.map_map _ _ _, fun hne => absurd hk.symm hne⟩
  · exact ⟨e, h, rfl, rfl, rfl, rfl, fun _ => rfl⟩

theorem getElem?_close_of_some (h : o[i]? = some f) (k last : Nat) :
    ∃ e, (o.close k last)[i]? = some e ∧ e.statement = f.statement ∧ e.place = f.place ∧
      e.indent? = f.indent? := by
  rw [Outline.close, Array.getElem?_modify]
  split
  · rw [h]
    exact ⟨_, Option.map_some _ _, rfl, rfl, Option.map_map _ _ _⟩
  · exact ⟨f, h, rfl, rfl, rfl⟩

end Outline

namespace Reading

def refers (r : Reading) : List (Nat × Option Nat) := r.stack.map Context.refers

/-- All that has been read is in order but for stray braces, and so is all that the open blocks take. -/
structure Ordered (r : Reading) : Prop where
  tiered : Tiered r.refers
  node : ∀ a ∈ r.refers, a.1 < r.outline.size
  owner : ∀ (i : Nat) (e : Entry), r.outline[i]? = some e → Outside e.owner i
  brace : ∀ (i : Nat) (e : Entry), r.outline[i]? = some e → e.statement = .strayBrace → e.role = .body
  earlier : ∀ i j e f, i < j → r.outline[i]? = some e → r.outline[j]? = some f →
    e.statement ≠ .strayBrace → Role.Follows i e.place f.place
  later : ∀ i e, r.outline[i]? = some e → e.statement ≠ .strayBrace →
    ∀ q, Takes r.refers q → Role.Follows i e.place q

theorem Ordered.start : Ordered .start where
  tiered := ⟨List.Pairwise.nil, by simp [refers, Reading.start]⟩
  node := by simp [refers, Reading.start]
  owner := by simp [Reading.start]
  brace := by simp [Reading.start]
  earlier := by simp [Reading.start]
  later := by simp [Reading.start]

variable {r r' : Reading} {e : Entry}

theorem Ordered.close (h : r.Ordered) (hs : r'.refers.Sublist r.refers) {k last : Nat}
    (ho : r'.outline = r.outline.close k last) : r'.Ordered where
  tiered := h.tiered.sublist hs
  node a ha := by
    rw [ho, Outline.close, Array.size_modify]
    exact h.node a (hs.subset ha)
  owner i e he := by
    obtain ⟨f, hf, -, hp, -⟩ := Outline.getElem?_close_cases (ho ▸ he)
    rw [show e.owner = f.owner from congrArg Prod.fst hp]
    exact h.owner i f hf
  brace i e he hb := by
    obtain ⟨f, hf, hs, hp, -⟩ := Outline.getElem?_close_cases (ho ▸ he)
    rw [show e.role = f.role from congrArg Prod.snd hp]
    exact h.brace i f hf (hs ▸ hb)
  earlier i j e f hij he hf hb := by
    obtain ⟨e', he', hs, hp, -⟩ := Outline.getElem?_close_cases (ho ▸ he)
    obtain ⟨f', hf', -, hp', -⟩ := Outline.getElem?_close_cases (ho ▸ hf)
    rw [hp, hp']
    exact h.earlier i j e' f' hij he' hf' (hs ▸ hb)
  later i e he hb q hq := by
    obtain ⟨e', he', hs', hp, -⟩ := Outline.getElem?_close_cases (ho ▸ he)
    rw [hp]
    exact h.later i e' he' (hs' ▸ hb) q (hq.mono hs.subset)

/-- A statement that an open block takes keeps all in order, if what is open after it may follow it. -/
theorem Ordered.push (h : r.Ordered) (ho : r'.outline = r.outline.push e) (hf : Takes r.refers e.place)
    (hbrace : e.statement = .strayBrace → e.role = .body) (ht : Tiered r'.refers)
    (hn : ∀ a ∈ r'.refers, a.1 ≤ r.outline.size)
    (hold : ∀ q, Takes r'.refers q → Takes r.refers q ∨ q.1 = some r.outline.size)
    (hnew : e.statement ≠ .strayBrace → ∀ q, Takes r'.refers q →
      Role.Follows r.outline.size e.place q) : r'.Ordered := by
  have hget {i : Nat} {f : Entry} (hi : r'.outline[i]? = some f) :
      r.outline[i]? = some f ∧ i < r.outline.size ∨ i = r.outline.size ∧ f = e :=
    Outline.getElem?_push_cases (ho ▸ hi)
  have howner : Outside e.owner r.outline.size := by
    intro k hk
    obtain ⟨a, ha, -, hle⟩ := h.tiered.le_of_takes hf hk
    exact Nat.lt_of_le_of_lt hle (h.node a ha)
  refine ⟨ht, fun a ha => ?_, ?_, ?_, ?_, ?_⟩
  · rw [ho, Array.size_push]
    exact Nat.lt_succ_of_le (hn a ha)
  · intro i f hi
    rcases hget hi with ⟨hi, -⟩ | ⟨rfl, rfl⟩
    · exact h.owner i f hi
    · exact howner
  · intro i f hi
    rcases hget hi with ⟨hi, -⟩ | ⟨rfl, rfl⟩
    · exact h.brace i f hi
    · exact hbrace
  · intro i j f g hij hi hj hb
    rcases hget hi with ⟨hi, hilt⟩ | ⟨rfl, rfl⟩
    · rcases hget hj with ⟨hj, -⟩ | ⟨rfl, rfl⟩
      · exact h.earlier i j f g hij hi hj hb
      · exact h.later i f hi hb _ hf
    · rcases hget hj with ⟨-, hj⟩ | ⟨rfl, -⟩ <;> omega
  · intro i f hi hb q hq
    rcases hget hi with ⟨hi, hilt⟩ | ⟨rfl, rfl⟩
    · rcases hold q hq with hq | hq
      · exact h.later i f hi hb q hq
      · refine ⟨fun k hk _ => ?_, fun hown => ?_⟩
        · obtain rfl : r.outline.size = k := by simpa [hq] using hk
          exact Nat.le_of_lt hilt
        · have hlt := h.owner i f hi r.outline.size (by rw [← hq, hown]; rfl)
          omega
    · exact hnew hb q hq

/-- A statement in the body of the innermost block that stays open keeps all in order, and so does a
stray brace in the body of another one. -/
theorem Ordered.adds (h : r.Ordered) (ho : r'.outline = r.outline.push e)
    (hs : r'.refers.Sublist r.refers) (hr : e.role = .body) (hf : Takes r'.refers e.place)
    (hown : e.statement = .strayBrace ∨ e.owner = r'.refers.head?.map Prod.fst) : r'.Ordered := by
  refine h.push ho (hf.mono hs.subset) (fun _ => hr) (h.tiered.sublist hs)
    (fun a ha => Nat.le_of_lt (h.node a (hs.subset ha))) (fun q hq => Or.inl (hq.mono hs.subset)) ?_
  intro hb q hq
  have hp : e.place = (r'.refers.head?.map Prod.fst, .body) := by
    rw [Entry.place, hown.resolve_left hb, hr]
  rw [hp]
  exact (h.tiered.sublist hs).follows hq

theorem Ordered.node_cons (h : r.Ordered) {rs : List (Nat × Option Nat)} (hs : rs.Sublist r.refers)
    (conditional : Option Nat) : ∀ a ∈ (r.outline.size, conditional) :: rs, a.1 ≤ r.outline.size :=
  List.forall_mem_cons.2 ⟨Nat.le_refl _, fun a ha => Nat.le_of_lt (h.node a (hs.subset ha))⟩

theorem Ordered.opens (h : r.Ordered) {rs : List (Nat × Option Nat)} (conditional : Option Nat)
    (ho : r'.outline = r.outline.push e) (hr' : r'.refers = (r.outline.size, conditional) :: rs)
    (hs : rs.Sublist r.refers) (hc : ∀ k, conditional = some k → k = r.outline.size)
    (hp : e.place = (rs.head?.map Prod.fst, .body)) : r'.Ordered := by
  have hroot : conditional.getD r.outline.size = r.outline.size := by
    cases conditional with
    | none => rfl
    | some k => exact hc k rfl
  have htiered := h.tiered.sublist hs
  have hlt : ∀ b ∈ rs, b.1 < r.outline.size := fun b hb => h.node b (hs.subset hb)
  have hcases {q : Option Nat × Role} (hq : Takes r'.refers q) :
      Takes rs q ∨ q.1 = some r.outline.size := by
    rw [hr', takes_cons] at hq
    refine hq.imp_right ?_
    rintro ⟨k, hk, hck⟩
    split at hck
    · rw [hk, ← hck]
    · rw [hk, hc k hck]
  have hhead : Takes rs e.place := by
    intro k hk
    rw [hp] at hk ⊢
    obtain ⟨a, ha, rfl⟩ := Option.map_eq_some_iff.1 hk
    exact ⟨a, List.mem_of_mem_head? ha, rfl⟩
  have howner : e.place.1 ≠ some r.outline.size := by
    intro hown
    obtain ⟨a, ha, -, hle⟩ := htiered.le_of_takes hhead hown
    have := hlt a ha
    omega
  refine h.push ho (hhead.mono hs.subset) (fun _ => congrArg Prod.snd hp) ?_ (hr' ▸ h.node_cons hs _)
    (fun q hq => (hcases hq).imp_left fun hq => hq.mono hs.subset) ?_
  · rw [hr']
    exact htiered.cons (by rw [hroot]; exact hlt) (Nat.le_of_eq hroot)
  · intro _ q hq
    rcases hcases hq with hq | hq
    · rw [hp]
      exact htiered.follows hq
    · exact .of_self hq howner

theorem Ordered.branches (h : r.Ordered) {rs : List (Nat × Option Nat)} {b : Nat × Option Nat}
    {conditional : Option Nat} {k : Nat} (ho : r'.outline = r.outline.push e)
    (hr' : r'.refers = (r.outline.size, conditional) :: rs) (hs : (b :: rs).Sublist r.refers)
    (hb : b.2 = some k) (hk : e.owner = some k) (hr : e.role ≠ .body) (he : e.statement ≠ .strayBrace)
    (hc : e.role = .elseIf ∧ conditional = some k ∨ conditional = none) : r'.Ordered := by
  have htiered := h.tiered.sublist hs
  have hle : k ≤ b.1 := by simpa [hb] using htiered.conditional b List.mem_cons_self
  have hbsize : b.1 < r.outline.size := h.node b (hs.subset List.mem_cons_self)
  have hlt : ∀ a ∈ rs, a.1 < k := by
    intro a ha
    simpa [hb] using (List.pairwise_cons.1 htiered.outer).1 a ha
  have htail := htiered.sublist (List.sublist_cons_self b rs)
  have hrs := (List.sublist_cons_self b rs).trans hs
  have hbranch {q : Option Nat × Role} (hq : q.1 = some k) (hbody : q.2 ≠ .body) : Takes r.refers q := by
    intro j hj
    refine ⟨b, hs.subset List.mem_cons_self, ?_⟩
    rw [if_neg hbody, hb, ← hq, hj]
  refine h.push ho (hbranch hk hr) (fun hs => absurd hs he) ?_ (hr' ▸ h.node_cons hrs _) ?_ ?_
  · rw [hr']
    refine htail.cons ?_ ?_ <;> rcases hc with ⟨-, rfl⟩ | rfl
    · exact hlt
    · exact fun a ha => Nat.lt_trans (Nat.lt_of_lt_of_le (hlt a ha) hle) hbsize
    · exact Nat.le_trans hle (Nat.le_of_lt hbsize)
    · exact Nat.le_refl _
  · intro q hq
    rcases takes_branch hc (hr' ▸ hq) with hq | hq | ⟨hq, hbody, -⟩
    · exact Or.inl (hq.mono hrs.subset)
    · exact Or.inr hq
    · exact Or.inl (hbranch hq hbody)
  · intro _ q hq
    rcases takes_branch hc (hr' ▸ hq) with hq | hq | ⟨hq, hbody, hrole⟩
    · exact htail.follows_branch hq hk hlt
    · refine .of_self hq fun hown => ?_
      have hkey := Option.some.inj (hk.symm.trans hown)
      omega
    · rw [Entry.place, hk, hrole]
      exact .of_branch hq hbody

/-! What a line does. -/

section Line
variable {index indent : Nat} {leading content line : Text} {following : List Text} {origin : Origin}

theorem Ordered.congr (h : r.Ordered) (ho : r'.outline = r.outline)
    (hs : r'.refers.Sublist r.refers) : r'.Ordered where
  tiered := h.tiered.sublist hs
  node a ha := by
    rw [ho]
    exact h.node a (hs.subset ha)
  owner i e he := h.owner i e (ho ▸ he)
  brace i e he := h.brace i e (ho ▸ he)
  earlier i j e f hij he hf hb := h.earlier i j e f hij (ho ▸ he) (ho ▸ hf) hb
  later i e he hb q hq := h.later i e (ho ▸ he) hb q (hq.mono hs.subset)

theorem Ordered.restack (h : r.Ordered) {cs : List Context} (hs : cs.Sublist r.stack) :
    Ordered { r with stack := cs } := h.congr rfl (hs.map _)

theorem head?_refers (cs : List Context) :
    (cs.map Context.refers).head?.map Prod.fst = cs.head?.map Context.node := by
  cases cs <;> rfl

theorem takes_settle (indent : Nat) (cs : List Context) :
    Takes (cs.map Context.refers) ((settle indent cs).1, .body) := by
  intro k hk
  obtain ⟨c, hc, rfl⟩ := settle_owner hk
  exact ⟨c.refers, List.mem_map_of_mem hc, rfl⟩

theorem settle_innermost {cs : List Context} (h : ∀ c, cs.head? = some c → c.contains indent = true) :
    (settle indent cs).1 = (cs.map Context.refers).head?.map Prod.fst := by
  rw [settle_of_contains h, head?_refers]

theorem Ordered.addBlank (h : r.Ordered) (origin : Origin) : (r.addBlank origin).Ordered := by
  have hs : (r.addBlank origin).stack.Sublist r.stack := by
    simp only [Reading.addBlank]
    cases r.stack with
    | nil => exact List.Sublist.refl _
    | cons c cs => by_cases hf : c.isFlat = true <;> simp [hf]
  have hown : (r.addBlank origin).stack.head?.map Context.node =
      (r.addBlank origin).refers.head?.map Prod.fst := (head?_refers _).symm
  refine h.adds (e := ⟨.simple .blank, some origin, (r.addBlank origin).stack.head?.map Context.node, .body⟩)
    rfl (hs.map _) rfl ?_ (Or.inr hown)
  intro k hk
  obtain ⟨c, hc, rfl⟩ := Option.map_eq_some_iff.1 hk
  exact ⟨c.refers, List.mem_map_of_mem (List.mem_of_mem_head? hc), rfl⟩

theorem Ordered.add (h : r.Ordered) {s : Statement}
    (hi : s = .strayBrace ∨ ∀ c, r.stack.head? = some c → c.contains indent = true) :
    (r.add indent s origin).Ordered := by
  have hr : (r.add indent s origin).refers = r.refers := settle_refers indent r.stack
  refine h.adds (e := ⟨s, some origin, (settle indent r.stack).1, .body⟩) rfl
    (by rw [hr]) rfl ?_ (hi.imp_right fun hi => ?_)
  · rw [hr]
    exact takes_settle indent r.stack
  · rw [hr]
    exact settle_innermost hi

theorem Ordered.addBrace (h : r.Ordered) : (r.addBrace indent origin ['}']).Ordered := by
  simp only [Reading.addBrace]
  split
  · rename_i k outer hf
    obtain ⟨c, hc, -, -⟩ := findParam_eq_some hf
    exact h.close ((((List.suffix_cons c outer).trans hc).sublist).map _) rfl
  · have hm : (r.remark (.noParam origin.line)).Ordered := h.congr rfl (List.Sublist.refl _)
    exact hm.add (Or.inl rfl)

theorem Ordered.addBranch (h : r.Ordered) (indent index : Nat) (origin : Option Origin) (content : Text) :
    (r.addBranch index indent origin content).1.Ordered := by
  generalize hadd : r.addBranch index indent origin content = added
  obtain ⟨r', branch⟩ := added
  cases branch with
  | none =>
    rcases addBranch_none hadd with rfl | ⟨m, rfl⟩
    · exact h
    · exact h.congr rfl (List.Sublist.refl _)
  | some branch =>
    obtain ⟨-, b, role, c, k, outer, -, hc, hkind, hstack, hout, -⟩ := addBranch_eq_some hadd
    have hs : (c.refers :: outer.map Context.refers).Sublist r.refers := hc.suffix.sublist.map _
    have hrefers : r'.refers = (r.outline.size, if role = .elseIf then some k else none) ::
        outer.map Context.refers := by
      rw [Reading.refers, hstack]
      rfl
    refine h.branches hout hrefers hs hc.conditional rfl ?_ (by simp [Statement.strayBrace]) ?_
    · rcases hkind with ⟨-, rfl⟩ | ⟨-, rfl, -⟩ <;> simp
    · rcases hkind with ⟨-, rfl⟩ | ⟨-, rfl, -⟩ <;> simp

theorem Ordered.addStatement (h : r.Ordered) (index : Nat) (leading content : Text)
    (following : List Text) : (r.addStatement index leading content following).1.Ordered := by
  obtain ⟨cs, hcs⟩ : ∃ cs, cs = r.stack.dropWhile (!·.contains leading.length) := ⟨_, rfl⟩
  have hrest : Ordered { r with stack := cs } :=
    h.restack (hcs ▸ (List.dropWhile_suffix _).sublist)
  have hhead : ∀ c, cs.head? = some c → c.contains leading.length = true := by
    rw [hcs]
    exact fun c => contains_of_head?_dropWhile
  simp only [Reading.addStatement, ← hcs]
  split
  · have hremark (m : Remark) : ({ r with stack := cs }.remark m).Ordered :=
      hrest.congr rfl (List.Sublist.refl _)
    exact (hremark _).add (Or.inr hhead)
  · rename_i s n _
    split
    · exact hrest.add (Or.inr hhead)
    · rename_i b _
      have hr := settle_refers leading.length cs
      refine hrest.opens (if (Statement.block b).isConditional then some r.outline.size else none)
        (e := ⟨.block b, some ⟨index, index + n, leading⟩, (settle leading.length cs).1, .body⟩)
        rfl ?_ (List.Sublist.refl (cs.map Context.refers)) ?_ ?_
      · rw [← hr]
        rfl
      · intro k hk
        split at hk
        · exact (Option.some.inj hk).symm
        · cases hk
      · rw [← settle_innermost hhead]
        rfl

theorem Ordered.readLine (h : r.Ordered) (index : Nat) (line : Text) (following : List Text) :
    (r.readLine index line following).1.Ordered := by
  simp only [Reading.readLine]
  split
  · exact h.addBlank _
  split
  · split
    · rename_i r' branch hb
      have hr := h.addBranch (Text.leading (Text.trimReturns line)).length index
        (some ⟨index, index, Text.leading (Text.trimReturns line)⟩) (Text.trim line)
      rwa [hb] at hr
    · rename_i r' hb
      have hr := h.addBranch (Text.leading (Text.trimReturns line)).length index
        (some ⟨index, index, Text.leading (Text.trimReturns line)⟩) (Text.trim line)
      rw [hb] at hr
      exact hr.addStatement _ _ _ _
  split
  · rename_i hbrace
    rw [hbrace]
    exact h.addBrace
  split
  · exact (h.restack (List.dropWhile_suffix _).sublist).addStatement _ _ _ _
  · exact h.addStatement _ _ _ _

theorem Ordered.readLines {skip : Nat} {lines : List Text} (h : r.Ordered) :
    (r.readLines skip index lines).Ordered := by
  induction lines generalizing r skip index with
  | nil => exact h
  | cons line lines ih =>
    cases skip with
    | zero => exact ih (h.readLine index line lines)
    | succ skip => exact ih h

theorem ordered_ofText (s : Text) : (ofText s).Ordered := Ordered.start.readLines

end Line

/-! The lines of the statements. -/

def Increasing (r : Reading) : Prop :=
  ∀ (i j : Nat) (e f : Entry), i < j → r.outline[i]? = some e → r.outline[j]? = some f →
    ∃ l l', e.line? = some l ∧ f.line? = some l' ∧ l < l'

section Increasing
variable {index n : Nat} {leading content : Text} {following : List Text}

theorem Increasing.push (h : r.Increasing) (hs : r.Sound index) {q : Origin}
    (ho : r'.outline = r.outline.push e) (hq : e.origin = some q) (hl : q.line = index) :
    r'.Increasing := by
  intro i j f g hij hf hg
  rcases Outline.getElem?_push_cases (ho ▸ hf) with ⟨hf, hi⟩ | ⟨rfl, -⟩
  · rcases Outline.getElem?_push_cases (ho ▸ hg) with ⟨hg, -⟩ | ⟨-, rfl⟩
    · exact h i j f g hij hf hg
    · obtain ⟨p, hp, -⟩ := hs.origin f (Array.mem_toList_iff.2 (Array.mem_of_getElem? hf))
      refine ⟨p.line, q.line, by rw [Entry.line?, hp]; rfl, by rw [Entry.line?, hq]; rfl, ?_⟩
      exact hl ▸ hs.line_lt (Array.mem_toList_iff.2 (Array.mem_of_getElem? hf)) hp
  · rcases Outline.getElem?_push_cases (ho ▸ hg) with ⟨-, hj⟩ | ⟨rfl, -⟩ <;> omega

theorem Increasing.step (h : r.Increasing) (hs : r.Sound index)
    (he : r.Effect index leading content following n r') : r'.Increasing := by
  cases he with
  | adds s owner reads fits outline stack => exact h.push hs outline rfl rfl
  | opens b owner role single reads fits outline c cs stack node conditional outer =>
    exact h.push hs outline rfl rfl
  | closes c single outline param stack =>
    intro i j e f hij he hf
    obtain ⟨e', he', -, -, hel, -⟩ := Outline.getElem?_close_cases (outline ▸ he)
    obtain ⟨f', hf', -, -, hfl, -⟩ := Outline.getElem?_close_cases (outline ▸ hf)
    rw [hel, hfl]
    exact h i j e' f' hij he' hf'

theorem Increasing.readLines {skip : Nat} {lines : List Text} (h : r.Increasing)
    (hs : r.Sound (index + skip)) : (r.readLines skip index lines).Increasing := by
  induction lines generalizing r skip index with
  | nil => exact h
  | cons line lines ih =>
    cases skip with
    | zero =>
      have heffect := readLine_effect r index line lines
      have hnext := Sound.step (by simpa using hs) heffect
      rw [Nat.add_right_comm] at hnext
      exact ih (h.step (by simpa using hs) heffect) hnext
    | succ skip =>
      refine ih h ?_
      have he : index + 1 + skip = index + (skip + 1) := by omega
      rwa [he]

theorem increasing_ofText (s : Text) : (ofText s).Increasing := by
  refine Increasing.readLines ?_ Sound.start
  simp [Increasing, Reading.start]

end Increasing

end Reading

end Devalang
