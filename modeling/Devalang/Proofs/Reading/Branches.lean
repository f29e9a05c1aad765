import Devalang.Proofs.Reading.Turn

/-! The branches of an `if`. While lines are read every open block continues an `if` of its own, to which
an `else` branch has not yet been added, and all that stands between an `if` and one of its branches has
ended before the branch. -/
namespace Devalang

def Outline.IsIf (o : Outline) (k indent : Nat) : Prop :=
  ∃ e, o[k]? = some e ∧ e.statement.isConditional = true ∧ e.indent? = some indent

def Entry.IsBranch (e : Entry) : Prop :=
  e.role = .elseIf ∧ (∃ x, e.statement = .block (.elseIf x)) ∨
    e.role = .alternate ∧ e.statement = .block .otherwise

namespace Outline
variable {o : Outline} {k d : Nat}

theorem IsIf.push (h : o.IsIf k d) (e : Entry) : IsIf (o.push e) k d := by
  obtain ⟨f, hf, hs⟩ := h
  exact ⟨f, getElem?_push_of_some hf e, hs⟩

theorem IsIf.close (h : o.IsIf k d) (i last : Nat) : (o.close i last).IsIf k d := by
  obtain ⟨f, hf, hs, hd⟩ := h
  obtain ⟨e, he, hs', -, hd'⟩ := getElem?_close_of_some hf i last
  exact ⟨e, he, by rw [hs', hs], by rw [hd', hd]⟩

end Outline

namespace Reading
variable {r : Reading} {c : Context} {s : Text} {t : Turn} {k : Nat}

/-- No two open blocks continue the same `if`. -/
theorem Ordered.conditionals_nodup (h : r.Ordered) : (r.stack.filterMap Context.conditional).Nodup := by
  rw [List.Nodup, List.pairwise_filterMap]
  have hp : r.stack.Pairwise fun a b => b.node < a.conditional.getD a.node :=
    List.pairwise_map.1 h.tiered.outer
  refine hp.imp_of_mem ?_
  rintro a b - hb hlt k hk _ hk' rfl
  have hle := h.tiered.conditional b.refers (List.mem_map_of_mem hb)
  simp only [Context.refers, hk', hk, Option.getD_some] at hle hlt
  omega

theorem Ordered.hasAlternate (h : r.Ordered) (hc : c ∈ r.stack) (hk : c.conditional = some k) :
    r.outline.hasAlternate k = false := by
  rw [Outline.hasAlternate_eq_false_iff]
  intro hm
  obtain ⟨e, he, hp⟩ := List.mem_map.1 hm
  obtain ⟨i, hi⟩ := List.mem_iff_getElem?.1 he
  rw [Array.getElem?_toList] at hi
  have hrole : e.role = .alternate := congrArg Prod.snd hp
  have hb : e.statement ≠ .strayBrace := fun hs => by simp [h.brace i e hi hs] at hrole
  -- the open block would also take an `else if` branch, which may not follow an `else` branch
  have htakes : Takes r.refers (some k, .elseIf) := by
    rintro j ⟨⟩
    exact ⟨c.refers, List.mem_map_of_mem hc, hk⟩
  have hrank : e.role.rank ≤ Role.elseIf.rank := (h.later i e hi hb _ htakes).rank (by rw [hp])
  rw [hrole] at hrank
  exact absurd hrank (by decide)

def Ended (next : Nat) (r : Reading) : Prop :=
  ∀ (i : Nat) (e : Entry) (p : Origin), r.outline[i]? = some e → e.origin = some p → p.last < next

theorem Ended.turn (h : t.before.Ended t.index) : t.after.Ended (t.index + t.taken + 1) := by
  intro i e p he hp
  have hold {f : Entry} (hf : t.before.outline[i]? = some f) (hp : f.origin = some p) :
      p.last < t.index + t.taken + 1 := by
    have := h i f p hf hp
    omega
  cases t.effect with
  | adds s owner reads fits outline stack =>
    rw [outline] at he
    rcases Outline.getElem?_push_cases he with ⟨he, -⟩ | ⟨-, rfl⟩
    · exact hold he hp
    · cases hp
      exact Nat.lt_succ_self _
  | opens b owner role single reads fits outline c cs stack node conditional outer =>
    rw [outline] at he
    rcases Outline.getElem?_push_cases he with ⟨he, -⟩ | ⟨-, rfl⟩
    · exact hold he hp
    · cases hp
      exact Nat.lt_succ_of_le (Nat.le_add_right _ _)
  | closes c single outline param stack =>
    rw [outline, Outline.close, Array.getElem?_modify] at he
    split at he
    · obtain ⟨f, -, rfl⟩ := Option.map_eq_some_iff.1 he
      obtain ⟨q, -, rfl⟩ := Option.map_eq_some_iff.1 hp
      exact Nat.lt_succ_of_le (Nat.le_add_right _ _)
    · exact hold he hp

theorem ended_turn (ht : t ∈ turns s) : t.before.Ended t.index := by
  have hstart : Reading.start.Ended 0 := by
    intro i e p he
    simp [Reading.start] at he
  exact ((turnsFrom_invariant (P := fun next r => r.Ended next) hstart fun t _ h => h.turn).1 t ht).1

/-- The branches stand at the indent of their `if`, and so would those that the open blocks take. All that
has been read between an `if` and a branch has ended before the branch. -/
structure Branching (r : Reading) : Prop where
  conditional : ∀ c ∈ r.stack, ∀ k, c.conditional = some k → r.outline.IsIf k c.indent
  branch : ∀ (i : Nat) (e : Entry), r.outline[i]? = some e → e.role ≠ .body →
    e.IsBranch ∧ ∃ k d, e.owner = some k ∧ e.indent? = some d ∧ r.outline.IsIf k d
  between : ∀ (i j : Nat) (e f : Entry) k l q, r.outline[i]? = some e → e.role ≠ .body → e.owner = some k →
    e.line? = some l → k < j → j < i → r.outline[j]? = some f → f.origin = some q → q.last < l

theorem Branching.start : Reading.start.Branching where
  conditional := by simp [Reading.start]
  branch := by simp [Reading.start]
  between := by simp [Reading.start]

/-- A statement in a body keeps the branches as they are, if no block is opened that continues an `if`
other than itself. -/
theorem Branching.push_body {r' : Reading} {e : Entry} (h : r.Branching)
    (ho : r'.outline = r.outline.push e) (he : e.role = .body)
    (hs : ∀ c ∈ r'.stack, ∀ k, c.conditional = some k → r'.outline.IsIf k c.indent) : r'.Branching where
  conditional := hs
  branch i f hf hr := by
    rw [ho] at hf ⊢
    rcases Outline.getElem?_push_cases hf with ⟨hf, -⟩ | ⟨-, rfl⟩
    · obtain ⟨hb, k, d, hk, hd, hif⟩ := h.branch i f hf hr
      exact ⟨hb, k, d, hk, hd, hif.push e⟩
    · exact absurd he hr
  between i j f g k l q hf hr hk hl hkj hji hg hq := by
    rw [ho] at hf hg
    rcases Outline.getElem?_push_cases hf with ⟨hf, hlt⟩ | ⟨-, rfl⟩
    · rcases Outline.getElem?_push_cases hg with ⟨hg, -⟩ | ⟨rfl, -⟩
      · exact h.between i j f g k l q hf hr hk hl hkj hji hg hq
      · omega
    · exact absurd he hr

theorem Branching.push_branch {r' : Reading} {e : Entry} {d l : Nat} (h : r.Branching)
    (ho : r'.outline = r.outline.push e) (he : e.IsBranch) (hk : e.owner = some k)
    (hd : e.indent? = some d) (hl : e.line? = some l) (hif : r.outline.IsIf k d) (hended : r.Ended l)
    (hs : ∀ c ∈ r'.stack, ∀ k, c.conditional = some k → r'.outline.IsIf k c.indent) : r'.Branching where
  conditional := hs
  branch i f hf hr := by
    rw [ho] at hf ⊢
    rcases Outline.getElem?_push_cases hf with ⟨hf, -⟩ | ⟨-, rfl⟩
    · obtain ⟨hb, k, d, hk, hd, hif⟩ := h.branch i f hf hr
      exact ⟨hb, k, d, hk, hd, hif.push e⟩
    · exact ⟨he, k, d, hk, hd, hif.push f⟩
  between i j f g k l' q hf hr hk hl' hkj hji hg hq := by
    rw [ho] at hf hg
    rcases Outline.getElem?_push_cases hg with ⟨hold, -⟩ | ⟨rfl, -⟩
    · rcases Outline.getElem?_push_cases hf with ⟨hf, -⟩ | ⟨-, rfl⟩
      · exact h.between i j f g k l' q hf hr hk hl' hkj hji hold hq
      · obtain rfl := Option.some.inj (hl.symm.trans hl')
        exact hended j g q hold hq
    · rcases Outline.getElem?_push_cases hf with ⟨-, hf⟩ | ⟨rfl, -⟩ <;> omega

theorem Ordered.not_between (h : r.Ordered) (hc : c ∈ r.stack) {i : Nat} {e : Entry}
    (he : r.outline[i]? = some e) (hr : e.role ≠ .body) (hk : e.owner = some k) (hlt : k < c.node) :
    i ≤ c.node := by
  have hb : e.statement ≠ .strayBrace := fun hs => hr (h.brace i e he hs)
  have htakes : Takes r.refers (some c.node, .body) := by
    rintro _ ⟨⟩
    exact ⟨c.refers, List.mem_map_of_mem hc, rfl⟩
  refine (h.later i e he hb _ htakes).inside c.node rfl ?_
  intro m hm
  obtain rfl := Option.some.inj (hk.symm.trans hm)
  exact hlt

theorem Branching.close {r' : Reading} {last : Nat} (h : r.Branching) (hordered : r.Ordered)
    (hc : c ∈ r.stack) (ho : r'.outline = r.outline.close c.node last)
    (hs : ∀ d ∈ r'.stack, d ∈ r.stack) : r'.Branching where
  conditional d hd k hk := by
    rw [ho]
    exact (h.conditional d (hs d hd) k hk).close _ _
  branch i e he hr := by
    rw [ho] at he ⊢
    obtain ⟨f, hf, hstatement, hp, -, hi, -⟩ := Outline.getElem?_close_cases he
    obtain ⟨howner, hrole⟩ := Prod.mk.inj hp
    obtain ⟨hb, k, d, hk, hd, hif⟩ := h.branch i f hf (hrole ▸ hr)
    refine ⟨?_, k, d, howner.trans hk, hi.trans hd, hif.close _ _⟩
    rwa [Entry.IsBranch, hrole, hstatement]
  between i j e f k l q he hr hk hl hkj hji hf hq := by
    rw [ho] at he hf
    obtain ⟨e', he', -, hp, hl', -, -⟩ := Outline.getElem?_close_cases he
    obtain ⟨howner, hrole⟩ := Prod.mk.inj hp
    rw [howner] at hk
    rw [hrole] at hr
    obtain ⟨f', hf', -, -, -, -, hsame⟩ := Outline.getElem?_close_cases hf
    have hne : j ≠ c.node := by
      rintro rfl
      have hle := hordered.not_between hc he' hr hk hkj
      omega
    rw [hsame hne] at hq
    exact h.between i j e' f' k l q he' hr hk (hl' ▸ hl) hkj hji hf' hq

theorem Branching.turn (ht : t ∈ turns s) (h : t.before.Branching) : t.after.Branching := by
  cases t.move with
  | blank content outline stack remarks =>
    refine h.push_body outline rfl fun c hc k hk => ?_
    rw [outline]
    exact (h.conditional c (stack.subset hc) k hk).push _
  | branch notStatement b role c k outer conditional suffix continues indent kind outline stack remarks =>
    have hif : t.before.outline.IsIf k t.indent :=
      indent ▸ h.conditional c (suffix.subset List.mem_cons_self) k continues
    refine h.push_branch outline ?_ rfl rfl rfl hif (ended_turn ht) fun d hd j hj => ?_
    · rcases kind with ⟨⟨x, rfl⟩, rfl, -⟩ | ⟨rfl, rfl, -⟩
      · exact Or.inl ⟨rfl, x, rfl⟩
      · exact Or.inr ⟨rfl, rfl⟩
    · rw [outline]
      rw [stack] at hd
      rcases List.mem_cons.1 hd with rfl | hd
      · rcases kind with ⟨-, -, rfl⟩ | ⟨-, -, rfl⟩
        · cases hj
          exact hif.push _
        · cases hj
      · exact (h.conditional d (suffix.subset (List.mem_cons_of_mem c hd)) j hj).push _
  | close content c param outline stack remarks =>
    exact h.close (Turn.ordered ht).1 (stack.subset List.mem_cons_self) outline
      fun d hd => stack.subset (List.mem_cons_of_mem c hd)
  | stray content none outline stack remarks =>
    refine h.push_body outline rfl fun c hc k hk => ?_
    obtain ⟨d, hd, hi, -, hck⟩ := exists_of_frame (frame_settle _ _) (stack ▸ hc)
    rw [outline, ← hi]
    exact (h.conditional d hd k (hck.trans hk)).push _
  | statement isStatement s n reads nonblank outline stack remarks =>
    refine h.push_body outline rfl fun c hc k hk => ?_
    rw [stack, List.mem_append] at hc
    rw [outline]
    rcases hc with hc | hc
    · cases s with
      | simple s => simp [Statement.opened] at hc
      | block b =>
        rw [Statement.opened, List.mem_singleton] at hc
        subst hc
        obtain ⟨hb, hk⟩ := Option.ite_none_right_eq_some.1 hk
        cases hk
        exact ⟨_, Array.getElem?_push_size, hb, rfl⟩
    · obtain ⟨d, hd, hi, -, hck⟩ := exists_of_frame (frame_begun _ _) hc
      rw [← hi]
      exact (h.conditional d (t.kept_suffix.subset hd) k (hck.trans hk)).push _

theorem branching_ofText (s : Text) : (ofText s).Branching :=
  (turns_invariant Branching.start fun _ ht h => h.turn ht).2

/-- A second `else` for the same `if` is never met. -/
theorem secondElse_notMem (ht : t ∈ turns s) (i : Nat) :
    .secondElse i ∉ t.before.remarks ∧ .secondElse i ∉ t.after.remarks := by
  refine (turns_invariant (P := fun r => .secondElse i ∉ r.remarks) (by simp [Reading.start]) ?_).1 t ht
  intro t ht h
  cases t.move with
  | blank content outline stack remarks => rwa [remarks]
  | branch notStatement b role c k outer conditional suffix continues indent kind outline stack remarks =>
    rwa [remarks]
  | close content c param outline stack remarks => rwa [remarks]
  | stray content none outline stack remarks =>
    rw [remarks, Array.mem_push]
    rintro (hm | hm)
    · exact h hm
    · cases hm
  | statement isStatement s n reads nonblank outline stack remarks =>
    intro hm
    rcases remarks _ hm with hm | hm | hm | ⟨-, k, hk, c, hc, hck⟩
    · exact h hm
    · cases hm
    · cases hm
    · rw [(Turn.ordered ht).1.hasAlternate hc hck] at hk
      cases hk

end Reading

end Devalang
