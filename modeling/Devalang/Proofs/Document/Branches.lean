import Devalang.Proofs.Document.Order
import Devalang.Proofs.Outline.Descent
import Devalang.Proofs.Reading.Branches

/-! An `if` and its branches in the tree: first the body of the `if`, then every `else if` branch with all
that is in it, last the `else` branch, all at the indent of the `if`. -/
namespace Devalang

def Node.EndsBefore (m n : Node) : Prop :=
  ∃ p q, m.origin = some p ∧ n.origin = some q ∧ p.line ≤ p.last ∧ p.last < q.line

def Node.EndBefore (ms ns : List Node) : Prop := ∀ x ∈ ms, ∀ y ∈ ns, x.EndsBefore y

namespace Outline
variable {o : Outline} {i j k a : Nat} {e f : Entry}

theorem Holds.lt_branch (ho : ∀ (i : Nat) (e : Entry), o[i]? = some e → Outside e.owner i)
    (he : o[i]? = some e) (hk : e.owner = some k)
    (hlater : ∀ j f, i < j → o[j]? = some f → Role.Follows i e.place f.place)
    (hf : o[a]? = some f) (hfk : f.owner = some k) (hai : a < i) (h : o.Holds a j) : j < i := by
  have hka : k < a := ho a f hf k hfk
  induction h with
  | refl => exact hai
  | @tail b j hab hown ih =>
    have hle : a ≤ b := Holds.le ho hab
    obtain ⟨g, hg, hgb⟩ := hown
    rcases Nat.lt_trichotomy j i with hji | rfl | hij
    · exact hji
    · obtain rfl : e = g := Option.some.inj (he.symm.trans hg)
      obtain rfl : k = b := Option.some.inj (hk.symm.trans hgb)
      omega
    · have hib := (hlater j g hij hg).inside b hgb fun m hm => by
        obtain rfl := Option.some.inj (hk.symm.trans hm)
        omega
      omega

end Outline

namespace Reading
variable {r : Reading} {i a : Nat} {e f : Entry}

theorem Ordered.lt_of_rank (h : r.Ordered) (he : r.outline[i]? = some e) (hf : r.outline[a]? = some f)
    (hrole : e.role ≠ .body) (howner : f.owner = e.owner) (hrank : f.role.rank < e.role.rank) : a < i := by
  have hb : e.statement ≠ .strayBrace := fun hs => hrole (h.brace i e he hs)
  rcases Nat.lt_trichotomy a i with hai | rfl | hia
  · exact hai
  · obtain rfl : e = f := Option.some.inj (he.symm.trans hf)
    omega
  · have hle : e.role.rank ≤ f.role.rank := (h.earlier i a e f hia he hf hb).rank howner
    omega

end Reading

namespace Document
variable {s : Text} {i a k : Nat} {e f : Entry} {m n : Node} {ρ σ : Role}

theorem origin_of_node? {o : Outline} (h : o.node? i = some n) :
    ∃ e, o[i]? = some e ∧ n.origin = e.origin ∧ n.statement = e.statement := by
  obtain ⟨e, he, rfl⟩ := Option.map_eq_some_iff.1 h
  exact ⟨e, he, rfl, rfl⟩

theorem endBefore_branch (he : (Reading.ofText s).outline[i]? = some e) (hrole : e.role ≠ .body)
    (hk : e.owner = some k) (hf : (Reading.ofText s).outline[a]? = some f) (hfk : f.owner = some k)
    (hai : a < i) (hm : (Reading.ofText s).outline.node? a = some m)
    (hn : (Reading.ofText s).outline.node? i = some n) : Node.EndBefore m.walk n.walk := by
  intro x hx y hy
  have hplaced := (Reading.sound_ofText s).placed
  have hordered := Reading.ordered_ofText s
  obtain ⟨j, hj, haj⟩ := Outline.mem_walk_node? hplaced hm hx
  obtain ⟨l, hl, hil⟩ := Outline.mem_walk_node? hplaced hn hy
  have hb : e.statement ≠ .strayBrace := fun hs => hrole (hordered.brace i e he hs)
  have hji : j < i := haj.lt_branch hordered.owner he hk
    (fun l g hil hg => hordered.earlier i l e g hil he hg hb) hf hfk hai
  have hkj : k < j := Nat.lt_of_lt_of_le (hordered.owner a f hf k hfk) (haj.le hordered.owner)
  obtain ⟨g, hg, hxg, -⟩ := origin_of_node? hj
  obtain ⟨g', hg', hyg, -⟩ := origin_of_node? hl
  have hmem {l : Nat} {g : Entry} (hg : (Reading.ofText s).outline[l]? = some g) :
      g ∈ (Reading.ofText s).outline.toList := Array.mem_toList_iff.2 (Array.mem_of_getElem? hg)
  obtain ⟨p, hp, hpl⟩ := (Reading.sound_ofText s).origin g (hmem hg)
  obtain ⟨q, hq, -⟩ := (Reading.sound_ofText s).origin g' (hmem hg')
  obtain ⟨u, hu, -⟩ := (Reading.sound_ofText s).origin e (hmem he)
  have hline : e.line? = some u.line := by rw [Entry.line?, hu]; rfl
  have hlast := (Reading.branching_ofText s).between i j e g k u.line p he hrole hk hline hkj hji hg hp
  -- the first line of a branch is not after the lines of what it holds
  have hle : u.line ≤ q.line := by
    rcases Nat.eq_or_lt_of_le (hil.le hordered.owner) with rfl | hlt
    · obtain rfl : e = g' := Option.some.inj (he.symm.trans hg')
      obtain rfl : u = q := Option.some.inj (hu.symm.trans hq)
      exact Nat.le_refl _
    · obtain ⟨l₁, l₂, h₁, h₂, hlt⟩ := Reading.increasing_ofText s i l e g' hlt he hg'
      rw [Entry.line?, hu] at h₁
      rw [Entry.line?, hq] at h₂
      cases h₁
      cases h₂
      exact Nat.le_of_lt hlt
  exact ⟨p, q, hxg.trans hp, hyg.trans hq, hpl, by omega⟩

theorem pairwise_branches (s : Text) (k : Nat) (hσ : σ ≠ .body) :
    ((Reading.ofText s).outline.nodesAt (some k, σ)).Pairwise fun m n => Node.EndBefore m.walk n.walk := by
  rw [Outline.nodesAt, List.pairwise_map]
  refine (Outline.pairwise_placedAt _ _).imp_of_mem ?_
  rintro ⟨f, a⟩ ⟨e, i⟩ hm hb hai
  obtain ⟨hf, hfp⟩ := Outline.mem_placedAt.1 hm
  obtain ⟨he, hep⟩ := Outline.mem_placedAt.1 hb
  obtain ⟨hfk, -⟩ := Prod.mk.inj hfp
  obtain ⟨hek, rfl⟩ := Prod.mk.inj hep
  exact endBefore_branch he hσ hek hf hfk hai (by rw [Outline.node?, hf]; rfl)
    (by rw [Outline.node?, he]; rfl)

theorem endBefore_of_rank (hσ : σ ≠ .body) (hrank : ρ.rank < σ.rank)
    (hm : m ∈ (Reading.ofText s).outline.nodesAt (some k, ρ))
    (hn : n ∈ (Reading.ofText s).outline.nodesAt (some k, σ)) : Node.EndBefore m.walk n.walk := by
  obtain ⟨a, f, hf, hfp, ha⟩ := Outline.mem_nodesAt hm
  obtain ⟨i, e, he, hep, hi⟩ := Outline.mem_nodesAt hn
  obtain ⟨hfk, rfl⟩ := Prod.mk.inj hfp
  obtain ⟨hek, rfl⟩ := Prod.mk.inj hep
  have hai := (Reading.ordered_ofText s).lt_of_rank he hf hσ (hfk.trans hek.symm) hrank
  exact endBefore_branch he hσ hek hf hfk hai ha hi

/-- The body and the branches of a node, with all that is in them, come one after another. -/
theorem parts_endBefore (hn : (Reading.ofText s).outline.node? k = some n) :
    (Node.walkAll n.body :: n.branches.map Node.walk).Pairwise Node.EndBefore := by
  have hplaced := (Reading.sound_ofText s).placed
  obtain ⟨hbody, -, -⟩ := Outline.parts_of_node? hplaced hn
  rw [List.pairwise_cons, List.pairwise_map, List.forall_mem_map, hbody,
    Outline.branches_of_node? hplaced hn, List.pairwise_append]
  refine ⟨fun b hb x hx => ?_, pairwise_branches s k (by decide), pairwise_branches s k (by decide),
    fun m hm n hn => endBefore_of_rank (by decide) (by decide) hm hn⟩
  rw [Node.walkAll_eq_flatMap, List.mem_flatMap] at hx
  obtain ⟨m, hm, hxm⟩ := hx
  rcases List.mem_append.1 hb with hb | hb
  · exact endBefore_of_rank (by decide) (by decide) hm hb x hxm
  · exact endBefore_of_rank (by decide) (by decide) hm hb x hxm

/-- The branches of a node are of the kind that their place says, and stand at its indent. Only an `if`
has branches. -/
theorem branch_of_node? (hn : (Reading.ofText s).outline.node? k = some n) (hσ : σ ≠ .body)
    (hm : m ∈ (Reading.ofText s).outline.nodesAt (some k, σ)) :
    n.statement.isConditional = true ∧ m.origin.map Origin.indent = n.origin.map Origin.indent ∧
      (σ = .elseIf → ∃ x, m.statement = .block (.elseIf x)) ∧
      (σ = .alternate → m.statement = .block .otherwise) := by
  obtain ⟨i, e, he, hep, hi⟩ := Outline.mem_nodesAt hm
  obtain ⟨hek, rfl⟩ := Prod.mk.inj hep
  obtain ⟨hkind, j, d, hj, hd, g, hg, hif, hgd⟩ := (Reading.branching_ofText s).branch i e he hσ
  obtain rfl : k = j := Option.some.inj (hek.symm.trans hj)
  obtain ⟨e', he', hmo, hms⟩ := origin_of_node? hi
  obtain rfl : e = e' := Option.some.inj (he.symm.trans he')
  obtain ⟨g', hg', hno, hns⟩ := origin_of_node? hn
  obtain rfl : g = g' := Option.some.inj (hg.symm.trans hg')
  refine ⟨hns ▸ hif, ?_, fun hr => ?_, fun hr => ?_⟩
  · rw [hmo, hno]
    exact hd.trans hgd.symm
  · rcases hkind with ⟨-, hs⟩ | ⟨hr', -⟩
    · rwa [hms]
    · rw [hr] at hr'
      cases hr'
  · rcases hkind with ⟨hr', -⟩ | ⟨-, hs⟩
    · rw [hr] at hr'
      cases hr'
    · rwa [hms]

/-- In every state between two lines the open blocks continue different `if`s, none of which has an `else`
branch, so that a second `else` for the same `if` is never met. In the tree the body of an `if`, its
`else if` branches and at last its `else` branch follow one another, each with all that is in it, and the
branches stand at the indent of the `if`. -/
theorem branches_in_order (s : Text) :
    (∀ r ∈ Reading.start :: (Reading.start.steps 0 0 s.lines).map (·.reading),
      (r.stack.filterMap Context.conditional).Nodup ∧
      (∀ c ∈ r.stack, ∀ k, c.conditional = some k → r.outline.hasAlternate k = false) ∧
      ∀ i, .secondElse i ∉ r.remarks) ∧
    ∀ n ∈ (Document.read s).walk,
      (Node.walkAll n.body :: n.branches.map Node.walk).Pairwise Node.EndBefore ∧
      (∀ b ∈ n.branches, n.statement.isConditional = true ∧
        b.origin.map Origin.indent = n.origin.map Origin.indent) ∧
      (∀ b ∈ n.elseIfs, ∃ x, b.statement = .block (.elseIf x)) ∧
      ∀ b ∈ n.alternate, b.statement = .block .otherwise := by
  constructor
  · intro r hr
    have hstate : r.Ordered ∧ ∀ i, .secondElse i ∉ r.remarks := by
      rw [Reading.steps_eq_map_turns, List.map_map, List.mem_cons, List.mem_map] at hr
      rcases hr with rfl | ⟨t, ht, rfl⟩
      · exact ⟨Reading.Ordered.start, by simp [Reading.start]⟩
      · exact ⟨(Turn.ordered ht).2, fun i => (Reading.secondElse_notMem ht i).2⟩
    exact ⟨hstate.1.conditionals_nodup, fun c hc k hk => hstate.1.hasAlternate hc hk, hstate.2⟩
  · intro n hn
    have hplaced := (Reading.sound_ofText s).placed
    obtain ⟨k, hk⟩ := Outline.exists_of_mem_walk hplaced hn
    obtain ⟨-, helse, halt⟩ := Outline.parts_of_node? hplaced hk
    refine ⟨parts_endBefore hk, fun b hb => ?_, fun b hb => ?_, fun b hb => ?_⟩
    · rw [Outline.branches_of_node? hplaced hk, List.mem_append] at hb
      rcases hb with hb | hb
      · obtain ⟨hif, hindent, -⟩ := branch_of_node? hk (by decide) hb
        exact ⟨hif, hindent⟩
      · obtain ⟨hif, hindent, -⟩ := branch_of_node? hk (by decide) hb
        exact ⟨hif, hindent⟩
    · exact (branch_of_node? hk (by decide) (helse ▸ hb)).2.2.1 rfl
    · exact (branch_of_node? hk (by decide) (halt ▸ Option.mem_toList.2 hb)).2.2.2 rfl

end Document

end Devalang
