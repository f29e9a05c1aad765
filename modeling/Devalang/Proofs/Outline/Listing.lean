import Devalang.Proofs.Outline.Order

/-! The outline of a given tree: its statements in document order, each with its place. The tree of this
outline is the given one. -/
namespace Devalang

namespace Node

@[elab_as_elim]
theorem induct {motive : Node → Prop} (node : ∀ (s : Statement) (o : Option Origin) (b es : List Node)
    (a : Option Node), (∀ m ∈ b, motive m) → (∀ m ∈ es, motive m) → (∀ m ∈ a.toList, motive m) →
      motive (.node s o b es a)) (n : Node) : motive n :=
  n.rec (motive_1 := motive) (motive_2 := fun ns => ∀ m ∈ ns, motive m)
    (motive_3 := fun a => ∀ m ∈ a.toList, motive m) node (by simp)
    (fun _ _ h hs => List.forall_mem_cons.2 ⟨h, hs⟩) (by simp) fun _ h => by simpa using h

theorem self_mem_walk (n : Node) : n ∈ n.walk := by
  obtain ⟨s, o, b, ms, a⟩ := n
  exact List.mem_cons_self

theorem mem_walk_of_mem {m n x : Node} (hm : m ∈ n.body ++ n.branches) (hx : x ∈ m.walk) : x ∈ n.walk := by
  obtain ⟨s, o, b, ms, a⟩ := n
  have halt : walkOption a = a.toList.flatMap walk := by
    cases a <;> simp [walkOption]
  rw [walk, walkAll_eq_flatMap, walkAll_eq_flatMap, halt, ← List.flatMap_append, ← List.flatMap_append,
    List.append_assoc]
  exact List.mem_cons_of_mem _ (List.mem_flatMap.2 ⟨m, hm, hx⟩)

/-! The entries of nodes, the first of which gets the index `i`. -/

mutual

def entries (owner : Option Nat) (role : Role) (i : Nat) : Node → List Entry
  | node s o b es a =>
    let body := entriesAll (some i) .body (i + 1) b
    let elseIfs := entriesAll (some i) .elseIf (i + 1 + body.length) es
    ⟨s, o, owner, role⟩ :: (body ++ (elseIfs ++
      entriesOption (some i) .alternate (i + 1 + body.length + elseIfs.length) a))

def entriesAll (owner : Option Nat) (role : Role) (i : Nat) : List Node → List Entry
  | [] => []
  | n :: ns => entries owner role i n ++
    entriesAll owner role (i + (entries owner role i n).length) ns

def entriesOption (owner : Option Nat) (role : Role) (i : Nat) : Option Node → List Entry
  | none => []
  | some n => entries owner role i n

end

def partEntries (i : Nat) (b es : List Node) (a : Option Node) : List Entry :=
  let body := entriesAll (some i) .body (i + 1) b
  let elseIfs := entriesAll (some i) .elseIf (i + 1 + body.length) es
  body ++ (elseIfs ++
    entriesAll (some i) .alternate (i + 1 + body.length + elseIfs.length) a.toList)

theorem entries_node (owner : Option Nat) (role : Role) (i : Nat) (s : Statement) (o : Option Origin)
    (b es : List Node) (a : Option Node) :
    (node s o b es a).entries owner role i = ⟨s, o, owner, role⟩ :: partEntries i b es a := by
  cases a <;> simp [entries, partEntries, entriesOption, entriesAll]

end Node

/-- The entry has the given place itself, or it belongs to an entry from `i` on. -/
def Entry.Within (owner : Option Nat) (role : Role) (i : Nat) (e : Entry) : Prop :=
  e.place = (owner, role) ∨ ∃ k, e.owner = some k ∧ i ≤ k

theorem Entry.Within.outer {owner : Option Nat} {role role' : Role} {i j : Nat} {e : Entry}
    (h : e.Within (some i) role' j) (hj : i ≤ j) : e.Within owner role i := by
  rcases h with hp | ⟨k, hk, hle⟩
  · exact Or.inr ⟨i, congrArg Prod.fst hp, Nat.le_refl i⟩
  · exact Or.inr ⟨k, hk, Nat.le_trans hj hle⟩

namespace Node
variable {owner : Option Nat} {role : Role} {i : Nat} {e : Entry} {ns : List Node}

theorem within_entriesAll_of (h : ∀ n ∈ ns, ∀ owner role i, ∀ e ∈ n.entries owner role i,
    e.Within owner role i) (he : e ∈ entriesAll owner role i ns) : e.Within owner role i := by
  induction ns generalizing i with
  | nil => simp [entriesAll] at he
  | cons n ns ih =>
    rw [entriesAll, List.mem_append] at he
    rcases he with he | he
    · exact h n (by simp) owner role i e he
    · refine (ih (fun m hm => h m (List.mem_cons_of_mem n hm)) he).imp_right ?_
      rintro ⟨k, hk, hle⟩
      exact ⟨k, hk, by omega⟩

theorem within_entries (n : Node) : ∀ owner role i, ∀ e ∈ n.entries owner role i,
    e.Within owner role i := by
  induction n using Node.induct with
  | node s o b es a hb hes ha =>
    intro owner role i e he
    rw [entries_node, partEntries, List.mem_cons, List.mem_append, List.mem_append] at he
    rcases he with rfl | he | he | he
    · exact Or.inl rfl
    · exact (within_entriesAll_of hb he).outer (by omega)
    · exact (within_entriesAll_of hes he).outer (by omega)
    · exact (within_entriesAll_of ha he).outer (by omega)

theorem within_entriesAll (he : e ∈ entriesAll owner role i ns) : e.Within owner role i :=
  within_entriesAll_of (fun n _ => n.within_entries) he

end Node

namespace Members

def addAll (m : Members) (owner : Option Nat) (role : Role) (ns : List Node) : Members :=
  ns.foldr (fun n m => m.add owner role n) m

/-- The same nodes belong to all blocks, the ones from `i` on and before `j` left out. -/
def SameOff (i j : Nat) (m m' : Members) : Prop :=
  ∀ o, (∀ k, o = some k → k < i ∨ j ≤ k) → ∀ r, m.part o r = m'.part o r

def Bare (i j : Nat) (m : Members) : Prop := ∀ k, i ≤ k → k < j → ∀ r, m.part (some k) r = []

section Add
variable {m m' : Members} {owner o : Option Nat} {role r : Role} {n : Node} {ns : List Node}
  {i j k : Nat}

theorem part_add_self (h : role = .alternate → m.part owner role = []) :
    (m.add owner role n).part owner role = n :: m.part owner role := by
  cases role with
  | body | elseIf => simp [add, part]
  | alternate =>
    have hn : m.alternate owner = Option.none := by simpa [part] using h rfl
    simp [add, part, hn]

theorem part_add_congr (h : m.part o r = m'.part o r) :
    (m.add owner role n).part o r = (m'.add owner role n).part o r := by
  by_cases he : (o, r) = (owner, role)
  · obtain ⟨rfl, rfl⟩ := Prod.mk.inj he
    cases r with
    | body | elseIf =>
      rw [part_add_self (by simp), part_add_self (by simp), h]
    | alternate =>
      have ha : m.alternate o = m'.alternate o := by
        simp only [part] at h
        cases hm : m.alternate o <;> cases hm' : m'.alternate o <;> simp_all
      simp [add, part, ha]
  · rw [part_add_ne he, part_add_ne he, h]

theorem part_addAll_ne (h : (o, r) ≠ (owner, role)) : (m.addAll owner role ns).part o r = m.part o r := by
  induction ns with
  | nil => rfl
  | cons n ns ih => exact (part_add_ne h).trans ih

theorem part_addAll_self (h : role ≠ .alternate) :
    (m.addAll owner role ns).part owner role = ns ++ m.part owner role := by
  induction ns with
  | nil => rfl
  | cons n ns ih =>
    refine (part_add_self fun ha => absurd ha h).trans ?_
    rw [List.cons_append, ← ih]
    rfl

theorem part_addAll_alternate {a : Option Node} (h : m.part owner .alternate = []) :
    (m.addAll owner .alternate a.toList).part owner .alternate = a.toList := by
  cases a with
  | none => exact h
  | some n => exact (part_add_self fun _ => h).trans (by rw [h]; rfl)

theorem SameOff.add (h : SameOff i j m m') : SameOff i j (m.add owner role n) (m'.add owner role n) :=
  fun o ho r => part_add_congr (h o ho r)

theorem SameOff.addAll (h : SameOff i j m m') :
    SameOff i j (m.addAll owner role ns) (m'.addAll owner role ns) := by
  induction ns with
  | nil => exact h
  | cons n ns ih => exact ih.add

theorem SameOff.mono {i' j' : Nat} (h : SameOff i j m m') (hi : i' ≤ i) (hj : j ≤ j') :
    SameOff i' j' m m' := by
  intro o ho
  refine h o fun k hk => ?_
  have := ho k hk
  omega

theorem SameOff.trans {m'' : Members} (h : SameOff i j m m') (h' : SameOff i j m' m'') :
    SameOff i j m m'' := fun o ho r => (h o ho r).trans (h' o ho r)

theorem Bare.addAll (h : Bare i j m) (ho : Outside owner i) : Bare i j (m.addAll owner role ns) := by
  intro k hi hj r
  have hne : (some k, r) ≠ (owner, role) := by
    intro he
    have := ho k (Prod.mk.inj he).1.symm
    omega
  rw [part_addAll_ne hne, h k hi hj]

theorem Bare.of_sameOff (h : Bare i k m') (hs : SameOff j k m m') (hj : j ≤ k) : Bare i j m := by
  intro l hi hl r
  rw [hs (some l) (by rintro _ ⟨⟩; exact Or.inl hl), h l hi (by omega)]

end Add

end Members

namespace Outline
open Members
variable {owner : Option Nat} {role : Role} {i j : Nat} {es : List Entry} {ns : List Node}

/-- The entries of a node give this node back, in front of what the entries after them give. -/
def Gives (n : Node) : Prop :=
  ∀ owner role i es, Outside owner i →
    Bare i (i + (n.entries owner role i).length) (members (i + (n.entries owner role i).length) es) →
    SameOff i (i + (n.entries owner role i).length) (members i (n.entries owner role i ++ es))
      ((members (i + (n.entries owner role i).length) es).add owner role n)

theorem sameOff_entriesAll_of (h : ∀ n ∈ ns, Gives n) (ho : Outside owner i)
    (hj : j = i + (Node.entriesAll owner role i ns).length) (hb : Bare i j (members j es)) :
    SameOff i j (members i (Node.entriesAll owner role i ns ++ es))
      ((members j es).addAll owner role ns) := by
  induction ns generalizing i with
  | nil =>
    subst hj
    exact fun o _ r => rfl
  | cons n ns ih =>
    rw [Node.entriesAll, List.length_append, ← Nat.add_assoc] at hj
    rw [Node.entriesAll, List.append_assoc]
    have hlt : Outside owner (i + (n.entries owner role i).length) := by
      intro k hk
      have := ho k hk
      omega
    have hns := ih (fun m hm => h m (List.mem_cons_of_mem n hm)) hlt hj
      fun k hi hk => hb k (by omega) hk
    have hn := h n (by simp) owner role i _ ho ((hb.addAll ho).of_sameOff hns (by omega))
    exact (hn.mono (Nat.le_refl i) (by omega)).trans (hns.mono (by omega) (Nat.le_refl j)).add

def addParts (m : Members) (i : Nat) (b es : List Node) (a : Option Node) : Members :=
  ((m.addAll (some i) .alternate a.toList).addAll (some i) .elseIf es).addAll (some i) .body b

theorem node_of_sameOff {s : Statement} {o : Option Origin} {b ns : List Node} {a : Option Node}
    {m m' : Members} {k : Nat} (hs : SameOff (i + 1) j m (addParts m' i b ns a))
    (hb : Bare i k m') (hk : i < k) (owner : Option Nat) (role : Role) :
    node m i ⟨s, o, owner, role⟩ = .node s o b ns a := by
  have hpart (r : Role) : m.part (some i) r = (addParts m' i b ns a).part (some i) r :=
    hs (some i) (by rintro _ ⟨⟩; exact Or.inl (Nat.lt_succ_self i)) r
  have hbare (r : Role) : m'.part (some i) r = [] := hb i (Nat.le_refl i) hk r
  have hbody : m.body (some i) = b := by
    have h := hpart .body
    rwa [addParts, part_addAll_self (by simp), part_addAll_ne (by simp), part_addAll_ne (by simp),
      hbare, List.append_nil] at h
  have helse : m.elseIfs (some i) = ns := by
    have h := hpart .elseIf
    rwa [addParts, part_addAll_ne (by simp), part_addAll_self (by simp), part_addAll_ne (by simp),
      hbare, List.append_nil] at h
  have halt : m.alternate (some i) = a := by
    have h := hpart .alternate
    rw [addParts, part_addAll_ne (by simp), part_addAll_ne (by simp),
      part_addAll_alternate (hbare _)] at h
    cases hm : m.alternate (some i) <;> cases a <;> simp_all [part]
  rw [node, hbody, helse, halt]

theorem sameOff_partEntries {b ns : List Node} {a : Option Node} (hb : ∀ m ∈ b, Gives m)
    (hns : ∀ m ∈ ns, Gives m) (ha : ∀ m ∈ a.toList, Gives m)
    (hj : j = i + 1 + (Node.partEntries i b ns a).length) (hbare : Bare (i + 1) j (members j es)) :
    SameOff (i + 1) j (members (i + 1) (Node.partEntries i b ns a ++ es))
      (addParts (members j es) i b ns a) := by
  have hown {k : Nat} (hk : i < k) : Outside (some i) k := by
    rintro _ ⟨⟩
    exact hk
  simp only [Node.partEntries, List.length_append, ← Nat.add_assoc] at hj
  simp only [Node.partEntries, List.append_assoc]
  have halt := sameOff_entriesAll_of ha (hown (by omega)) hj fun k hi hk => hbare k (by omega) hk
  have hbare₁ : Bare (i + 1) j ((members j es).addAll (some i) .alternate a.toList) :=
    hbare.addAll (hown (by omega))
  have helse := sameOff_entriesAll_of hns (hown (by omega)) rfl
    (Bare.of_sameOff (fun k hi hk => hbare₁ k (by omega) hk) halt (by omega))
  have helse₁ := (helse.mono (Nat.le_refl _) (by omega)).trans
    (halt.mono (by omega) (Nat.le_refl j)).addAll
  have hbody := sameOff_entriesAll_of hb (hown (by omega)) rfl
    ((hbare₁.addAll (hown (by omega))).of_sameOff helse₁ (by omega))
  exact (hbody.mono (Nat.le_refl _) (by omega)).trans (helse₁.mono (by omega) (Nat.le_refl j)).addAll

theorem gives (n : Node) : Gives n := by
  induction n using Node.induct with
  | node s o b ns a hb hns ha =>
    intro owner role i es ho hbare
    rw [Node.entries_node, List.length_cons] at hbare ⊢
    obtain ⟨j, hj⟩ : ∃ j, j = i + 1 + (Node.partEntries i b ns a).length := ⟨_, rfl⟩
    rw [show i + ((Node.partEntries i b ns a).length + 1) = j by omega] at hbare ⊢
    have hinner : Bare (i + 1) j (members j es) := fun k hi hk => hbare k (by omega) hk
    have hparts := sameOff_partEntries hb hns ha hj hinner
    rw [List.cons_append, members, node_of_sameOff hparts hbare (by omega)]
    intro k hk r
    refine part_add_congr ?_
    have hne (r' : Role) : (k, r) ≠ (some i, r') := by
      intro he
      have := hk i (Prod.mk.inj he).1
      omega
    rw [hparts k fun l hl => (hk l hl).imp_left (by omega), addParts, part_addAll_ne (hne _),
      part_addAll_ne (hne _), part_addAll_ne (hne _)]

/-- The tree of the outline of some nodes is these nodes. -/
theorem nodes_entriesAll (ns : List Node) :
    Outline.nodes (Node.entriesAll none .body 0 ns).toArray = ns := by
  have hbare : Bare 0 (0 + (Node.entriesAll none .body 0 ns).length)
      (members (0 + (Node.entriesAll none .body 0 ns).length) []) := by
    intro k _ _ r
    cases r <;> simp [members, Members.none, part]
  have h := sameOff_entriesAll_of (fun n _ => gives n) (by rintro _ ⟨⟩) rfl hbare
  have hbody := h none (by rintro _ ⟨⟩) .body
  rw [part_addAll_self (by simp), List.append_nil] at hbody
  simpa [nodes, part, members, Members.none] using hbody

end Outline

end Devalang
