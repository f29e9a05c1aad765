import Devalang.Proofs.Document.WellFormed
import Devalang.Proofs.Outline.Listing
import Devalang.Proofs.Reading.Between
import Mathlib.Data.List.Chain

/-! Reading the lines of a well-formed tree. By induction over the tree: the lines of a node lead to the
entries of the node, and leave only those blocks open inside of which nothing that may come next is read. -/
namespace Devalang
open Text Reading

namespace Node

/-- The blocks that are still open inside of the one that the node belongs to do not take its lines. -/
def Ready (d : Nat) (inner : List Context) (n : Node) : Prop :=
  if n.isBlank then inner = [] else ∀ c ∈ inner, c.contains d = false

theorem ready_nil (d : Nat) (n : Node) : n.Ready d [] := by
  rw [Ready]
  split <;> simp

theorem Ready.closed {d : Nat} {inner : List Context} {n : Node} (h : n.Ready d inner)
    (hn : n.isBlank = false) : ∀ c ∈ inner, c.contains d = false := by
  rwa [Ready, hn, if_neg (by simp)] at h

/-- The lines of the node, at any indent, are read as its entries. -/
def Reread (tab : Nat) (n : Node) : Prop :=
  ∀ d es inner base following, n.Ready d inner → Fresh following →
    Leads (Between tab d es inner base) ((n.rows tab).map (indentLine d)) following fun r =>
      ∃ inner', r.Between tab d (es ++ n.entries (owner? base) .body es.length) inner'
          (if n.isBlank then base else settled d base) ∧
        ∀ m, n.Precedes m → m.Ready d inner'

def RereadAll (tab : Nat) (ns : List Node) : Prop :=
  ∀ d es inner base following, (∀ n, ns.head? = some n → n.Ready d inner) → Fresh following →
    Leads (Between tab d es inner base) ((ns.flatMap (rows tab)).map (indentLine d)) following fun r =>
      ∃ inner', r.Between tab d (es ++ entriesAll (owner? base) .body es.length ns) inner'
        (if ns.all isBlank then base else settled d base)

variable {tab d : Nat} {es : List Entry} {following : List Text}

theorem rereadAll_of {ns : List Node} (h : ∀ n ∈ ns, n.Reread tab) (hwf : ∀ n ∈ ns, n.WellFormed)
    (hc : ns.IsChain Precedes) : RereadAll tab ns := by
  induction ns with
  | nil =>
    intro d es inner base following _ _
    exact Leads.nil fun r hr => ⟨inner, by simpa [entriesAll] using hr⟩
  | cons n ns ih =>
    intro d es inner base following hready hfollowing
    have hrest : ∀ m ∈ ns, m.WellFormed := fun m hm => hwf m (List.mem_cons_of_mem n hm)
    have hall : RereadAll tab ns := ih (fun m hm => h m (List.mem_cons_of_mem n hm)) hrest hc.tail
    rw [List.flatMap_cons, List.map_append]
    refine Leads.append (h n (by simp) _ _ _ _ _ (hready n rfl)
      ((fresh_indented hrest tab d).append hfollowing)) ?_
    -- What `n` leaves open is ready for the next node, because `n` may come right before it.
    rintro r index ⟨inner₁, hr, hnext⟩
    obtain ⟨r', index', ⟨inner', hr'⟩, he⟩ := hall _ _ _ _ _ (fun m hm => hnext m (hc.rel_head? hm))
      hfollowing r index hr
    refine ⟨r', index', ⟨inner', ?_⟩, he⟩
    have howner : owner? (if n.isBlank then base else settled d base) = owner? base := by
      split <;> simp
    rw [howner, List.length_append, List.append_assoc, ← entriesAll] at hr'
    rw [List.all_cons]
    cases hb : n.isBlank <;> cases hbs : ns.all isBlank <;> simpa [hb, hbs] using hr'

/-! Nodes that open no block. -/

variable {s : Simple} {o : Option Origin}

theorem entries_body {n : Node} (hn : n.branches = []) (owner : Option Nat) (role : Role) (i : Nat) :
    n.entries owner role i =
      ⟨n.statement, n.origin, owner, role⟩ :: entriesAll (some i) .body (i + 1) n.body := by
  obtain ⟨s, o, b, ms, a⟩ := n
  obtain ⟨rfl, ha⟩ : ms = [] ∧ a.toList = [] := List.append_eq_nil_iff.1 hn
  rw [entries_node, partEntries, ha]
  simp [entriesAll, statement, origin, body]

theorem isBlank_simple (hs : s ≠ .blank) {b ns : List Node} {a : Option Node} :
    (node (.simple s) o b ns a).isBlank = false := by simpa [isBlank, statement] using hs

theorem reread_blank (ht : 0 < tab) (o : Option Origin) : (node (.simple .blank) o [] [] none).Reread tab := by
  intro d es inner base following hready _
  obtain rfl : inner = [] := hready
  refine Leads.step fun r index hr => And.imp_right (fun hb => ?_) (hr.readLine_blank ht o rfl)
  exact ⟨[], by rw [entries_body rfl]; exact hb, fun m _ => ready_nil d m⟩

theorem reread_simple (ht : 0 < tab) (h : s.SelfReading) (hs : s ≠ .blank) (o : Option Origin) :
    (node (.simple s) o [] [] none).Reread tab := by
  intro d es inner base following hready hf
  obtain ⟨first, rest, hback⟩ := h.readsBack hs
  have hclosed := hready.closed (isBlank_simple hs)
  have htrim : trim (indentLine d first) = trim first := trim_indentLine d first
  obtain ⟨s', hs', hreads⟩ := hback.reads d following hf
  rw [rows_simple, hback.rows, List.map_cons]
  refine Leads.single fun r index hr => ?_
  rw [readLine_eq_addStatement (by rw [htrim]; exact hback.nonempty) (by rw [htrim]; exact hback.branch)
    (by rw [htrim]; exact hback.brace) (hr.not_isFlat ht), htrim, List.length_map]
  have hd := length_leading_indentLine hback.nonempty hback.word d
  refine And.imp_right (fun hb => ?_) (hr.addStatement_simple hclosed hd hback.nonempty hs' o hreads)
  exact ⟨[], by rw [entries_body rfl, isBlank_simple hs]; exact hb, fun m _ => ready_nil d m⟩

/-! Blocks are read part by part: the block itself with its body, and then each of its branches. -/

/-- The part `n` of a block of the indent `d` has been read last. A branch that follows it is added to the
block `k`. -/
def After (tab d : Nat) (es : List Entry) (outer : List Context) (k : Option Nat) (n : Node) (r : Reading) :
    Prop :=
  ∃ inner c e, r.Between tab (d + tab) es inner (c :: outer) ∧ c.conditional = k ∧
    es[c.node]? = some e ∧ e.statement = n.statement ∧
    ((∃ m ∈ n.body, m.isBlank = false) → c.bodyIndent = some (d + tab))

variable {outer : List Context} {n m p : Node}

theorem leads_body (hn : RereadAll tab n.body) (hf : Fresh following) {e : Entry}
    (he : e.statement = n.statement) (label : Text) (k : Option Nat) :
    Leads (Between tab (d + tab) (es ++ [e]) [] (⟨label, d, es.length, none, k⟩ :: outer))
      ((n.body.flatMap (rows tab)).map (indentLine (d + tab))) following
      (After tab d (es ++ e :: entriesAll (some es.length) .body (es.length + 1) n.body) outer k n) := by
  refine (hn _ _ _ _ _ (fun m _ => ready_nil _ m) hf).weaken ?_
  rintro r ⟨inner', hr⟩
  rw [List.length_append, List.length_singleton, List.append_assoc] at hr
  have hentry (more : List Entry) : (es ++ ([e] ++ more))[es.length]? = some e := by simp
  cases hall : n.body.all isBlank with
  | true =>
    rw [hall, if_pos rfl] at hr
    refine ⟨inner', _, e, hr, rfl, hentry _, he, ?_⟩
    -- Blank lines do not begin the body, so nothing is said about its indent.
    rintro ⟨m, hm, hb⟩
    rw [List.all_eq_true.1 hall m hm] at hb
    cases hb
  | false =>
    rw [hall, if_neg (by simp)] at hr
    exact ⟨inner', _, e, hr, rfl, hentry _, he, fun _ => rfl⟩

theorem rows_parts {h : Header} (hs : n.statement = .block h) (hl : '\n' ∉ h.write) (tab d : Nat) :
    (n.rows tab).map (indentLine d) =
      [indentLine d h.write] ++ ((n.body.flatMap (rows tab)).map (indentLine (d + tab)) ++
        (n.branches.flatMap (rows tab)).map (indentLine d)) ++ h.tail?.toList.map (indentLine d) := by
  obtain ⟨s, o, b, ms, a⟩ := n
  obtain rfl : s = .block h := hs
  rw [rows_block, splitOn_of_notMem hl]
  simp [branches, body, elseIfs, alternate, indentLine_indentLine, Function.comp_def]

theorem trim_header (h : Header) (d : Nat) : trim (indentLine d h.write) = h.write := by
  rw [trim_indentLine, h.trimmed_write.trim_eq]

theorem length_leading_header (h : Header) (d : Nat) :
    (leading (trimReturns (indentLine d h.write))).length = d := by
  refine length_leading_indentLine ?_ h.trimmed_write.head d
  rw [h.trimmed_write.trim_eq]
  exact h.write_ne_nil

theorem leads_branch (ht : 0 < tab) {h : Header} (hm : m.WellFormed) (hs : m.statement = .block h)
    (hb : h.isBranch = true) (hbody : RereadAll tab m.body) (hf : Fresh following) {k : Nat}
    (hk : k < es.length) (halt : h = .otherwise → ∀ e ∈ es, e.place ≠ (some k, .alternate)) :
    Leads (After tab d es outer (some k) p) ((m.rows tab).map (indentLine d)) following
      (After tab d
        (es ++ m.entries (some k) (if h = .otherwise then .alternate else .elseIf) es.length)
        outer (if h = .otherwise then none else some k) m) := by
  obtain ⟨hread, hl⟩ := (hm.header h hs).readBranch hb
  have htail : h.tail? = none := by
    cases h <;> first | rfl | cases hb
  have hbranches : m.branches = [] := by
    refine hm.branches ?_
    rw [hs]
    cases h <;> first | rfl | cases hb
  rw [rows_parts hs hl, hbranches, htail, entries_body hbranches, hs]
  simp only [List.flatMap_nil, List.map_nil, List.append_nil, Option.toList_none]
  have hline : Leads (After tab d es outer (some k) p) [indentLine d h.write]
      ((m.body.flatMap (rows tab)).map (indentLine (d + tab)) ++ following)
      (Between tab (d + tab)
        (es ++ [⟨.block h, m.origin, some k, if h = .otherwise then .alternate else .elseIf⟩]) []
        (⟨h.label, d, es.length, none, if h = .otherwise then none else some k⟩ :: outer)) := by
    refine Leads.step ?_
    rintro r index ⟨inner, c, e, hr, hc, -⟩
    exact hr.readLine_branch ht hc hk m.origin (length_leading_header h d) (by rw [trim_header, hread])
      (by rw [trim_header, h.startsWith_else_write, hb]) halt
  exact hline.append (leads_body hbody hf hs.symm h.label _)

theorem leads_elseIfs (ht : 0 < tab) {ms : List Node} (hms : ∀ m ∈ ms, m.WellFormed)
    (hs : ∀ m ∈ ms, ∃ c, m.statement = .block (.elseIf c)) (hbody : ∀ m ∈ ms, RereadAll tab m.body)
    (hf : Fresh following) {k : Nat} (hk : k < es.length) :
    Leads (After tab d es outer (some k) p) ((ms.flatMap (rows tab)).map (indentLine d)) following
      (After tab d (es ++ entriesAll (some k) .elseIf es.length ms) outer (some k)
        (ms.getLast?.getD p)) := by
  induction ms generalizing es p with
  | nil => exact Leads.nil fun r hr => by simpa [entriesAll] using hr
  | cons m ms ih =>
    obtain ⟨c, hc⟩ := hs m (by simp)
    have hrest : ∀ m' ∈ ms, m'.WellFormed := fun m' hm => hms m' (List.mem_cons_of_mem m hm)
    have hlt : k < (es ++ m.entries (some k) .elseIf es.length).length := by
      rw [List.length_append]
      exact Nat.lt_add_right _ hk
    rw [List.flatMap_cons, List.map_append, List.getLast?_cons, Option.getD_some, entriesAll,
      ← List.append_assoc, ← List.length_append]
    refine Leads.append (leads_branch ht (hms m (by simp)) hc rfl (hbody m (by simp))
      ((fresh_indented hrest tab d).append hf) hk (by simp)) ?_
    simp only [reduceCtorEq, if_false]
    exact ih hrest (fun m' hm => hs m' (List.mem_cons_of_mem m hm))
      (fun m' hm => hbody m' (List.mem_cons_of_mem m hm)) hlt

theorem leads_alternate (ht : 0 < tab) {a : Option Node} (ha : ∀ m ∈ a, m.WellFormed)
    (hs : ∀ m ∈ a, m.statement = .block .otherwise) (hbody : ∀ m ∈ a, RereadAll tab m.body)
    (hf : Fresh following) {k : Nat} (hk : k < es.length)
    (halt : ∀ e ∈ es, e.place ≠ (some k, .alternate)) :
    Leads (After tab d es outer (some k) p) ((a.toList.flatMap (rows tab)).map (indentLine d)) following
      fun r => ∃ k', After tab d (es ++ entriesAll (some k) .alternate es.length a.toList) outer k'
        (a.getD p) r := by
  cases a with
  | none => exact Leads.nil fun r hr => ⟨some k, by simpa [entriesAll] using hr⟩
  | some m =>
    simp only [Option.toList_some, List.flatMap_cons, List.flatMap_nil, List.append_nil, entriesAll]
    exact (leads_branch ht (ha m rfl) (hs m rfl) rfl (hbody m rfl) hf hk fun _ => halt).weaken
      fun r hr => ⟨_, hr⟩

variable {inner base : List Context}

theorem leads_header (ht : 0 < tab) {h : Header} (hs : h.SelfReading) (hb : h.isBranch = false)
    (o : Option Origin) (hclosed : ∀ c ∈ inner, c.contains d = false) :
    Leads (Between tab d es inner base) [indentLine d h.write] following
      (Between tab (d + tab) (es ++ [⟨.block h, o, owner? base, .body⟩]) []
        (⟨h.label, d, es.length, none,
          if (Statement.block h).isConditional then some es.length else none⟩ :: settled d base)) := by
  refine Leads.step fun r index hr => ?_
  rw [readLine_eq_addStatement (by rw [trim_header]; exact h.write_ne_nil)
    (by rw [trim_header, h.startsWith_else_write, hb]) (by rw [trim_header]; exact h.write_ne_brace)
    (hr.not_isFlat ht), trim_header]
  exact hr.addStatement_block hclosed (length_leading_header h d) o
    (Statement.read?_eq_some_iff.2 (Or.inl ⟨(hs.single hb).1, rfl⟩))

/-- None of the entries is an `else` of the block `k`: what was read before it, the block itself, its body,
and its other branches. -/
theorem place_ne_alternate {e f : Entry} {b ms : List Node} {k j : Nat} (howned : ∀ e ∈ es, Outside e.owner k)
    (he : e.role = .body) (hj : k < j) (hf : f ∈ es ++ e :: entriesAll (some k) .body (k + 1) b ++
      entriesAll (some k) .elseIf j ms) : f.place ≠ (some k, .alternate) := by
  intro hp
  obtain ⟨howner, hrole⟩ := Prod.mk.inj hp
  have hwithin {role : Role} {i : Nat} (hi : k < i) (hr : role ≠ .alternate)
      (hw : f.Within (some k) role i) : False := by
    rcases hw with hw | ⟨l, hl, hle⟩
    · exact hr (Prod.mk.inj (hw.symm.trans hp)).2
    · obtain rfl : l = k := Option.some.inj (hl.symm.trans howner)
      omega
  rw [List.mem_append, List.mem_append, List.mem_cons] at hf
  rcases hf with (hf | rfl | hf) | hf
  · exact Nat.lt_irrefl _ (howned f hf k howner)
  · rw [he] at hrole
    cases hrole
  · exact hwithin (Nat.lt_succ_self k) (by simp) (within_entriesAll hf)
  · exact hwithin hj (by simp) (within_entriesAll hf)

theorem lastPart_eq (n : Node) : n.lastPart = n.alternate.getD (n.elseIfs.getLast?.getD n) := by
  rw [lastPart, branches]
  cases n.alternate <;> simp

theorem append_entries (es : List Entry) (owner : Option Nat) (role : Role) (n : Node) {es₁ es₂ : List Entry}
    (h₁ : es₁ = es ++ ⟨n.statement, n.origin, owner, role⟩ ::
      entriesAll (some es.length) .body (es.length + 1) n.body)
    (h₂ : es₂ = es₁ ++ entriesAll (some es.length) .elseIf es₁.length n.elseIfs) :
    es ++ n.entries owner role es.length =
      es₂ ++ entriesAll (some es.length) .alternate es₂.length n.alternate.toList := by
  obtain ⟨s, o, b, ms, a⟩ := n
  subst h₁ h₂
  simp [entries_node, partEntries, statement, origin, body, elseIfs, alternate, Nat.add_assoc, Nat.add_comm 1]

theorem leads_branches (ht : 0 < tab) (hn : n.WellFormed) (hwf : ∀ m ∈ n.branches, m.WellFormed)
    (hbodies : ∀ m ∈ n.branches, RereadAll tab m.body) (hf : Fresh following)
    (howned : ∀ e ∈ es, Outside e.owner es.length) (owner : Option Nat) :
    Leads (After tab d (es ++ ⟨n.statement, n.origin, owner, .body⟩ ::
        entriesAll (some es.length) .body (es.length + 1) n.body) outer
        (if n.statement.isConditional then some es.length else none) n)
      ((n.branches.flatMap (rows tab)).map (indentLine d)) following
      fun r => ∃ k, After tab d (es ++ n.entries owner .body es.length) outer k n.lastPart r := by
  -- `es₁` is read before the first branch, `es₂` before the `else`.
  obtain ⟨es₁, h₁⟩ : ∃ es₁, es₁ = es ++ ⟨n.statement, n.origin, owner, .body⟩ ::
    entriesAll (some es.length) .body (es.length + 1) n.body := ⟨_, rfl⟩
  obtain ⟨es₂, h₂⟩ : ∃ es₂, es₂ = es₁ ++ entriesAll (some es.length) .elseIf es₁.length n.elseIfs := ⟨_, rfl⟩
  rw [← h₁, append_entries es owner .body n h₁ h₂]
  cases hc : n.statement.isConditional with
  | false =>
    have hnil := hn.branches hc
    obtain ⟨helse, halternate⟩ := List.append_eq_nil_iff.1 hnil
    rw [lastPart, hnil, halternate, h₂, helse]
    exact Leads.nil fun r hr => ⟨none, by simpa [entriesAll] using hr⟩
  | true =>
    have helse : ∀ m ∈ n.elseIfs, m ∈ n.branches := fun m hm => List.mem_append_left _ hm
    have halternate : ∀ m ∈ n.alternate, m ∈ n.branches :=
      fun m hm => List.mem_append_right _ (Option.mem_toList.2 hm)
    have hlt : es.length < es₁.length := by
      rw [h₁, List.length_append, List.length_cons]
      omega
    have hnone : ∀ e ∈ es₂, e.place ≠ (some es.length, .alternate) := by
      intro e he
      rw [h₂, h₁] at he
      exact place_ne_alternate howned rfl (h₁ ▸ hlt) he
    have hfresh : Fresh ((n.alternate.toList.flatMap (rows tab)).map (indentLine d)) :=
      fresh_indented (fun m hm => hwf m (halternate m (Option.mem_toList.1 hm))) tab d
    rw [lastPart_eq, branches, List.flatMap_append, List.map_append, if_pos rfl]
    refine Leads.append (leads_elseIfs ht (fun m hm => hwf m (helse m hm)) hn.elseIfs
      (fun m hm => hbodies m (helse m hm)) (hfresh.append hf) hlt) ?_
    rw [← h₂]
    exact leads_alternate ht (fun m hm => hwf m (halternate m hm)) hn.alternate
      (fun m hm => hbodies m (halternate m hm)) hf (by rw [h₂, List.length_append]; omega) hnone

theorem leads_parts (ht : 0 < tab) {h : Header} (hn : n.WellFormed) (hs : n.statement = .block h)
    (hb : h.isBranch = false) (hwf : ∀ m ∈ n.body ++ n.branches, m.WellFormed)
    (hbody : RereadAll tab n.body) (hbodies : ∀ m ∈ n.branches, RereadAll tab m.body)
    (hf : Fresh following) (hclosed : ∀ c ∈ inner, c.contains d = false) :
    Leads (Between tab d es inner base)
      ([indentLine d h.write] ++ ((n.body.flatMap (rows tab)).map (indentLine (d + tab)) ++
        (n.branches.flatMap (rows tab)).map (indentLine d))) following
      fun r => ∃ k, After tab d (es ++ n.entries (owner? base) .body es.length) (settled d base) k
        n.lastPart r := by
  intro r index hr
  have hbranchRows : Fresh ((n.branches.flatMap (rows tab)).map (indentLine d) ++ following) :=
    (fresh_indented (fun m hm => hwf m (List.mem_append_right _ hm)) tab d).append hf
  refine Leads.append (leads_header ht (hn.header h hs) hb n.origin hclosed) ?_ r index hr
  rw [← hs]
  exact Leads.append (leads_body hbody hbranchRows rfl h.label _) (leads_branches ht hn
    (fun m hm => hwf m (List.mem_append_right _ hm)) hbodies hf hr.owned (owner? base))

theorem isParam_lastPart (hn : n.WellFormed) (hp : n.statement.isParam = false) :
    n.lastPart.statement.isParam = false := by
  rw [lastPart_eq]
  cases ha : n.alternate with
  | some m =>
    rw [Option.getD_some, hn.alternate m ha]
    rfl
  | none =>
    rw [Option.getD_none]
    cases hm : n.elseIfs.getLast? with
    | none => exact hp
    | some m =>
      obtain ⟨c, hc⟩ := hn.elseIfs m (List.mem_of_getLast? hm)
      rw [Option.getD_some, hc]
      rfl

/-- The brace of a `param` block closes it. Other blocks stay open, and what may come next closes them. -/
theorem reread_block (ht : 0 < tab) {h : Header} (hn : n.WellFormed) (hs : n.statement = .block h)
    (hb : h.isBranch = false) (hwf : ∀ m ∈ n.body ++ n.branches, m.WellFormed)
    (hbody : RereadAll tab n.body) (hbodies : ∀ m ∈ n.branches, RereadAll tab m.body) : n.Reread tab := by
  intro d es inner base following hready hf r index hr
  have hblank : n.isBlank = false := by
    rw [isBlank, hs]
    rfl
  have hclosed := hready.closed hblank
  have houter : ∀ c, (settled d base).head? = some c →
      c.Holds tab d (es ++ n.entries (owner? base) .body es.length) :=
    fun c hc => (hr.holds_settled c hc).append _
  rw [rows_parts hs (hn.header h hs).newline, hblank, if_neg (by simp)]
  cases hp : n.statement.isParam with
  | true =>
    obtain ⟨x, rfl⟩ : ∃ x, h = .param x := by
      rw [hs] at hp
      cases h <;> first | exact ⟨_, rfl⟩ | cases hp
    have hlast : n.lastPart = n := by
      rw [lastPart, hn.branches (by rw [hs]; rfl)]
      rfl
    have hbrace : Fresh ([['}']].map (indentLine d) ++ following) :=
      (Fresh.indent ⟨by simp, by rintro _ ⟨⟩; rfl⟩ d).append hf
    refine Leads.append (leads_parts ht hn hs hb hwf hbody hbodies hbrace hclosed) (Leads.step ?_) r index hr
    rintro r index ⟨k, inner', c, e, hr', -, he, hstatement, -⟩
    rw [hlast] at hstatement
    have hparam : e.statement.isParam = true := by rw [hstatement, hp]
    refine And.imp_right (fun hclose => ?_)
      (hr'.readLine_brace he hparam ((trim_indentLine d ['}']).trans rfl) houter)
    exact ⟨[], hclose, fun m _ => ready_nil d m⟩
  | false =>
    have htail : h.tail? = none := by
      rw [hs] at hp
      cases h <;> first | rfl | cases hp
    rw [htail, Option.toList_none, List.map_nil, List.append_nil]
    refine Leads.weaken (leads_parts ht hn hs hb hwf hbody hbodies hf hclosed) ?_ r index hr
    rintro r ⟨k, inner', c, e, hr', -, he, hstatement, hbegun⟩
    have hparam : e.statement.isParam = false := by
      rw [hstatement, isParam_lastPart hn hp]
    refine ⟨_, hr'.leave he hparam houter, fun m hm => ?_⟩
    obtain ⟨hm, hnonblank⟩ := hm (by rw [hs]; rfl) hp
    rw [Ready, hm, if_neg (by simp)]
    exact hr'.closed ht (hbegun hnonblank)

/-! All trees, by induction. -/

/-- The lines of a well-formed tree are read as its entries. Branches are read together with the block that
they belong to. -/
theorem reread (ht : 0 < tab) (n : Node) (hwf : ∀ m ∈ n.walk, m.WellFormed)
    (hblank : ∀ m ∈ n.walk, m.isBlank = true → m.body = []) :
    RereadAll tab n.body ∧ (n.statement.isBranch = false → n.Reread tab) := by
  induction n using Node.induct with
  | node s o b ms a hb hms ha =>
    have hn := hwf _ (self_mem_walk _)
    have hbelow : ∀ m ∈ b ++ (ms ++ a.toList), ∀ x ∈ m.walk, x.WellFormed :=
      fun m hm x hx => hwf x (mem_walk_of_mem hm hx)
    have hblanks : ∀ m ∈ b ++ (ms ++ a.toList), ∀ x ∈ m.walk, x.isBlank = true → x.body = [] :=
      fun m hm x hx => hblank x (mem_walk_of_mem hm hx)
    have hparts : ∀ m ∈ b ++ (ms ++ a.toList), m.WellFormed :=
      fun m hm => hbelow m hm m m.self_mem_walk
    have hbody : RereadAll tab b := by
      refine rereadAll_of (fun m hm => ?_) (fun m hm => hparts m (List.mem_append_left _ hm)) hn.body.chain
      have hm' := List.mem_append_left (ms ++ a.toList) hm
      exact (hb m hm (hbelow m hm') (hblanks m hm')).2 (hn.body.branch m hm)
    have hbodies : ∀ m ∈ ms ++ a.toList, RereadAll tab m.body := by
      intro m hm
      have hm' := List.mem_append_right b hm
      rcases List.mem_append.1 hm with hm | hm
      · exact (hms m hm (hbelow m hm') (hblanks m hm')).1
      · exact (ha m hm (hbelow m hm') (hblanks m hm')).1
    refine ⟨hbody, fun hbranch => ?_⟩
    cases s with
    | block h => exact reread_block ht hn rfl hbranch hparts hbody hbodies
    | simple s =>
      obtain ⟨rfl, ha⟩ : ms = [] ∧ a.toList = [] := List.append_eq_nil_iff.1 (hn.branches rfl)
      obtain rfl : a = none := by simpa using ha
      by_cases hs : s = .blank
      · subst hs
        obtain rfl : b = [] := hblank _ (self_mem_walk _) rfl
        exact reread_blank ht o
      · obtain ⟨hreads, rfl⟩ : s.SelfReading ∧ b = [] := hn.reads s rfl hs
        exact reread_simple ht hreads hs o

end Node

/-- The text of a well-formed tree is read as a document that is equal to it, if no blank line has a body. -/
theorem Document.compare_layoutNodes {tab : Nat} (ht : 0 < tab) {d : Document} (h : d.WellFormed)
    (hblank : ∀ n ∈ d.walk, n.isBlank = true → n.body = []) :
    (Document.read (layoutNodes tab d.nodes)).compare d = .equal := by
  have hmem {n : Node} (hn : n ∈ d.nodes) {m : Node} (hm : m ∈ n.walk) : m ∈ d.walk := by
    rw [Document.walk, Node.walkAll_eq_flatMap]
    exact List.mem_flatMap.2 ⟨n, hn, hm⟩
  have hall : Node.RereadAll tab d.nodes := by
    refine Node.rereadAll_of (fun n hn => ?_) (fun n hn => h.walk n (hmem hn n.self_mem_walk)) h.nodes.chain
    exact (n.reread ht (fun m hm => h.walk m (hmem hn hm)) fun m hm => hblank m (hmem hn hm)).2
      (h.nodes.branch n hn)
  have hstart : Reading.start.Between tab 0 [] [] [] := ⟨.nil, rfl, by simp, by simp, by simp⟩
  obtain ⟨r, index, ⟨inner, hr⟩, hread⟩ := hall 0 [] [] [] [] (fun n _ => n.ready_nil 0) .nil _ 0 hstart
  have hlines : (layoutNodes tab d.nodes).lines =
      (d.nodes.flatMap (Node.rows tab)).map (indentLine 0) ++ [] := by
    rw [lines_layoutNodes, List.append_nil]
    exact (List.map_id'' indentLine_zero _).symm
  have hnodes : (Document.read (layoutNodes tab d.nodes)).nodes = r.outline.nodes := by
    rw [Document.read, Reading.ofText, hlines, hread]
    rfl
  rw [Document.compare_eq_equal_iff, hnodes]
  have hentries : List.Forall₂ Node.Equal r.outline.nodes
      (Outline.nodes (Node.entriesAll none .body 0 d.nodes).toArray) := Outline.nodes_equal hr.outline
  rwa [Outline.nodes_entriesAll] at hentries

end Devalang
