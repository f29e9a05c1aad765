import Devalang.Proofs.Document.Rows
import Devalang.Proofs.Document.SelfReading

/-! Trees whose text is read as the tree again: their statements read themselves, branches stand where they
belong, and nothing is written right behind a block that would be read as a part of it. -/
namespace Devalang
open Text

def Statement.isBranch : Statement → Bool
  | simple _ => false
  | block h => h.isBranch

namespace Node

def isBlank (n : Node) : Bool := n.statement == .simple .blank

/-- The part of a block that is written last: its last branch, or the block itself if it has none. -/
def lastPart (n : Node) : Node := n.branches.getLast?.getD n

/-- The node `m` may come right after the node `n`. A block that no brace closes takes a blank line that
comes after it, and all other lines too if its last part has not begun. -/
def Precedes (n m : Node) : Prop :=
  n.statement.isBlock = true → n.statement.isParam = false →
    m.isBlank = false ∧ ∃ c ∈ n.lastPart.body, c.isBlank = false

end Node

structure Siblings (ns : List Node) : Prop where
  branch : ∀ n ∈ ns, n.statement.isBranch = false
  chain : ns.IsChain Node.Precedes

instance (n : Node) : DecidablePred n.Precedes := fun m =>
  inferInstanceAs (Decidable (n.statement.isBlock = true → n.statement.isParam = false →
    m.isBlank = false ∧ ∃ c ∈ n.lastPart.body, c.isBlank = false))

instance : DecidablePred Siblings := fun ns =>
  decidable_of_iff ((∀ n ∈ ns, n.statement.isBranch = false) ∧ ns.IsChain Node.Precedes)
    ⟨fun h => ⟨h.1, h.2⟩, fun h => ⟨h.branch, h.chain⟩⟩

/-- A node of a well-formed tree. That a statement is read as itself includes that it has no body. Nothing is
said of the body of a blank line. Only a conditional has branches at all. -/
structure Node.WellFormed (n : Node) : Prop where
  reads : ∀ s, n.statement = .simple s → s ≠ .blank → s.SelfReading ∧ n.body = []
  header : ∀ h, n.statement = .block h → h.SelfReading
  branches : n.statement.isConditional = false → n.branches = []
  elseIfs : ∀ m ∈ n.elseIfs, ∃ c, m.statement = .block (.elseIf c)
  alternate : ∀ m ∈ n.alternate, m.statement = .block .otherwise
  body : Siblings n.body

structure Document.WellFormed (d : Document) : Prop where
  walk : ∀ n ∈ d.walk, n.WellFormed
  nodes : Siblings d.nodes

namespace Node.WellFormed
variable {s : Simple} {h : Header} {b : List Node}

theorem leaf (hs : s ≠ .blank → s.SelfReading) : (Statement.simple s).leaf.WellFormed where
  reads _ hr hne := by
    cases hr
    exact ⟨hs hne, rfl⟩
  header _ hh := by cases hh
  branches _ := rfl
  elseIfs _ hm := by cases hm
  alternate _ hm := by cases hm
  body := ⟨by rintro _ ⟨⟩, .nil⟩

theorem block (hh : h.SelfReading) (hb : Siblings b) (o : Option Origin) :
    (node (.block h) o b [] none).WellFormed where
  reads _ hr := by cases hr
  header _ hx := by
    cases hx
    exact hh
  branches _ := rfl
  elseIfs _ hm := by cases hm
  alternate _ hm := by cases hm
  body := hb

end Node.WellFormed

namespace Fresh
variable {a b : List Text}

theorem append (ha : Fresh a) (hb : Fresh b) : Fresh (a ++ b) where
  newline line hline := (List.mem_append.1 hline).elim (ha.newline line) (hb.newline line)
  chain line hline := by
    cases a with
    | nil => exact hb.chain line hline
    | cons l a => exact ha.chain line hline

theorem indent (h : Fresh a) (d : Nat) : Fresh (a.map (indentLine d)) where
  newline := by
    intro line hline
    obtain ⟨l, hl, rfl⟩ := List.mem_map.1 hline
    exact newline_notMem_indentLine (h.newline l hl)
  chain := by
    intro line hline
    rw [List.head?_map, Option.map_eq_some_iff] at hline
    obtain ⟨l, hl, rfl⟩ := hline
    rw [continuesChain, trimStart_indentLine]
    exact h.chain l hl

theorem flatMap {α : Type} {f : α → List Text} {xs : List α} (h : ∀ x ∈ xs, Fresh (f x)) :
    Fresh (xs.flatMap f) := by
  induction xs with
  | nil => exact .nil
  | cons x xs ih =>
    rw [List.flatMap_cons]
    exact (h x (by simp)).append (ih fun y hy => h y (List.mem_cons_of_mem x hy))

end Fresh

theorem Header.SelfReading.newline {h : Header} (hs : h.SelfReading) : '\n' ∉ h.write := by
  cases hb : h.isBranch with
  | true => exact (hs.readBranch hb).2
  | false => exact (hs.single hb).2

theorem Node.WellFormed.fresh_rows {n : Node} (h : n.WellFormed) (tab : Nat) : Fresh (n.rows tab) := by
  refine ⟨fun _ => newline_notMem_rows, ?_⟩
  obtain ⟨s, o, b, es, a⟩ := n
  intro row hrow
  cases s with
  | simple s =>
    by_cases hs : s = .blank
    · subst hs
      cases hrow
      rfl
    · obtain ⟨first, rest, hr⟩ := (h.reads s rfl hs).1.readsBack hs
      rw [rows_simple, hr.rows] at hrow
      cases hrow
      exact hr.chain
  | block b =>
    rw [rows_block, splitOn_of_notMem (h.header b rfl).newline] at hrow
    cases hrow
    rw [continuesChain, trimStart_of_head b.trimmed_write.head]
    exact b.startsWith_arrow_write

theorem Node.fresh_indented {ns : List Node} (h : ∀ n ∈ ns, n.WellFormed) (tab d : Nat) :
    Fresh ((ns.flatMap (rows tab)).map (indentLine d)) :=
  (Fresh.flatMap fun n hn => (h n hn).fresh_rows tab).indent d

end Devalang
