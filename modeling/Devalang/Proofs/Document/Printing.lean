import Devalang.Document.Print
import Devalang.Proofs.Document.Reprint

/-! Printing a document from its tree. The text of a well-formed tree is read as the tree again if nothing is
below its blank lines. -/
namespace Devalang
open Text

theorem Settings.tabFor_eq {settings : Settings} {w : Int} (h : settings.value "tab_width".toList = .int w)
    (needed : Bool) : settings.tabFor needed = .ok w.toNat := by
  have htab : settings.tab = .ok w.toNat := by
    unfold Settings.tab
    rw [h]
  rw [Settings.tabFor, htab]

namespace Node

theorem forall₂_walkAll {ns ms : List Node}
    (h : List.Forall₂ (fun n m => List.Forall₂ Equal n.walk m.walk) ns ms) :
    List.Forall₂ Equal (walkAll ns) (walkAll ms) := by
  rw [walkAll_eq_flatMap, walkAll_eq_flatMap]
  exact List.rel_flatMap h fun _ _ hwalk => hwalk

theorem Equal.walk {n m : Node} (h : n.Equal m) : List.Forall₂ Equal n.walk m.walk := by
  induction n using Node.induct generalizing m with
  | node s o b es a hb hes ha =>
    obtain ⟨s', o', b', es', a'⟩ := m
    have hall {ns ms : List Node} (hns : ∀ n ∈ ns, ∀ {m}, n.Equal m → List.Forall₂ Equal n.walk m.walk)
        (hms : List.Forall₂ Equal ns ms) : List.Forall₂ Equal (walkAll ns) (walkAll ms) :=
      forall₂_walkAll (((List.forall₂_and_left ns ms).2 ⟨hns, hms⟩).imp fun _ _ hm => hm.1 hm.2)
    obtain ⟨-, hbody, helse, halt⟩ := equal_iff.1 h
    have halternate : List.Forall₂ Equal a.toList a'.toList := by
      cases halt with
      | none => exact .nil
      | some hm => exact .cons hm .nil
    rw [Node.walk, Node.walk, Members.walkOption_eq, Members.walkOption_eq]
    exact .cons h (List.rel_append (List.rel_append (hall hb hbody) (hall hes helse)) (hall ha halternate))

theorem Equal.body_eq_nil {n m : Node} (h : n.Equal m) (hm : m.isBlank = true)
    (hn : n.statement.isBlock = false → n.body = []) : m.body = [] := by
  obtain ⟨s, o, b, es, a⟩ := n
  obtain ⟨s', o', b', es', a'⟩ := m
  obtain ⟨hs, hbody, -⟩ := equal_iff.1 h
  obtain rfl : s' = .simple .blank := by simpa [isBlank, statement] using hm
  have hblock : s.isBlock = false := by
    cases s with
    | simple s => rfl
    | block h => cases hs
  obtain rfl : b = [] := hn hblock
  exact List.forall₂_nil_left_iff.1 hbody

end Node

namespace Document

theorem walk_equal {d e : Document} (h : d.compare e = .equal) : List.Forall₂ Node.Equal d.walk e.walk :=
  Node.forall₂_walkAll ((compare_eq_equal_iff.1 h).imp fun _ _ hn => hn.walk)

theorem blanks_of_compare {s : Text} {d : Document} (h : (Document.read s).compare d = .equal) :
    ∀ n ∈ d.walk, n.isBlank = true → n.body = [] := by
  intro n hn hblank
  -- The statement that was read for a blank line is one, and so it has no body.
  have hwalk := walk_equal h
  obtain ⟨i, hi, rfl⟩ := List.getElem_of_mem hn
  have hlt : i < (Document.read s).walk.length := hwalk.length_eq ▸ hi
  exact (hwalk.get hlt hi).body_eq_nil hblank (body_eq_nil (List.getElem_mem hlt))

/-- A well-formed document that is printed from its tree and read again is the same document, unless one of
its blank lines has a body, which is not printed. -/
theorem compare_printTree {settings : Settings} {w : Int}
    (hsettings : settings.value "tab_width".toList = .int w) (hw : 1 ≤ w) {d : Document} (h : d.WellFormed) :
    ∃ out, d.printTree settings = .ok out ∧ ((Document.read out).compare d = .equal ↔
      ∀ n ∈ d.walk, n.isBlank = true → n.body = []) := by
  refine ⟨layoutNodes w.toNat d.nodes, ?_, blanks_of_compare, compare_layoutNodes (by omega) h⟩
  rw [printTree, Settings.tabFor_eq hsettings]
  rfl

/-- A tree with branches, a chain of calls and blank lines. -/
def branching : Document where
  lines := []
  nodes := [
    .node (.block (.conditional "a".toList)) none
      [ (Statement.simple (.bpm "120".toList)).leaf,
        (Statement.simple .blank).leaf,
        .node (.block (.loop (.number "4".toList))) none
          [(Statement.simple (.arrow "s".toList ⟨"f".toList, []⟩ [⟨"g".toList, []⟩])).leaf] [] none ]
      [ .node (.block (.elseIf "b".toList)) none
          [.node (.block (.param "x".toList)) none [(Statement.simple .blank).leaf] [] none] [] none ]
      (some (.node (.block .otherwise) none [(Statement.simple (.bpm "90".toList)).leaf] [] none)),
    (Statement.simple (.bpm "140".toList)).leaf]

/-- The second call stands on a line of its own, which goes on with the chain; no line after it does. -/
theorem selfReading_chain :
    (Simple.arrow "s".toList ⟨"f".toList, []⟩ [⟨"g".toList, []⟩]).SelfReading := by
  have hrows : splitOn '\n' (Simple.arrow "s".toList ⟨"f".toList, []⟩ [⟨"g".toList, []⟩]).write =
    ["s -> f()".toList, "    -> g()".toList] := by decide
  refine .of_read hrows (.of_trim_eq (by decide)) (by decide) (fun following hf => ?_) (by decide) (by decide)
  have hend : continueChain 0 "s -> f()\n    -> g()".toList following = ("s -> f()\n    -> g()".toList, 0) :=
    continueChain_eq_zero_iff.2 fun line hline => ⟨by decide +kernel, hf line hline⟩
  have hchain : continueChain 0 "s -> f()".toList ("    -> g()".toList :: following) =
      ("s -> f()\n    -> g()".toList, 1) := by
    rw [continueChain_cons, if_pos (by decide +kernel)]
    exact congrArg (fun x : Text × Nat => (x.1, x.2 + 1)) hend
  have harrow : Simple.readArrow 0 ("    -> g()".toList :: following) "s -> f()".toList =
      some (.arrow "s".toList ⟨"f".toList, []⟩ [⟨"g".toList, []⟩], 1) := by
    rw [Simple.readArrow_eq_some_iff, hchain]
    exact ⟨by decide, rfl, "s".toList, "f()".toList, ["g()".toList], _, _, by decide +kernel, by decide,
      by decide +kernel, by decide +kernel, rfl⟩
  exact Statement.read?_eq_some_iff.2 (Or.inr ⟨by decide +kernel, _, Statement.going?_eq_some_iff.2
    (Or.inr (Or.inr ⟨by decide +kernel, by decide +kernel, harrow⟩)), rfl⟩)

theorem wellFormed_branching : branching.WellFormed where
  walk n hn := by
    have hbpm (t : Text) (ht : Trimmed (Simple.bpm t).write) (hl : '\n' ∉ (Simple.bpm t).write)
        (h : Statement.single? (Simple.bpm t).write = some (.simple (.bpm t))) :
        (Statement.simple (.bpm t)).leaf.WellFormed := .leaf fun _ => .of_single ht hl h
    have hblank : (Statement.simple .blank).leaf.WellFormed := .leaf fun hne => absurd rfl hne
    simp only [branching, walk, Node.walkAll, Node.walk, Node.walkOption, Statement.leaf, List.append_nil,
      List.cons_append, List.nil_append, List.mem_cons, List.not_mem_nil, or_false] at hn
    rcases hn with rfl | rfl | rfl | rfl | rfl | rfl | rfl | rfl | rfl | rfl | rfl
    · exact {
        reads := by rintro _ ⟨⟩
        header := by
          rintro _ ⟨⟩
          exact .of_single (by decide) (by decide +kernel) rfl
        branches := by rintro ⟨⟩
        elseIfs := by
          intro m hm
          obtain rfl := List.mem_singleton.1 hm
          exact ⟨_, rfl⟩
        alternate := by
          rintro _ ⟨⟩
          rfl
        body := by decide +kernel }
    · exact hbpm "120".toList (.of_trim_eq (by decide)) (by decide) (by decide +kernel)
    · exact hblank
    · exact .block (.of_single (by decide) (by decide +kernel) rfl) (by decide +kernel) none
    · exact .leaf fun _ => selfReading_chain
    · exact .block (h := .elseIf "b".toList) (by decide +kernel : Header.readElseIf _ = _) (by decide +kernel) none
    · exact .block (.of_single (by decide) (by decide +kernel) rfl) (by decide +kernel) none
    · exact hblank
    · exact .block (h := .otherwise) trivial (by decide +kernel) none
    · exact hbpm "90".toList (.of_trim_eq (by decide)) (by decide) (by decide +kernel)
    · exact hbpm "140".toList (.of_trim_eq (by decide)) (by decide) (by decide +kernel)
  nodes := by decide +kernel

theorem compare_printTree_branching :
    Settings.value ⟨[("tab_width".toList, .int 3)]⟩ "tab_width".toList = .int 3 ∧ (1 : Int) ≤ 3 ∧
    branching.WellFormed ∧ ∃ out, branching.printTree ⟨[("tab_width".toList, .int 3)]⟩ = .ok out ∧
      ((Document.read out).compare branching = .equal ↔
        ∀ n ∈ branching.walk, n.isBlank = true → n.body = []) ∧
      (Document.read out).compare branching = .equal := by
  obtain ⟨out, hout, hiff⟩ := @compare_printTree ⟨[("tab_width".toList, .int 3)]⟩ 3 rfl (by decide) _
    wellFormed_branching
  exact ⟨rfl, by decide, wellFormed_branching, out, hout, hiff, hiff.2 (by decide +kernel)⟩

/-- A blank line with a call below it, and a call after it. -/
def hidden : Document where
  lines := []
  nodes := [
    .node (.simple .blank) none [(Statement.simple (.call "x".toList)).leaf] [] none,
    (Statement.simple (.call "y".toList)).leaf]

theorem wellFormed_hidden : hidden.WellFormed where
  walk n hn := by
    have hcall {t : Text} (ht : Trimmed (Simple.call t).write) (hl : '\n' ∉ (Simple.call t).write)
        (h : Statement.single? (Simple.call t).write = some (.simple (.call t))) :
        (Statement.simple (.call t)).leaf.WellFormed := .leaf fun _ => .of_single ht hl h
    simp only [hidden, walk, Node.walkAll, Node.walk, Node.walkOption, Statement.leaf, List.append_nil,
      List.cons_append, List.nil_append, List.mem_cons, List.not_mem_nil, or_false] at hn
    rcases hn with rfl | rfl | rfl
    · exact {
        reads := fun s hs hne => absurd (Statement.simple.inj hs).symm hne
        header := by rintro _ ⟨⟩
        branches := fun _ => rfl
        elseIfs := by rintro _ ⟨⟩
        alternate := by rintro _ ⟨⟩
        body := by decide }
    · exact hcall (.of_trim_eq (by decide)) (by decide) (by decide +kernel)
    · exact hcall (.of_trim_eq (by decide)) (by decide) (by decide +kernel)
  nodes := by decide

/-- The call below the blank line is not printed. -/
theorem printTree_hidden :
    Settings.value ⟨[("tab_width".toList, .int 2)]⟩ "tab_width".toList = .int 2 ∧ (1 : Int) ≤ 2 ∧
    hidden.WellFormed ∧
    hidden.printTree ⟨[("tab_width".toList, .int 2)]⟩ = .ok "\ncall y\n".toList ∧
    (Document.read "\ncall y\n".toList).compare hidden ≠ .equal :=
  ⟨rfl, by decide, wellFormed_hidden, by decide +kernel, by decide +kernel⟩

end Document

end Devalang
