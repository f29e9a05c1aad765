import Devalang.Proofs.Document.Reread
import Devalang.Proofs.Document.Settings
import Devalang.Proofs.Statement.Returns

/-! Formatting a text in which every line ends with a carriage return. Its lines are replaced as those of
the text without carriage returns, and keep theirs. -/
namespace Devalang
open Text

/-- The same statements in the same lines, up to the texts of those that go on over several lines. -/
def Likeness.returned : Likeness where
  shift := 0
  Shown p q := q.2 = p.2 ∧ (q.1 = p.1 ∨
    ∃ r r' o, p.1 = .simple r ∧ q.1 = .simple r' ∧ p.2 = some o ∧ o.isMultiline = true)
  header := by
    rintro ⟨s, o⟩ ⟨s', o'⟩ ⟨-, rfl | ⟨r, r', p, rfl, rfl, -⟩⟩ <;> rfl
  close := by
    rintro b o o' last ⟨rfl, -⟩
    exact ⟨rfl, Or.inl rfl⟩

theorem Likeness.preserves_return (line : Text) (following : List Text) :
    returned.Preserves (· ++ ['\r']) line following where
  content := trim_append_blank line (blank_singleton isBlank_return)
  shown s index := by
    rw [trimReturns_append line (by simp)]
    exact ⟨rfl, Or.inl rfl⟩
  indent _ := by
    rw [trimReturns_append line (by simp)]
    rfl
  reads _ index := by
    rw [trimReturns_append line (by simp)]
    have hrel := Statement.read?_return (leading (trimReturns line)).length following (trim line)
    cases hr : Statement.read? (leading (trimReturns line)).length following (trim line) with
    | none =>
      rw [hr] at hrel
      cases hr' : Statement.read? (leading (trimReturns line)).length (following.map (· ++ ['\r']))
          (trim line) with
      | none => exact .unknown rfl hr hr'
      | some x' =>
        rw [hr'] at hrel
        cases hrel
    | some x =>
      rw [hr] at hrel
      cases hr' : Statement.read? (leading (trimReturns line)).length (following.map (· ++ ['\r']))
          (trim line) with
      | none =>
        rw [hr'] at hrel
        cases hrel
      | some x' =>
        rw [hr'] at hrel
        obtain ⟨s, n⟩ := x
        obtain ⟨s', n'⟩ := x'
        obtain ⟨rfl, hs⟩ : n' = n ∧ (s' = s ∨ 0 < n ∧ ∃ r r', s = .simple r ∧ s' = .simple r') := by
          cases hrel with
          | some h => exact h
        refine .known s s' n' ⟨rfl, hs.imp_right ?_⟩ hr hr'
        rintro ⟨hn, r, r', rfl, rfl⟩
        refine ⟨r, r', _, rfl, rfl, rfl, ?_⟩
        rw [Origin.isMultiline, bne_iff_ne]
        show index + n' ≠ index
        omega

section Format
variable {limit : Limit} {s s' t line : Text} {i : Nat}

def Node.leaf (p : Statement × Option Origin) : Node := .node p.1 p.2 [] [] none

theorem Node.rewrite?_leaf (n : Node) : (leaf n.shown).rewrite? limit = n.rewrite? limit := by
  cases n
  rfl

theorem Node.rewrite?_returned {p q : Statement × Option Origin} (h : Likeness.returned.Shown p q) :
    (leaf q).rewrite? limit = (leaf p).rewrite? limit := by
  obtain ⟨s, o⟩ := p
  obtain ⟨s', o'⟩ := q
  obtain ⟨rfl, rfl | ⟨r, r', o, rfl, rfl, rfl, hm⟩⟩ := h
  · rfl
  · have hnone (r : Simple) : (leaf (.simple r, some o)).rewrite? limit = none := by
      rw [rewrite?, replaceable?_simple rfl, leaf, origin, Option.filter_some, hm]
      simp
    rw [hnone r, hnone r']

theorem Document.rewrite?_perm (h : (Reading.ofText s).Like .returned (Reading.ofText s')) :
    ((Document.read s').walk.map (Node.rewrite? limit)).Perm
      ((Document.read s).walk.map (Node.rewrite? limit)) := by
  have hmap (ns : List Node) : ns.map (Node.rewrite? limit) =
      (ns.map Node.shown).map fun p => (Node.leaf p).rewrite? limit := by
    rw [List.map_map]
    exact List.map_congr_left fun n _ => n.rewrite?_leaf.symm
  have hsame : ((Reading.ofText s').outline.toList.map Entry.shown).map
      (fun p => (Node.leaf p).rewrite? limit) = ((Reading.ofText s).outline.toList.map Entry.shown).map
        fun p => (Node.leaf p).rewrite? limit := by
    rw [← List.forall₂_eq_eq_eq, List.forall₂_map_left_iff, List.forall₂_map_right_iff,
      List.forall₂_map_left_iff, List.forall₂_map_right_iff]
    exact (h.outline.forall₂ fun e e' he => Node.rewrite?_returned he.shown).flip
  rw [hmap, hmap]
  refine ((walk_shown s').map _).trans ?_
  rw [hsame]
  exact ((walk_shown s).map _).symm

theorem replaceLine_append_return (new : Text) (h : '\r' ∉ line) :
    replaceLine new (line ++ ['\r']) = replaceLine new line ++ ['\r'] := by
  have hline : line.getLast? ≠ some '\r' := fun hl => h (List.mem_of_mem_getLast? hl)
  rw [replaceLine, replaceLine, if_pos List.getLast?_concat, if_neg hline]

theorem lines_format_crlf (limit : Limit) (hr : '\r' ∉ s) (hend : s = [] ∨ s.getLast? = some '\n') :
    (format limit (crlf s)).lines = (format limit s).lines.map (· ++ ['\r']) := by
  have hlines := lines_crlf hend
  have hlike : (Reading.ofText s).Like .returned (Reading.ofText (crlf s)) :=
    Reading.like_ofText hlines fun line following _ => Likeness.preserves_return line following
  have hperm := @Document.rewrite?_perm limit _ _ hlike
  apply List.ext_getElem?
  intro i
  rw [List.getElem?_map]
  by_cases h : ∃ t, some (i, t) ∈ (Document.read s).walk.map (Node.rewrite? limit)
  · obtain ⟨t, ht⟩ := h
    obtain ⟨n, hn, hnt⟩ := List.mem_map.1 ht
    obtain ⟨m, hm, hmt⟩ := List.mem_map.1 (hperm.mem_iff.2 ht)
    rw [getElem?_format_of_rewrite? hn hnt, getElem?_format_of_rewrite? hm hmt, hlines, List.getElem?_map]
    cases hi : s.lines[i]? with
    | none => rfl
    | some line =>
      have hline : '\r' ∉ line := fun hm =>
        hr ((infix_of_mem_lines (List.mem_of_getElem? hi)).subset hm)
      simp only [Option.map_some, replaceLine_append_return _ hline]
  · rw [getElem?_format_of_keep fun n hn t ht => h ⟨t, ht ▸ List.mem_map_of_mem hn⟩,
      getElem?_format_of_keep fun m hm t ht => h ⟨t, hperm.mem_iff.1 (ht ▸ List.mem_map_of_mem hm)⟩, hlines,
      List.getElem?_map]

/-- Line endings are transparent: under settings with an integer print width, however they are given,
formatting a text with carriage returns at the ends of all lines gives the formatted text with carriage returns
at the ends of all lines. -/
theorem format_crlf {options : Options} {settings : Settings} {w : Int}
    (hoptions : options.coerce = .ok settings) (hw : settings.value "print_width".toList = .int w)
    (hr : '\r' ∉ s) (hend : s = [] ∨ s.getLast? = some '\n') :
    ∃ out, options.format s = .ok out ∧ options.format (crlf s) = .ok (crlf out) := by
  refine ⟨_, Options.format_of_coerce hoptions hw s, ?_⟩
  rw [Options.format_of_coerce hoptions hw, format_eq_ofLines (.ofInt w) (crlf s), lines_format_crlf _ hr hend,
    ← crlf_ofLines fun _ hl => newline_notMem_of_mem_lines hl, ← format_eq_ofLines]

theorem format_crlf_open_string :
    Options.coerce (.named ⟨[("printWidth".toList, .int 80)]⟩) =
      .ok ⟨[("print_width".toList, .int 80)]⟩ ∧
    Settings.value ⟨[("print_width".toList, .int 80)]⟩ "print_width".toList = .int 80 ∧
    '\r' ∉ "let x  = \x7b\n  a: \"b\\\n  \x7d\"\n\x7d\n.kick  1/4\n".toList ∧
    ("let x  = \x7b\n  a: \"b\\\n  \x7d\"\n\x7d\n.kick  1/4\n".toList = [] ∨
      "let x  = \x7b\n  a: \"b\\\n  \x7d\"\n\x7d\n.kick  1/4\n".toList.getLast? = some '\n') ∧
    ∃ out, Options.format (.named ⟨[("printWidth".toList, .int 80)]⟩)
        "let x  = \x7b\n  a: \"b\\\n  \x7d\"\n\x7d\n.kick  1/4\n".toList = .ok out ∧
      Options.format (.named ⟨[("printWidth".toList, .int 80)]⟩)
        (crlf "let x  = \x7b\n  a: \"b\\\n  \x7d\"\n\x7d\n.kick  1/4\n".toList) = .ok (crlf out) :=
  ⟨Options.coerce_printWidth _, rfl, by decide, by decide, format_crlf (Options.coerce_printWidth _) rfl (by decide) (by decide)⟩

end Format

end Devalang
