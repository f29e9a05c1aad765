import Devalang.Proofs.Document.Rewritten
import Devalang.Proofs.Reading.Alike
import Devalang.Proofs.Reading.Persistence

/-! Reading a formatted text again. Line by line it is read as its source was, as long as no line that
was unknown becomes the start of a chain of calls. -/
namespace Devalang
open Text

namespace Document
variable {limit : Limit} {s : Text} {e : Entry} {i : Nat}

/-- The lines that were unknown are so in front of the lines of the formatted text too. -/
def StaysUnknown (limit : Limit) (s : Text) : Prop :=
  ∀ n ∈ (Document.read s).walk, ∀ c o, n.statement = .simple (.unknown c) → n.origin = some o →
    Statement.read? o.leading.length ((format limit s).lines.drop (o.line + 1)) c = none

theorem read?_of_unknown {n : Node} {c : Text} {o : Origin} (hn : n ∈ (Document.read s).walk)
    (hs : n.statement = .simple (.unknown c)) (ho : n.origin = some o) :
    Statement.read? o.leading.length (s.lines.drop (o.line + 1)) c = none := by
  obtain ⟨p, line, following, k, hp, hdrop, -, hreads, -⟩ := readsFrom hn
  obtain rfl : o = p := by simpa [ho] using hp
  rw [← List.drop_drop, hdrop, List.drop_succ_cons, List.drop_zero]
  rw [hs] at hreads
  cases hreads with
  | known _ _ nonempty read => exact absurd read (Statement.read?_ne_unknown c)
  | unknown nonempty read => exact read

theorem exists_node (he : e ∈ (Reading.ofText s).outline.toList) :
    ∃ n ∈ (Document.read s).walk, n.statement = e.statement ∧ n.origin = e.origin := by
  have hm := (walk_shown s).symm.subset (List.mem_map_of_mem he)
  obtain ⟨n, hn, hs⟩ := List.mem_map.1 hm
  simp only [Node.shown, Entry.shown, Prod.mk.injEq] at hs
  exact ⟨n, hn, hs.1, hs.2⟩

theorem exists_entry {n : Node} (hn : n ∈ (Document.read s).walk) :
    ∃ e ∈ (Reading.ofText s).outline.toList, e.statement = n.statement ∧ e.origin = n.origin := by
  have hm := (walk_shown s).subset (List.mem_map_of_mem hn)
  obtain ⟨e, he, hs⟩ := List.mem_map.1 hm
  simp only [Node.shown, Entry.shown, Prod.mk.injEq] at hs
  exact ⟨e, he, hs.1, hs.2⟩

theorem getElem?_format_of_block (he : e ∈ (Reading.ofText s).outline.toList)
    (hb : e.statement.isBlock = true) (hi : ∃ t ∈ e.stretches, i ∈ t) :
    (format limit s).lines[i]? = s.lines[i]? := by
  obtain ⟨n, hn, hs, ho⟩ := exists_node he
  refine getElem?_format_of_replaceable? hn ?_ (by rw [Node.stretches, hs, ho]; exact hi)
  cases hst : e.statement with
  | simple x =>
    rw [hst] at hb
    cases hb
  | block b => rw [Node.replaceable?, hs, hst]

theorem getElem?_format_of_multiline {x : Simple} {o : Origin}
    (he : e ∈ (Reading.ofText s).outline.toList) (hx : e.statement = .simple x)
    (ho : e.origin = some o) (hl : o.line < i) (hi : i ≤ o.last) :
    (format limit s).lines[i]? = s.lines[i]? := by
  obtain ⟨n, hn, hs, hno⟩ := exists_node he
  rw [hx] at hs
  rw [ho] at hno
  refine getElem?_format_of_replaceable? hn ?_ ?_
  · have hm : o.isMultiline = true := by
      rw [Origin.isMultiline, bne_iff_ne]
      omega
    rw [Node.replaceable?, hs, hno]
    split
    · rfl
    · rename_i h
      cases h
      rw [if_pos hm]
    · rfl
  · refine ⟨List.range' o.line (o.last + 1 - o.line), ?_, ?_⟩
    · simp [Node.stretches, Statement.stretches, hs, hno]
    · rw [List.mem_range'_1]
      omega

end Document

namespace Reading
variable {limit : Limit} {s line line' : Text} {r r' : Reading} {index : Nat}
  {following following' : List Text}

theorem mem_of_keeps_push {e : Entry} (h : r.Keeps r') {o : Outline} (he : r.outline = o.push e) :
    ∃ e' ∈ r'.outline.toList, e.Keeps e' := by
  obtain ⟨e', he', hk⟩ := h o.size e (by rw [he, Array.getElem?_push_size])
  obtain ⟨hlt, rfl⟩ := Array.getElem?_eq_some_iff.1 he'
  exact ⟨_, Array.getElem_mem_toList hlt, hk⟩

theorem content_format (hl : s.lines.drop index = line :: following)
    (hl' : (format limit s).lines.drop index = line' :: following') :
    leading (trimReturns line') = leading (trimReturns line) ∧
      (trim line' = trim line ∨ ∃ x : Simple, trim line ≠ [] ∧
        Statement.read? (leading (trimReturns line)).length following (trim line) =
          some (.simple x, 0) ∧
        x.Restated following (trim line) ∧ trim line' = x.write) := by
  have hline : s.lines[index]? = some line := by rw [← List.head?_drop, hl, List.head?_cons]
  have hline' : (format limit s).lines[index]? = some line' := by
    rw [← List.head?_drop, hl', List.head?_cons]
  by_cases h : ∃ n ∈ (Document.read s).walk, ∃ t, n.rewrite? limit = some (index, t)
  · obtain ⟨n, hn, t, ht⟩ := h
    obtain ⟨line₀, following₀, x, line₁, -, -, hr⟩ := Document.rewritten_of_rewrite? hn ht
    obtain ⟨rfl, rfl⟩ : line = line₀ ∧ following = following₀ := by simpa [hl] using hr.source
    obtain rfl : line' = line₁ := by simpa [hline'] using hr.target
    refine ⟨hr.blanks, ?_⟩
    have ha := hr.alone
    rw [hr.content]
    cases ha with
    | blank empty =>
      rw [empty]
      exact Or.inl rfl
    | unknown nonempty read => exact Or.inl rfl
    | known _ nonempty read restated => exact Or.inr ⟨x, nonempty, read, restated, rfl⟩
  · rw [getElem?_format_of_keep fun n hn t ht => h ⟨n, hn, t, ht⟩, hline] at hline'
    cases hline'
    exact ⟨rfl, Or.inl rfl⟩

theorem map_following (hl : s.lines.drop index = line :: following)
    (hl' : (format limit s).lines.drop index = line' :: following') :
    following'.map continuesChain = following.map continuesChain := by
  have hd := congrArg (List.drop index) (Document.map_continuesChain limit s)
  rw [← List.map_drop, ← List.map_drop, hl, hl', List.map_cons, List.map_cons, List.cons.injEq] at hd
  exact hd.2

theorem following_eq {lines : List Text} (hl : lines.drop index = line :: following) :
    following = lines.drop (index + 1) := by
  rw [← List.drop_drop, hl, List.drop_succ_cons, List.drop_zero]

theorem take_following {e : Entry} {x : Simple} {n : Nat}
    (he : e ∈ (ofText s).outline.toList) (hx : e.statement = .simple x)
    (ho : e.origin = some ⟨index, index + n, leading (trimReturns line)⟩)
    (hl : s.lines.drop index = line :: following)
    (hl' : (format limit s).lines.drop index = line' :: following') :
    following'.take n = following.take n := by
  apply List.ext_getElem?
  intro k
  rw [List.getElem?_take, List.getElem?_take]
  split
  · rename_i hk
    rw [following_eq hl, following_eq hl', List.getElem?_drop, List.getElem?_drop]
    exact Document.getElem?_format_of_multiline he hx ho
      (show index < index + 1 + k by omega) (show index + 1 + k ≤ index + n by omega)
  · rfl

theorem exists_entry_of_statement
    (h : r.IsStatement index (leading (trimReturns line)).length
      (some ⟨index, index, leading (trimReturns line)⟩) (trim line))
    (hk : (r.readLine index line following).1.Keeps r') :
    (Statement.read? (leading (trimReturns line)).length following (trim line) = none ∧
      ∃ e ∈ r'.outline.toList, e.statement = .simple (.unknown (trim line)) ∧
        e.origin = some ⟨index, index, leading (trimReturns line)⟩) ∨
    (∃ b, Statement.read? (leading (trimReturns line)).length following (trim line) =
      some (.block b, 0)) ∨
    ∃ x n, Statement.read? (leading (trimReturns line)).length following (trim line) =
        some (.simple x, n) ∧
      ∃ e ∈ r'.outline.toList, e.statement = .simple x ∧
        e.origin = some ⟨index, index + n, leading (trimReturns line)⟩ := by
  obtain ⟨r₀, -, hread⟩ := @readLine_statement r index following line h
  rw [hread] at hk
  obtain ⟨owner, ⟨hnone, ho⟩ | ⟨st, n, hsome, ho⟩⟩ :=
    addStatement_outline r₀ index (leading (trimReturns line)) (trim line) following
  · obtain ⟨e, he, hke⟩ := mem_of_keeps_push hk ho
    refine Or.inl ⟨hnone, e, he, hke.statement, ?_⟩
    rw [hke.simple rfl]
  · cases st with
    | simple x =>
      obtain ⟨e, he, hke⟩ := mem_of_keeps_push hk ho
      refine Or.inr (Or.inr ⟨x, n, hsome, e, he, hke.statement, ?_⟩)
      rw [hke.simple rfl]
    | block b =>
      rcases Statement.read?_eq_some_iff.1 hsome with ⟨-, rfl⟩ | ⟨-, x, -, hx⟩
      · exact Or.inr (Or.inl ⟨b, hsome⟩)
      · cases hx

theorem readAlike_format (hu : Document.StaysUnknown limit s)
    (hl : s.lines.drop index = line :: following)
    (hl' : (format limit s).lines.drop index = line' :: following')
    (h : r.IsStatement index (leading (trimReturns line)).length
      (some ⟨index, index, leading (trimReturns line)⟩) (trim line))
    (hk : (r.readLine index line following).1.Keeps (ofText s)) :
    Statement.ReadAlike (leading (trimReturns line)).length following following' (trim line)
      (trim line') := by
  have hmap := map_following hl hl'
  obtain ⟨-, hc | ⟨x, -, hread, hx, hc⟩⟩ := content_format hl hl'
  · rw [hc]
    rcases exists_entry_of_statement h hk with
      ⟨hnone, e, he, hst, ho⟩ | ⟨b, hsome⟩ | ⟨x, n, hsome, e, he, hst, ho⟩
    · obtain ⟨m, hm, hms, hmo⟩ := Document.exists_node he
      have hstays := hu m hm _ _ (hms.trans hst) (hmo.trans ho)
      rw [← following_eq hl'] at hstays
      exact .unknown rfl hnone hstays
    · exact .known _ _ _ (.refl _) hsome (Statement.read?_take hmap hsome rfl)
    · exact .known _ _ _ (.refl _) hsome
        (Statement.read?_take hmap hsome (take_following he hst ho hl hl'))
  · rw [hc]
    obtain ⟨x', hxx, hreads⟩ := hx.reads
    exact .known _ _ _ (.simple x x' hxx) hread (hreads _ _ hmap)

theorem lineAlike_format (hu : Document.StaysUnknown limit s)
    (hl : s.lines.drop index = line :: following)
    (hl' : (format limit s).lines.drop index = line' :: following')
    (hk : (r.readLine index line following).1.Keeps (ofText s)) :
    r.LineAlike index (leading (trimReturns line)).length
      (some ⟨index, index, leading (trimReturns line)⟩) following following' (trim line)
      (trim line') := by
  obtain ⟨-, hcontent⟩ := content_format hl hl'
  by_cases hempty : trim line = []
  · rcases hcontent with hc | ⟨x, hne, -⟩
    · exact .blank hempty (hc.trans hempty)
    · exact absurd hempty hne
  by_cases hbrace : trim line = ['}']
  · rcases hcontent with hc | ⟨x, -, hread, -⟩
    · exact .brace hbrace hc
    · rw [hbrace, Statement.read?_brace] at hread
      cases hread
  by_cases hbranch : startsWith "else".toList (trim line) = true ∧
      (r.addBranch index (leading (trimReturns line)).length
        (some ⟨index, index, leading (trimReturns line)⟩) (trim line)).2 ≠ none
  · obtain ⟨b, owner, role, ho⟩ :=
      @readLine_branch r index following line hempty hbranch.1 hbranch.2
    obtain ⟨e, he, hke⟩ := mem_of_keeps_push hk ho
    have hb : e.statement.isBlock = true := by rw [hke.statement]; rfl
    have hi : ∃ t ∈ e.stretches, index ∈ t :=
      ⟨[index], hke.stretches _ (by simp [Entry.stretches, Statement.stretches, Origin.isMultiline]),
        by simp⟩
    have hsame := @Document.getElem?_format_of_block limit s e index he hb hi
    rw [← List.head?_drop, ← List.head?_drop, hl, hl', List.head?_cons, List.head?_cons] at hsame
    cases hsame
    exact .branch hempty hbranch.1 hbranch.2 rfl
  have hst : r.IsStatement index (leading (trimReturns line)).length
      (some ⟨index, index, leading (trimReturns line)⟩) (trim line) :=
    ⟨hempty, hbrace, fun he => Classical.byContradiction fun hn => hbranch ⟨he, hn⟩⟩
  have hreads := readAlike_format hu hl hl' hst hk
  rcases hcontent with hc | ⟨x, -, hread, hx, hc⟩
  · rw [hc] at hreads ⊢
    exact .statement hempty hempty hbrace hbrace rfl (fun he => ⟨hst.branch he, rfl⟩) rfl hreads
  · have hbrace' : trim line' ≠ ['}'] := by
      obtain ⟨x', -, hx'⟩ := hx.reads
      intro hb
      have hr := hx' 0 following rfl
      rw [← hc, hb, Statement.read?_brace] at hr
      cases hr
    rw [hc] at hreads hbrace' ⊢
    exact .statement hempty hx.nonempty hbrace hbrace' hx.alternative
      (fun he => ⟨hst.branch he, by rw [hx.branch.1, hx.branch.2]⟩) hx.header hreads

theorem alike_readLines (hu : Document.StaysUnknown limit s) {skip : Nat} {lines lines' : List Text}
    (hs : r.Sound (index + skip)) (h : r.Alike r') (hl : s.lines.drop index = lines)
    (hl' : (format limit s).lines.drop index = lines')
    (hend : r.readLines skip index lines = ofText s) :
    (ofText s).Alike (r'.readLines skip index lines') := by
  induction lines generalizing r r' skip index lines' with
  | nil =>
    have hlen : (format limit s).lines.length ≤ index := by
      rw [length_lines_format]
      exact List.drop_eq_nil_iff.1 hl
    rw [List.drop_eq_nil_of_le hlen] at hl'
    subst hl'
    rw [← hend]
    exact h
  | cons line lines ih =>
    cases lines' with
    | nil =>
      have hlen := List.drop_eq_nil_iff.1 hl'
      rw [length_lines_format] at hlen
      rw [List.drop_eq_nil_of_le hlen] at hl
      cases hl
    | cons line' lines' =>
      have hnext := (following_eq hl).symm
      have hnext' := (following_eq hl').symm
      cases skip with
      | zero =>
        have heffect := readLine_effect r index line lines
        have hstep := Sound.step (by simpa using hs) heffect
        rw [Nat.add_right_comm] at hstep
        have hkeeps := @Sound.keeps_readLines _ _ _ lines hstep
        rw [Reading.readLines] at hend
        rw [hend] at hkeeps
        have hline := h.readLine (content_format hl hl').1 (lineAlike_format hu hl hl' hkeeps)
        rw [Reading.readLines, hline.2]
        exact ih hstep hline.1 hnext hnext' hend
      | succ skip =>
        have he : index + (skip + 1) = index + 1 + skip := by omega
        rw [he] at hs
        rw [Reading.readLines] at hend ⊢
        exact ih hs h hnext hnext' hend

/-- A formatted text is read as its source, as long as no line that was unknown becomes the start of a
chain of calls. -/
theorem alike_format (hu : Document.StaysUnknown limit s) : (ofText s).Alike (ofText (format limit s)) :=
  @alike_readLines limit s start start 0 hu 0 _ _ Sound.start Alike.start rfl rfl rfl

end Reading

end Devalang
