import Devalang.Proofs.Outline.Comparison
import Devalang.Proofs.Reading.First
import Devalang.Proofs.Statement.Header
import Devalang.Proofs.Statement.Trigger
import Devalang.Proofs.Text.Indent

/-! Statements whose text is read as the statement itself. What is asked for at the start of a document
holds wherever their lines stand, at any indent. -/
namespace Devalang
open Text

def Statement.leaf (s : Statement) : Node := .node s none [] [] none

/-- In front of all lines that do not go on with a chain, the text is read as a statement that is equal to
this one and takes the lines of the text. It is neither a branch nor a closing brace, and goes on with no
chain itself. -/
structure Simple.SelfReading (s : Simple) : Prop where
  reads : ∀ following : Text,
    (∀ line, (splitOn '\n' following).head? = some line → continuesChain line = false) →
      ∃ n o, (Document.read (s.write ++ '\n' :: following)).nodes.head? = some n ∧
        n.Equal (Statement.simple s).leaf ∧ n.origin = some o ∧ o.line = 0 ∧
        o.last = s.write.count '\n'
  chain : startsWith ['-', '>'] s.write = false
  branch : startsWith "else".toList s.write = false
  brace : (splitOn '\n' s.write).head? ≠ some ['}']

/-- The text of a header is read as this header. That of an `else` always is. -/
def Header.SelfReading (h : Header) : Prop :=
  match h with
  | .elseIf _ => Header.readElseIf h.write = some h
  | .otherwise => True
  | _ => ∃ n, (Document.read (h.write ++ ['\n'])).nodes.head? = some n ∧ n.statement = .block h ∧
      n.body = []

/-! Headers. -/

namespace Header
variable {h : Header}

theorem SelfReading.single (hs : h.SelfReading) (hb : h.isBranch = false) :
    Statement.single? h.write = some (.block h) ∧ '\n' ∉ h.write := by
  obtain ⟨n, hn, hstatement⟩ : ∃ n, (Document.read (h.write ++ ['\n'])).nodes.head? = some n ∧
      n.statement = .block h := by
    cases h with
    | elseIf | otherwise => cases hb
    | _ =>
      obtain ⟨n, hn, hstatement, -⟩ := hs
      exact ⟨n, hn, hstatement⟩
  obtain ⟨first, rest, hrows⟩ := List.exists_cons_of_ne_nil (splitOn_ne_nil '\n' h.write)
  have hlines : (h.write ++ ['\n']).lines = first :: rest := by
    rw [lines_append, hrows]
    exact List.append_nil _
  obtain ⟨m, k, hm, hreads, -⟩ := Document.head_nodes hlines
  obtain rfl : m = n := Option.some.inj (hm.symm.trans hn)
  rw [hstatement] at hreads
  have hfirst : '\n' ∉ first := notMem_of_mem_splitOn (by rw [hrows]; simp)
  have hsingle : Statement.single? (trim first) = some (.block h) := by
    cases hreads with
    | branch _ hr =>
      rw [isBranch_of_readBranch hr] at hb
      cases hb
    | known _ _ _ hr =>
      rcases Statement.read?_eq_some_iff.1 hr with ⟨hr, -⟩ | ⟨-, r, -, hr⟩
      · exact hr
      · cases hr
  have hl : '\n' ∉ h.write :=
    Statement.newline_notMem_of_single (fun hm => hfirst (mem_of_mem_trim hm)) hsingle
  rw [splitOn_of_notMem hl] at hrows
  obtain ⟨rfl, -⟩ := List.cons.inj hrows
  rw [h.trimmed_write.trim_eq] at hsingle
  exact ⟨hsingle, hl⟩

theorem SelfReading.readBranch (hs : h.SelfReading) (hb : h.isBranch = true) :
    Header.readBranch h.write = some h ∧ '\n' ∉ h.write := by
  cases h with
  | elseIf c =>
    have hr : Header.readElseIf (elseIf c).write = some (elseIf c) := hs
    exact ⟨by rw [Header.readBranch, hr]; rfl, newline_notMem_of_readElseIf hr⟩
  | otherwise => exact ⟨by decide +kernel, by decide⟩
  | _ => cases hb

theorem SelfReading.of_single (hl : '\n' ∉ h.write) (hs : Statement.single? h.write = some (.block h))
    (hb : h.isBranch = false) : h.SelfReading := by
  have hlines : (h.write ++ ['\n']).lines = [h.write] := by
    rw [lines_append, splitOn_of_notMem hl]
    rfl
  obtain ⟨s, o, k, hnodes, hreads⟩ := Document.nodes_singleton hlines
  have hread : Statement.read? (leading (trimReturns h.write)).length [] h.write = some (.block h, 0) :=
    Statement.read?_eq_some_iff.2 (Or.inl ⟨hs, rfl⟩)
  rw [h.trimmed_write.trim_eq] at hreads
  have hbranch : Header.readBranch h.write = none :=
    Header.readBranch_eq_none (by rw [h.startsWith_else_write, hb])
  obtain ⟨rfl, -⟩ := hreads.eq_of_read h.write_ne_nil hbranch hread
  have hself : ∃ n, (Document.read (h.write ++ ['\n'])).nodes.head? = some n ∧ n.statement = .block h ∧
      n.body = [] := ⟨_, by rw [hnodes]; rfl, rfl, rfl⟩
  cases h with
  | elseIf | otherwise => cases hb
  | _ => exact hself

end Header

/-! Simple statements. -/

theorem Text.startsWith_of_isPrefix {k s t : Text} (hp : s <+: t) (h : startsWith k t = false) :
    startsWith k s = false := by
  rw [Bool.eq_false_iff] at h ⊢
  intro hs
  obtain ⟨u, hu⟩ := Option.isSome_iff_exists.1 hs
  obtain ⟨v, rfl⟩ := hp
  obtain rfl := after_eq_some_iff.1 hu
  exact h (Option.isSome_iff_exists.2 ⟨u ++ v, after_eq_some_iff.2 (by simp)⟩)

theorem Text.exists_join_cons (sep t : Text) (ts : List Text) : ∃ u, join sep (t :: ts) = t ++ u := by
  cases ts with
  | nil => exact ⟨[], by simp [join]⟩
  | cons v ts => exact ⟨sep ++ join sep (v :: ts), by simp [join]⟩

theorem Text.isPrefix_first {t first : Text} {rest : List Text} (h : splitOn '\n' t = first :: rest) :
    first <+: t := by
  obtain ⟨u, hu⟩ := exists_join_cons ['\n'] first rest
  rw [← h, join_splitOn] at hu
  exact ⟨u, hu.symm⟩

theorem Text.trimmed_of_mem_links {s t : Text} (h : t ∈ links s) : Trimmed t := by
  obtain ⟨u, -, rfl⟩ := List.mem_map.1 h
  exact trimmed_trim u

namespace Simple
variable {indent n : Nat} {following : List Text} {s : Text} {r r' : Simple}

theorem stops_write (ht : Trimmed s) (hl : '\n' ∉ s)
    (h : Statement.read? indent following s = some (.simple r, n)) (hc : r.compare r' = .equal)
    (hn : n = r'.write.count '\n') : Stops isBlank r'.write := by
  rcases Statement.read?_eq_some_iff.1 h with ⟨hs, rfl⟩ | ⟨-, _, hg, hr⟩
  · have hw : '\n' ∉ r'.write := List.count_eq_zero.1 hn.symm
    rcases eq_of_compare hc with rfl | ⟨_, _, _, _, rfl, -⟩
    · exact (Statement.startsAs_single (Statement.fixed_of_single ht hl hs hw).reads).word
    · cases (Statement.kind_of_single hs).2
  cases hr
  rcases Statement.going?_eq_some_iff.1 hg with hr | ⟨-, hr⟩ | ⟨-, -, hr⟩
  · obtain ⟨name, start, -, rfl, -⟩ := readLet_eq_some_iff.1 hr
    rcases eq_of_compare hc with rfl | ⟨_, _, _, _, hd, -⟩
    · exact stops_cons (by decide) _
    · cases hd
  · obtain ⟨name, start, hd, rfl, -⟩ := readTrigger_eq_some_iff.1 hr
    obtain ⟨t, -, rfl, -⟩ := triggering?_eq_some_iff.1 hd
    obtain ⟨d, as, rfl⟩ : ∃ d as, r' = trigger ('.' :: t) d as := by
      rcases eq_of_compare hc with rfl | ⟨_, _, _, _, he, rfl⟩
      · exact ⟨_, _, rfl⟩
      · cases he
        exact ⟨_, _, rfl⟩
    obtain ⟨u, hu⟩ : ∃ u, (trigger ('.' :: t) d as).write = '.' :: t ++ u := exists_join_cons _ _ _
    rw [hu]
    exact stops_cons (by decide) _
  · obtain ⟨-, -, target, first, more, call, calls, hlinks, hne, -, -, rfl⟩ := readArrow_eq_some_iff.1 hr
    obtain rfl : arrow target call calls = r' := by
      rcases eq_of_compare hc with rfl | ⟨_, _, _, _, hd, -⟩
      · rfl
      · cases hd
    obtain ⟨u, hu⟩ : ∃ u, (arrow target call calls).write = target ++ " -> ".toList ++ call.write ++ u :=
      exists_join_cons _ _ _
    rw [hu, List.append_assoc, List.append_assoc]
    exact Stops.append (trimmed_of_mem_links (by rw [hlinks]; simp)).head hne _

end Simple

/-- Lines that do not go on with a chain of the statement before them. -/
structure Fresh (lines : List Text) : Prop where
  newline : ∀ line ∈ lines, '\n' ∉ line
  chain : ∀ line, lines.head? = some line → continuesChain line = false

theorem Fresh.nil : Fresh [] := ⟨by simp, by simp⟩

theorem Fresh.dedent {lines : List Text} (h : Fresh lines) (d : Nat) : Fresh (lines.map (dedent d)) where
  newline := by
    intro line hline hm
    obtain ⟨l, hl, rfl⟩ := List.mem_map.1 hline
    exact h.newline l hl (List.mem_of_mem_drop hm)
  chain := by
    intro line hline
    rw [List.head?_map, Option.map_eq_some_iff] at hline
    obtain ⟨l, hl, rfl⟩ := hline
    rw [continuesChain_dedent, h.chain l hl]

theorem Fresh.ofLines {lines : List Text} (h : Fresh lines) :
    ∀ line, (splitOn '\n' (ofLines lines)).head? = some line → continuesChain line = false := by
  cases lines with
  | nil =>
    rintro _ ⟨⟩
    rfl
  | cons l ls =>
    intro line hline
    rw [Text.ofLines, if_neg (by simp), splitOn_append, splitOn_join (by simp) h.newline] at hline
    exact h.chain line hline

namespace Simple
variable {s : Simple} {first : Text} {rest : List Text}

structure ReadsBack (s : Simple) (first : Text) (rest : List Text) : Prop where
  rows : splitOn '\n' s.write = first :: rest
  word : Stops isBlank first
  nonempty : trim first ≠ []
  branch : startsWith "else".toList (trim first) = false
  brace : trim first ≠ ['}']
  chain : continuesChain first = false
  reads : ∀ d following, Fresh following → ∃ s', s'.compare s = .equal ∧
    Statement.ReadsAs d (rest.map (indentLine d) ++ following) (trim first) (.simple s') rest.length

theorem SelfReading.readsAs (h : s.SelfReading) (hrows : splitOn '\n' s.write = first :: rest)
    {following : List Text} (hf : Fresh following) : ∃ s', s'.compare s = .equal ∧
      Statement.ReadsAs (leading (trimReturns first)).length (rest ++ following) (trim first) (.simple s')
        rest.length := by
  obtain ⟨n, o, hn, hequal, ho, -, hlast⟩ := h.reads _ hf.ofLines
  have hlines := lines_append_ofLines s.write hf.newline
  rw [hrows] at hlines
  obtain ⟨m, k, hm, hreads, horigin⟩ := Document.head_nodes hlines
  obtain rfl : m = n := Option.some.inj (hm.symm.trans hn)
  obtain ⟨st, om, b, es, a⟩ := m
  have hst : st.compare (.simple s) = .equal := (Node.equal_iff.1 hequal).1
  cases st with
  | block b => cases hst
  | simple s' =>
    obtain ⟨p, hp, -, hk⟩ := horigin rfl
    obtain rfl : p = o := Option.some.inj ((congrArg Node.origin hp).symm.trans ho)
    have hlen := @length_splitOn '\n' s.write
    rw [hrows, List.length_cons] at hlen
    obtain rfl : k = rest.length := by omega
    exact ⟨s', hst, hreads⟩

theorem SelfReading.first_line (h : s.SelfReading) (hne : s ≠ .blank)
    (hrows : splitOn '\n' s.write = first :: rest) :
    Stops isBlank first ∧ trim first ≠ [] ∧ trim first ≠ ['}'] := by
  obtain ⟨s', hequal, hreads⟩ := h.readsAs hrows .nil
  have hline : '\n' ∉ first := notMem_of_mem_splitOn (by rw [hrows]; simp)
  have hcount : rest.length = s.write.count '\n' := by
    have hlen := @length_splitOn '\n' s.write
    rw [hrows, List.length_cons] at hlen
    omega
  obtain ⟨k, hk⟩ : ∃ k, k = rest.length := ⟨_, rfl⟩
  rw [← hk] at hreads hcount
  cases hreads with
  | blank _ =>
    rcases eq_of_compare hequal with rfl | ⟨_, _, _, _, hd, -⟩
    · exact absurd rfl hne
    · cases hd
  | unknown hfirst _ =>
    obtain rfl : Simple.unknown (trim first) = s := by
      rcases eq_of_compare hequal with rfl | ⟨_, _, _, _, hd, -⟩
      · rfl
      · cases hd
    have hwrite : (Simple.unknown (trim first)).write = trim first := rfl
    rw [hwrite, splitOn_of_notMem fun hm => hline (mem_of_mem_trim hm)] at hrows
    have htrim : trim first = first := (List.cons.inj hrows).1
    refine ⟨?_, hfirst, fun hb => h.brace ?_⟩
    · rw [← htrim]
      exact (trimmed_trim first).head
    · rw [hwrite, hb]
      rfl
  | known _ _ hfirst hr =>
    refine ⟨?_, hfirst, fun hb => ?_⟩
    · have hstops := stops_write (trimmed_trim first) (fun hm => hline (mem_of_mem_trim hm)) hr hequal hcount
      exact hstops.of_isPrefix (isPrefix_first hrows)
    · rw [hb, Statement.read?_brace] at hr
      cases hr

theorem SelfReading.readsBack (h : s.SelfReading) (hne : s ≠ .blank) :
    ∃ first rest, s.ReadsBack first rest := by
  obtain ⟨first, rest, hrows⟩ := List.exists_cons_of_ne_nil (splitOn_ne_nil '\n' s.write)
  obtain ⟨hword, hnonempty, hbrace⟩ := h.first_line hne hrows
  have hstart : trimStart first = first := trimStart_of_head hword
  have hwrite : first <+: s.write := isPrefix_first hrows
  have hcontent : trim first <+: first := by
    obtain ⟨b, -, hb⟩ := exists_trimEnd first
    rw [trim, hstart]
    exact ⟨b, hb.symm⟩
  have hleading : leading (trimReturns first) = [] :=
    (hword.of_isPrefix (trimReturns_isPrefix first)).takeWhile_eq_nil
  refine ⟨first, rest, hrows, hword, hnonempty, ?_, hbrace, ?_, fun d following hf => ?_⟩
  · exact startsWith_of_isPrefix (hcontent.trans hwrite) h.branch
  · rw [continuesChain, hstart]
    exact startsWith_of_isPrefix hwrite h.chain
  · obtain ⟨s', hequal, hreads⟩ := h.readsAs hrows (hf.dedent d)
    refine ⟨s', hequal, ?_⟩
    rw [hleading, List.length_nil] at hreads
    refine hreads.congr (Statement.read?_dedent ?_)
    have hindent : (rest.map (indentLine d)).map (dedent d) = rest.map (dedent 0) := by
      rw [List.map_map]
      exact List.map_congr_left fun l _ => (dedent_indentLine_self d l).trans (dedent_zero l).symm
    have hdedent : (following.map (dedent d)).map (dedent 0) = following.map (dedent d) := by
      rw [List.map_map]
      exact List.map_congr_left fun l _ => dedent_zero _
    rw [List.map_append, List.map_append, hindent, hdedent]

/-! Statements that are read from their own lines. -/

/-- The own lines of a statement are read as the statement, whatever lines follow that do not go on with a
chain. -/
theorem SelfReading.of_read (hrows : splitOn '\n' s.write = first :: rest) (ht : Trimmed first)
    (hne : first ≠ []) (hread : ∀ following : List Text,
      (∀ line, following.head? = some line → continuesChain line = false) →
        Statement.read? 0 (rest ++ following) first = some (.simple s, rest.length))
    (hchain : startsWith ['-', '>'] s.write = false) (hbranch : startsWith "else".toList s.write = false) :
    s.SelfReading where
  reads following hf := by
    have hlines : (s.write ++ '\n' :: following).lines = first :: (rest ++ following.lines) := by
      rw [lines_append, hrows, List.cons_append]
    have hr := hread following.lines fun line hline => hf line (head?_lines hline)
    obtain ⟨n, k, hn, hreads, horigin⟩ := Document.head_nodes hlines
    have hleading : leading (trimReturns first) = [] :=
      (Stops.of_isPrefix ht.head (trimReturns_isPrefix first)).takeWhile_eq_nil
    rw [hleading, List.length_nil, ht.trim_eq] at hreads
    have hstart : startsWith "else".toList first = false := startsWith_of_isPrefix (isPrefix_first hrows) hbranch
    obtain ⟨hs, hk⟩ := hreads.eq_of_read hne (Header.readBranch_eq_none hstart) hr
    obtain ⟨o, ho, hline, hlast⟩ := horigin (by rw [hs]; rfl)
    have hlen := @length_splitOn '\n' s.write
    rw [hrows, List.length_cons] at hlen
    refine ⟨n, o, hn, ?_, by rw [ho]; rfl, hline, by omega⟩
    rw [ho, hs]
    exact Node.equal_iff.2 ⟨Statement.compare_self _, .nil, .nil, .none⟩
  chain := hchain
  branch := hbranch
  brace := by
    rw [hrows]
    rintro ⟨⟩
    have hr := hread [] (by simp)
    rw [Statement.read?_brace] at hr
    cases hr

theorem SelfReading.of_single (ht : Trimmed s.write) (hl : '\n' ∉ s.write)
    (h : Statement.single? s.write = some (.simple s)) : s.SelfReading := by
  have hstarts := Statement.startsAs_single h
  refine of_read (splitOn_of_notMem hl) ht ?_ (fun following _ => ?_) hstarts.chain hstarts.branch
  · intro he
    rw [he] at h
    cases h
  · exact Statement.read?_eq_some_iff.2 (Or.inl ⟨h, rfl⟩)

end Simple

end Devalang
