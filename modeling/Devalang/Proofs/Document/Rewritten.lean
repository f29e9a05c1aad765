import Devalang.Proofs.Document.Sheet
import Devalang.Proofs.Statement.Again

/-! The lines that formatting rewrites: their blanks stay, and what is read from them is read again. -/
namespace Devalang
open Text

theorem continuesChain_eq (line : Text) : continuesChain line = startsWith ['-', '>'] (trim line) := by
  obtain ⟨b, hb, he⟩ := exists_trimEnd (trimStart line)
  cases b with
  | nil =>
    rw [List.append_nil] at he
    rw [continuesChain, trim, ← he]
  | cons c b =>
    have hc := hb c (by simp)
    have hn : c ∉ ['-', '>'] := by
      intro hm
      simp only [List.mem_cons, List.not_mem_nil, or_false] at hm
      rcases hm with rfl | rfl
      · exact absurd hc (by decide)
      · exact absurd hc (by decide)
    rw [continuesChain, he, startsWith_append hn, trim]

/-- A simple statement of one line, and how it was read from the content of that line. -/
inductive Simple.ReadAlone (indent : Nat) (following : List Text) (content : Text) : Simple → Prop where
  | blank (empty : content = []) : ReadAlone indent following content .blank
  | unknown (nonempty : content ≠ []) (read : Statement.read? indent following content = none) :
    ReadAlone indent following content (.unknown content)
  | known (r : Simple) (nonempty : content ≠ [])
    (read : Statement.read? indent following content = some (.simple r, 0))
    (restated : r.Restated following content) : ReadAlone indent following content r

namespace Simple
variable {indent : Nat} {following : List Text} {content : Text} {r : Simple}

theorem ReadAlone.trimmed (h : r.ReadAlone indent following content) (ht : Trimmed content) :
    Trimmed r.write := by
  cases h with
  | blank empty => exact trimmed_nil
  | unknown nonempty read => exact ht
  | known _ nonempty read restated => exact restated.trimmed

theorem ReadAlone.write_eq_nil (h : r.ReadAlone indent following content) (hn : r.write = []) :
    content = [] := by
  cases h with
  | blank empty => exact empty
  | unknown nonempty read => exact hn
  | known _ nonempty read restated => exact absurd hn restated.nonempty

theorem ReadAlone.chain (h : r.ReadAlone indent following content) :
    startsWith ['-', '>'] r.write = startsWith ['-', '>'] content := by
  cases h with
  | blank empty => rw [empty]; rfl
  | unknown nonempty read => rfl
  | known _ nonempty read restated => exact restated.chain

theorem readAlone_of_readsAs (h : Statement.ReadsAs indent following content (.simple r) 0)
    (ht : Trimmed content) (hl : '\n' ∉ content) (hr : r.isChain = false) (hw : '\n' ∉ r.write) :
    r.ReadAlone indent following content := by
  cases h with
  | blank empty => exact .blank empty
  | known _ _ nonempty read => exact .known r nonempty read (restated_of_read ht hl read hr hw)
  | unknown nonempty read => exact .unknown nonempty read

end Simple

theorem Node.replaceable?_simple {n : Node} {r : Simple} (hs : n.statement = .simple r) :
    n.replaceable? = if r.isChain then none else n.origin.filter (!·.isMultiline) := by
  have hline : (match n.origin with
      | some o => if o.isMultiline then none else some o
      | none => none) = n.origin.filter (!·.isMultiline) := by
    cases n.origin with
    | none => rfl
    | some o => cases ho : o.isMultiline <;> simp [Option.filter, ho]
  rw [Node.replaceable?, hs, ← hline]
  cases r with
  | arrow t c cs =>
    cases cs with
    | nil => cases n.origin <;> rfl
    | cons d cs => rfl
  | _ => cases n.origin <;> rfl

theorem Node.isChain_of_replaceable? {n : Node} {o : Origin} {r : Simple}
    (h : n.replaceable? = some o) (hs : n.statement = .simple r) : r.isChain = false := by
  rw [Node.replaceable?_simple hs] at h
  exact Bool.eq_false_iff.2 (Option.ite_none_left_eq_some.1 h).1

theorem replaceLine_return {t line : Text} :
    ∃ r, (∀ c ∈ r, c = '\r') ∧ replaceLine t line = t ++ r := by
  rw [replaceLine_eq]
  refine ⟨_, ?_, rfl⟩
  split
  · simp
  · simp

/-- The statement `r` of a line, and the line `line'` that formatting puts in its place. -/
structure Rewritten (limit : Limit) (s : Text) (i : Nat) (line : Text) (following : List Text)
    (r : Simple) (line' : Text) : Prop where
  source : s.lines.drop i = line :: following
  target : (format limit s).lines[i]? = some line'
  eq : line' = replaceLine (leading (trimReturns line) ++ r.write) line
  blanks : leading (trimReturns line') = leading (trimReturns line)
  content : trim line' = r.write
  alone : r.ReadAlone (leading (trimReturns line)).length following (trim line)

namespace Document
variable {limit : Limit} {s : Text} {n : Node} {i : Nat} {t : Text}

theorem rewritten_of_rewrite? (hn : n ∈ (Document.read s).walk) (h : n.rewrite? limit = some (i, t)) :
    ∃ line following r line', n.statement = .simple r ∧ t = leading (trimReturns line) ++ r.write ∧
      Rewritten limit s i line following r line' := by
  obtain ⟨o, ho, hw, -, rfl, rfl⟩ := Node.rewrite?_eq_some_iff.1 h
  obtain ⟨horigin, hlast, r, hr⟩ := Node.origin_of_replaceable? ho
  obtain ⟨p, line, following, k, hp, hdrop, hlead, hreads, hspan⟩ := readsFrom hn
  obtain rfl : o = p := by simpa [horigin] using hp
  have hwr : n.write = r.write := by rw [Node.write, hr, Statement.write]
  rw [hr] at hreads hspan
  obtain rfl : k = 0 := by
    have := hspan rfl
    omega
  rw [hwr] at hw
  have hline : s.lines[o.line]? = some line := by rw [← List.head?_drop, hdrop, List.head?_cons]
  have hnl : '\n' ∉ trim line := fun hm =>
    Text.newline_notMem_of_mem_lines (List.mem_of_getElem? hline) (mem_of_mem_trim hm)
  have halone := Simple.readAlone_of_readsAs hreads (trimmed_trim line) hnl
    (Node.isChain_of_replaceable? ho hr) hw
  have htarget := getElem?_format_of_rewrite? hn h
  rw [hline, Option.map_some, hwr, hlead] at htarget
  rw [hlead] at halone
  refine ⟨line, following, r, _, hr, by rw [hwr, hlead], hdrop, htarget, rfl, ?_, ?_, halone⟩
  all_goals
    obtain ⟨ret, hret, he⟩ :=
      @replaceLine_return (leading (trimReturns line) ++ r.write) line
    rw [he]
  · exact (rebuilt_line (halone.trimmed (trimmed_trim line)) halone.write_eq_nil hret).1
  · exact (rebuilt_line (halone.trimmed (trimmed_trim line)) halone.write_eq_nil hret).2

theorem map_continuesChain (limit : Limit) (s : Text) :
    (format limit s).lines.map continuesChain = s.lines.map continuesChain := by
  apply List.ext_getElem?
  intro i
  rw [List.getElem?_map, List.getElem?_map]
  by_cases h : ∃ n ∈ (Document.read s).walk, ∃ t, n.rewrite? limit = some (i, t)
  · obtain ⟨n, hn, t, ht⟩ := h
    obtain ⟨line, following, r, line', -, -, hr⟩ := rewritten_of_rewrite? hn ht
    have hline : s.lines[i]? = some line := by rw [← List.head?_drop, hr.source, List.head?_cons]
    rw [hline, hr.target, Option.map_some, Option.map_some, continuesChain_eq, continuesChain_eq,
      hr.content, hr.alone.chain]
  · rw [getElem?_format_of_keep fun n hn t ht => h ⟨n, hn, t, ht⟩]

end Document

end Devalang
