import Devalang.Proofs.Document.Settings
import Devalang.Proofs.Document.Sheet

/-! Formatting changes only the lines of statements that take one line and fit. -/
namespace Devalang

/-- The text of the statement may take the place of line `i`: it is a simple statement of that line
and no chain of calls, its text is one line, and with the blanks in front of it that is not wider
than `width`. -/
def Node.Replaces (width : Int) (n : Node) (i : Nat) : Prop :=
  ∃ o, n.replaceable? = some o ∧ o.line = i ∧ '\n' ∉ n.write ∧
    ((o.leading.length + n.write.length : Nat) : Int) ≤ width

theorem Node.replaces_iff {width : Int} {n : Node} {i : Nat} :
    n.Replaces width i ↔ ∃ t, n.rewrite? (.ofInt width) = some (i, t) := by
  constructor
  · rintro ⟨o, ho, rfl, hw, hle⟩
    exact ⟨_, Node.rewrite?_eq_some_iff.2 ⟨o, ho, hw, by simpa [Limit.fits, Limit.ofInt] using hle,
      rfl, rfl⟩⟩
  · rintro ⟨t, ht⟩
    obtain ⟨o, ho, hw, hf, hi, -⟩ := Node.rewrite?_eq_some_iff.1 ht
    exact ⟨o, ho, hi, hw, by simpa [Limit.fits, Limit.ofInt] using hf⟩

/-- Formatting with an integer print width gives a text that is empty exactly if the source is and
else ends with a newline, and that has as many lines. A line that some statement may replace is
replaced by the text of that statement, which is the only one, with the blanks in front of it and the
carriage return after it kept; every other line stays as it is, such as the lines of headers, of
statements that go on over several lines, of chains of calls and of closing braces. -/
theorem format_replaces_only_statements (width : Int) (s : Text) :
    ∃ out, Settings.format ⟨[("print_width".toList, .int width)]⟩ s = .ok out ∧
      (out = [] ↔ s = []) ∧ (s ≠ [] → out.getLast? = some '\n') ∧
      out.lines.length = s.lines.length ∧
      (∀ i line, s.lines[i]? = some line →
        (∃ n ∈ (Document.read s).walk, n.Replaces width i ∧
          (∀ m ∈ (Document.read s).walk, m.Replaces width i → m = n) ∧
          ∃ o, n.origin = some o ∧ out.lines[i]? = some (o.leading ++ n.write ++
            if line.getLast? = some '\r' then ['\r'] else [])) ∨
        (∀ n ∈ (Document.read s).walk, ¬ n.Replaces width i) ∧ out.lines[i]? = some line) ∧
      ∀ n ∈ (Document.read s).walk, n.replaceable? = none →
        ∀ t ∈ n.stretches, ∀ i ∈ t, out.lines[i]? = s.lines[i]? := by
  refine ⟨format (.ofInt width) s, Settings.format_eq rfl s, format_eq_nil_iff, getLast?_format,
    length_lines_format _ s, ?_, ?_⟩
  · intro i line hline
    by_cases h : ∃ n ∈ (Document.read s).walk, n.Replaces width i
    · obtain ⟨n, hn, hr⟩ := h
      obtain ⟨t, ht⟩ := Node.replaces_iff.1 hr
      obtain ⟨o, ho, -, -, -, rfl⟩ := Node.rewrite?_eq_some_iff.1 ht
      refine Or.inl ⟨n, hn, hr, ?_, o, (Node.origin_of_replaceable? ho).1, ?_⟩
      · intro m hm hmr
        obtain ⟨u, hu⟩ := Node.replaces_iff.1 hmr
        exact Document.eq_of_mem_stretches hm hn (Document.line_mem_of_rewrite? hu)
          (Document.line_mem_of_rewrite? ht)
      · rw [getElem?_format_of_rewrite? hn ht, hline, Option.map_some, replaceLine_eq]
    · refine Or.inr ⟨fun n hn hr => h ⟨n, hn, hr⟩, ?_⟩
      rw [getElem?_format_of_keep fun n hn t ht => h ⟨n, hn, Node.replaces_iff.2 ⟨t, ht⟩⟩, hline]
  · intro n hn hkeep t ht i hi
    exact getElem?_format_of_replaceable? hn hkeep ⟨t, ht, hi⟩

end Devalang
