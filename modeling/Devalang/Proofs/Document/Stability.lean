import Devalang.Proofs.Document.Arrowless
import Devalang.Proofs.Document.Reconciliation

/-! Formatting a formatted text. A line that was replaced stays as it is then; a line that was kept
may change only if some line that was unknown has become an arrow call. -/
namespace Devalang
open Text

theorem replaceLine_replaceLine {new old : Text} (h : ∀ c, new.getLast? = some c → c ≠ '\r') :
    replaceLine new (replaceLine new old) = replaceLine new old := by
  by_cases hold : old.getLast? = some '\r'
  · have he : replaceLine new old = new ++ ['\r'] := if_pos hold
    rw [he, replaceLine, if_pos List.getLast?_concat]
  · have he : replaceLine new old = new := if_neg hold
    rw [he, replaceLine, if_neg fun hn => h _ hn rfl]

namespace Rewritten
variable {limit : Limit} {s line line' : Text} {i indent : Nat} {following other : List Text}
  {r r' : Simple}

theorem replaceLine_eq (h : Rewritten limit s i line following r line') :
    replaceLine (leading (trimReturns line) ++ r.write) line' = line' := by
  rw [h.eq]
  exact replaceLine_replaceLine fun _ =>
    last_rebuilt (h.alone.trimmed (trimmed_trim line)) h.alone.write_eq_nil

theorem write_eq (h : Rewritten limit s i line following r line')
    (h' : r'.ReadAlone indent other (trim line'))
    (hmap : other.map continuesChain = following.map continuesChain) : r'.write = r.write := by
  have ha := h.alone
  rw [h.content] at h'
  cases ha with
  | blank empty =>
    cases h' with
    | blank _ => rfl
    | unknown nonempty _ => exact absurd rfl nonempty
    | known _ nonempty _ _ => exact absurd rfl nonempty
  | unknown nonempty read =>
    cases h' with
    | blank empty => exact absurd empty nonempty
    | unknown _ _ => rfl
    | known _ _ read' _ => exact absurd read' (Statement.read?_none_alone read hmap)
  | known _ nonempty read restated =>
    obtain ⟨q, hq, hreads⟩ := restated.reads
    have hread := hreads indent other hmap
    cases h' with
    | blank empty => exact absurd empty restated.nonempty
    | unknown _ read' =>
      rw [hread] at read'
      cases read'
    | known _ _ read' _ =>
      rw [hread] at read'
      cases read'
      exact hq.write

end Rewritten

section Again
variable {limit : Limit} {s t t' : Text} {m n : Node} {i : Nat}

theorem rewrite?_format (hn : n ∈ (Document.read s).walk) (h : n.rewrite? limit = some (i, t))
    (hm : m ∈ (Document.read (format limit s)).walk) (h' : m.rewrite? limit = some (i, t')) :
    t' = t := by
  obtain ⟨line, following, r, line', -, rfl, hr⟩ := Document.rewritten_of_rewrite? hn h
  obtain ⟨line₁, following', r', line₂, -, rfl, hr'⟩ := Document.rewritten_of_rewrite? hm h'
  obtain rfl : line' = line₁ := by
    have htarget := hr.target
    rw [← List.head?_drop, hr'.source, List.head?_cons] at htarget
    cases htarget
    rfl
  rw [hr.blanks, hr.write_eq hr'.alone (Reading.map_following hr.source hr'.source)]

/-- Formatting again keeps the lines that were replaced. -/
theorem getElem?_format_format (hn : n ∈ (Document.read s).walk)
    (h : n.rewrite? limit = some (i, t)) :
    (format limit (format limit s)).lines[i]? = (format limit s).lines[i]? := by
  by_cases hm : ∃ m ∈ (Document.read (format limit s)).walk, ∃ t', m.rewrite? limit = some (i, t')
  · obtain ⟨m, hm, t', h'⟩ := hm
    obtain rfl := rewrite?_format hn h hm h'
    obtain ⟨line, following, r, line', -, rfl, hr⟩ := Document.rewritten_of_rewrite? hn h
    rw [getElem?_format_of_rewrite? hm h', hr.target, Option.map_some, hr.replaceLine_eq]
  · exact getElem?_format_of_keep fun m hw t' h' => hm ⟨m, hw, t', h'⟩

theorem format_eq_iff_lines : format limit (format limit s) = format limit s ↔
    (format limit (format limit s)).lines = (format limit s).lines := by
  constructor
  · intro h
    rw [h]
  · intro h
    rw [format_eq_ofLines limit (format limit s), h, ← format_eq_ofLines]

theorem Node.rewrite?_alike (hs : n.statement.Alike m.statement) (ho : m.origin = n.origin) :
    m.rewrite? limit = n.rewrite? limit := by
  generalize hn : n.statement = st at hs
  generalize hm : m.statement = st' at hs
  cases hs with
  | block b =>
    have hnone {k : Node} (hk : k.statement = .block b) : k.rewrite? limit = none := by
      rw [Node.rewrite?, Node.replaceable?, hk]
      rfl
    rw [hnone hm, hnone hn]
  | simple r r' alike =>
    have hwrite : m.write = n.write := by
      rw [Node.write, Node.write, hm, hn]
      exact alike.write
    rw [Node.rewrite?, Node.rewrite?, Node.replaceable?_simple hm, Node.replaceable?_simple hn,
      alike.chain, ho, hwrite]

/-- While unknown lines stay so, formatting again changes nothing. -/
theorem format_format (hu : Document.StaysUnknown limit s) :
    format limit (format limit s) = format limit s := by
  rw [format_eq_iff_lines]
  apply List.ext_getElem?
  intro i
  by_cases hm : ∃ m ∈ (Document.read (format limit s)).walk, ∃ t, m.rewrite? limit = some (i, t)
  · obtain ⟨m, hm, t, ht⟩ := hm
    obtain ⟨e', he', hs', ho'⟩ := Document.exists_entry hm
    obtain ⟨k, hk⟩ := List.mem_iff_getElem?.1 he'
    rw [Array.getElem?_toList] at hk
    rcases (Reading.alike_format hu).outline.cases k with ⟨-, hnone⟩ | ⟨e, f, he, hf, ha⟩
    · rw [hk] at hnone
      cases hnone
    · obtain rfl : f = e' := by simpa [hk] using hf.symm
      obtain ⟨n, hn, hs, ho⟩ := Document.exists_node (Array.mem_toList_iff.2 (Array.mem_of_getElem? he))
      refine getElem?_format_format hn (t := t) ?_
      rw [← ht]
      refine (Node.rewrite?_alike ?_ ?_).symm
      · rw [hs, ← hs']
        exact ha.statement
      · rw [ho, ← ho', ha.origin]
  · exact getElem?_format_of_keep fun m hw t ht => hm ⟨m, hw, t, ht⟩

theorem format_format_of_hasArrow (ha : hasArrow s = false) (limit : Limit) :
    format limit (format limit s) = format limit s :=
  format_format (Document.staysUnknown_of_hasArrow ha limit)

end Again

/-- Line `i` of the text is the one that formatting puts in its place for the statement. -/
def Node.Written (n : Node) (s : Text) (i : Nat) : Prop :=
  ∃ o line, n.origin = some o ∧ s.lines[i]? = some line ∧ replaceLine (o.leading ++ n.write) line = line

/-- Under settings with an integer print width, however they are given, formatting a formatted text again gives
the same text exactly if every statement that could then replace a line which no statement could replace before
stands there written as it would be. That fails only for a text with an unknown line which, in front
of the lines of the formatted text, is read as an arrow call that takes some of them. -/
theorem format_format_eq_iff {options : Options} {settings : Settings} {w : Int}
    (hoptions : options.coerce = .ok settings) (hw : settings.value "print_width".toList = .int w) (s : Text) :
    ∃ out again, options.format s = .ok out ∧ options.format out = .ok again ∧
      (again = out ↔ ∀ m ∈ (Document.read out).walk, ∀ i, m.Replaces w i →
        (∀ n ∈ (Document.read s).walk, ¬ n.Replaces w i) → m.Written out i) ∧
      (again ≠ out → ∃ n ∈ (Document.read s).walk, ∃ c o r k,
        n.statement = .simple (.unknown c) ∧ n.origin = some o ∧ 0 < k ∧
        Simple.readArrow o.leading.length (out.lines.drop (o.line + 1)) c = some (r, k)) := by
  refine ⟨_, _, Options.format_of_coerce hoptions hw s, Options.format_of_coerce hoptions hw _, ?_, ?_⟩
  · rw [format_eq_iff_lines]
    constructor
    · intro hlines m hm i hr _
      obtain ⟨t, ht⟩ := Node.replaces_iff.1 hr
      obtain ⟨o, ho, -, -, rfl, rfl⟩ := Node.rewrite?_eq_some_iff.1 ht
      have horigin := (Node.origin_of_replaceable? ho).1
      obtain ⟨line, hline, -⟩ := Document.getElem?_line hm horigin
      have hagain := getElem?_format_of_rewrite? hm ht
      rw [hlines, hline, Option.map_some, Option.some.injEq] at hagain
      exact ⟨o, line, horigin, hline, hagain.symm⟩
    · intro hwritten
      apply List.ext_getElem?
      intro i
      by_cases hn : ∃ n ∈ (Document.read s).walk, n.Replaces w i
      · obtain ⟨n, hn, hr⟩ := hn
        obtain ⟨t, ht⟩ := Node.replaces_iff.1 hr
        exact getElem?_format_format hn ht
      by_cases hm : ∃ m ∈ (Document.read (format (.ofInt w) s)).walk, m.Replaces w i
      · obtain ⟨m, hm, hr⟩ := hm
        obtain ⟨o, line, ho, hline, hsame⟩ := hwritten m hm i hr fun n hw hr => hn ⟨n, hw, hr⟩
        obtain ⟨t, ht⟩ := Node.replaces_iff.1 hr
        obtain ⟨p, hp, -, -, -, rfl⟩ := Node.rewrite?_eq_some_iff.1 ht
        obtain rfl : o = p := by simpa [ho] using (Node.origin_of_replaceable? hp).1
        rw [getElem?_format_of_rewrite? hm ht, hline, Option.map_some, hsame]
      · exact getElem?_format_of_keep fun m hw t ht => hm ⟨m, hw, Node.replaces_iff.2 ⟨t, ht⟩⟩
  · intro hne
    have hu : ¬ Document.StaysUnknown (.ofInt w) s := fun hu => hne (format_format hu)
    simp only [Document.StaysUnknown, not_forall] at hu
    obtain ⟨n, hn, c, o, hs, ho, hread⟩ := hu
    obtain ⟨⟨st, k⟩, hst⟩ := Option.ne_none_iff_exists'.1 hread
    have hnone := Document.read?_of_unknown hn hs ho
    have hmap := congrArg (List.drop (o.line + 1)) (Document.map_continuesChain (.ofInt w) s)
    rw [← List.map_drop, ← List.map_drop] at hmap
    obtain ⟨r, -, hr⟩ := Statement.readArrow_of_unknown hnone hst
    refine ⟨n, hn, c, o, r, k, hs, ho, Nat.pos_of_ne_zero ?_, hr⟩
    rintro rfl
    exact Statement.read?_none_alone hnone hmap hst

theorem format_format_eq_iff_kick :
    Options.coerce (.named ⟨[("printWidth".toList, .int 80)]⟩) =
      .ok ⟨[("print_width".toList, .int 80)]⟩ ∧
    Settings.value ⟨[("print_width".toList, .int 80)]⟩ "print_width".toList = .int 80 ∧
    ∃ out again,
      Options.format (.named ⟨[("printWidth".toList, .int 80)]⟩) ".kick  1/4\n".toList = .ok out ∧
      Options.format (.named ⟨[("printWidth".toList, .int 80)]⟩) out = .ok again ∧
      (again = out ↔ ∀ m ∈ (Document.read out).walk, ∀ i, m.Replaces 80 i →
        (∀ n ∈ (Document.read ".kick  1/4\n".toList).walk, ¬ n.Replaces 80 i) → m.Written out i) ∧
      (again ≠ out → ∃ n ∈ (Document.read ".kick  1/4\n".toList).walk, ∃ c o r k,
        n.statement = .simple (.unknown c) ∧ n.origin = some o ∧ 0 < k ∧
        Simple.readArrow o.leading.length (out.lines.drop (o.line + 1)) c = some (r, k)) :=
  ⟨Options.coerce_printWidth _, rfl, format_format_eq_iff (Options.coerce_printWidth _) rfl _⟩

/-- The first line is unknown, as the parenthesis is never closed. In the formatted text the third line
closes it, so that the `if` is lost in the arguments of a call, and the `else` without an `if` is an
unknown line that may be replaced. -/
theorem format_format_unclosed_call :
    Settings.format ⟨[("print_width".toList, .int 80)]⟩
        "a -> b(\nif x:\n.kick ) 1/4\nelse:  \n".toList =
      .ok "a -> b(\nif x:\n.kick 1/4 )\nelse:  \n".toList ∧
    Settings.format ⟨[("print_width".toList, .int 80)]⟩
        "a -> b(\nif x:\n.kick 1/4 )\nelse:  \n".toList =
      .ok "a -> b(\nif x:\n.kick 1/4 )\nelse:\n".toList ∧
    "a -> b(\nif x:\n.kick 1/4 )\nelse:\n".toList ≠
      "a -> b(\nif x:\n.kick 1/4 )\nelse:  \n".toList := by
  refine ⟨?_, ?_, by decide⟩
  · rw [Settings.format_eq rfl]
    exact congrArg _ (by decide +kernel)
  · rw [Settings.format_eq rfl]
    exact congrArg _ (by decide +kernel)

end Devalang
