import Devalang.Proofs.Document.Comparison
import Devalang.Proofs.Document.Reread
import Devalang.Proofs.Document.Settings

/-! Texts without arrows: formatting such a text keeps all of its statements. -/
namespace Devalang
open Text

variable {s : Text}

theorem Statement.ReadsFrom.of_hasArrow {st : Statement} {origin : Option Origin}
    (h : st.ReadsFrom s.lines origin) (ha : hasArrow s = false) :
    (∃ c p, st = .simple (.unknown c) ∧ origin = some p ∧
      ∀ following, Statement.read? p.leading.length following c = none) ∨
      ∀ r, st = .simple r → r.isOrdinary = true := by
  obtain ⟨p, line, following, n, hp, hdrop, -, hreads, -⟩ := h
  have hline : line ∈ s.lines := by
    refine List.mem_of_getElem? (i := p.line) ?_
    rw [← List.head?_drop, hdrop, List.head?_cons]
  have hcontent : hasArrow (trim line) = false :=
    hasArrow_of_infix ((infix_trim line).trans (infix_of_mem_lines hline)) ha
  cases hreads with
  | blank empty =>
    refine Or.inr fun r hr => ?_
    cases hr
    rfl
  | branch b branch =>
    refine Or.inr fun r hr => ?_
    cases hr
  | known _ _ nonempty read =>
    refine Or.inr fun r hr => ?_
    rw [hr] at read
    exact Statement.isOrdinary_of_hasArrow read hcontent
  | unknown nonempty read =>
    exact Or.inl ⟨_, p, rfl, hp, fun _ => Statement.read?_none_of_hasArrow read hcontent⟩

namespace Document

theorem staysUnknown_of_hasArrow (ha : hasArrow s = false) (limit : Limit) :
    StaysUnknown limit s := by
  intro n hn c o hs ho
  rcases (readsFrom hn).of_hasArrow ha with ⟨c', p, hc, hp, hread⟩ | hr
  · rw [hs] at hc
    rw [ho] at hp
    cases hc
    cases hp
    exact hread _
  · have hc := hr _ hs
    cases hc

theorem outline_format_of_hasArrow (ha : hasArrow s = false) (limit : Limit) :
    (Reading.ofText (format limit s)).outline = (Reading.ofText s).outline := by
  have h := (Reading.alike_format (staysUnknown_of_hasArrow ha limit)).outline
  refine Array.ext h.size fun k hk' hk => ?_
  have he := Array.getElem?_eq_getElem hk
  have hentry := h.entry k _ _ he (Array.getElem?_eq_getElem hk')
  have hfrom := Reading.faithful_ofText s _ (Array.getElem_mem_toList hk)
  generalize (Reading.ofText s).outline[k] = e at hentry hfrom
  generalize (Reading.ofText (format limit s)).outline[k] = e' at hentry
  have hst : e'.statement = e.statement := by
    have halike := hentry.statement
    generalize e.statement = st at halike hfrom
    generalize e'.statement = st' at halike
    cases halike with
    | block b => rfl
    | simple r r' alike =>
      rcases alike.same with rfl | ⟨t, c, rfl⟩
      · rfl
      · rcases hfrom.of_hasArrow ha with ⟨u, p, hu, -⟩ | hr
        · cases hu
        · have hc := hr _ rfl
          cases hc
  cases e
  cases e'
  simp only [Entry.mk.injEq]
  exact ⟨hst, hentry.origin, hentry.owner, hentry.role⟩

/-- Formatting keeps the meaning of a text without arrows: under settings with an integer print width, however
they are given, the formatted text is read as a document that is equal to the one read from the source. -/
theorem compare_format_of_hasArrow {options : Options} {settings : Settings} {w : Int}
    (hoptions : options.coerce = .ok settings) (hw : settings.value "print_width".toList = .int w) (s : Text)
    (ha : hasArrow s = false) :
    ∃ out, options.format s = .ok out ∧
      (Document.read out).compare (Document.read s) = .equal := by
  refine ⟨_, Options.format_of_coerce hoptions hw s, compare_of_nodes ?_⟩
  rw [Document.read, Document.read, outline_format_of_hasArrow ha]

theorem compare_format_if :
    Options.coerce (.named ⟨[("printWidth".toList, .int 80)]⟩) =
      .ok ⟨[("print_width".toList, .int 80)]⟩ ∧
    Settings.value ⟨[("print_width".toList, .int 80)]⟩ "print_width".toList = .int 80 ∧
    hasArrow "if x:\n  .kick  1/4\nelse:\n".toList = false ∧
    ∃ out, Options.format (.named ⟨[("printWidth".toList, .int 80)]⟩)
        "if x:\n  .kick  1/4\nelse:\n".toList = .ok out ∧
      (Document.read out).compare (Document.read "if x:\n  .kick  1/4\nelse:\n".toList) = .equal :=
  ⟨Options.coerce_printWidth _, rfl, by decide, compare_format_of_hasArrow (Options.coerce_printWidth _) rfl _ (by decide)⟩

end Document

end Devalang
