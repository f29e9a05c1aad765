import Devalang.Proofs.Token.Shape

/-! The parts of a text, put together again with separators between them, are the parts of the text that
they make up. -/
namespace Devalang.Text
open Nesting
variable {s t u : Text}

theorem links_blank_append (hb : Blank u) (s : Text) : links (u ++ s) = links s := by
  have hu : ∀ c ∈ u, c ≠ '-' := by
    rintro c hc rfl
    exact absurd (hb _ hc) (by decide)
  rcases arrowless_or_cut [] s with h | ⟨t, r, rfl, ht, hr⟩
  · have hus : Arrowless [] (u ++ s) := arrowless_append_of_forall hu (by rwa [run_blank hb])
    rw [links_arrowless hus, links_arrowless h, trim_blank_append hb]
  · have hut : Arrowless [] (u ++ t) := arrowless_append_of_forall hu (by rwa [run_blank hb])
    have hrun : run [] (u ++ t) = [] := by rw [run_append, run_blank hb, hr]
    rw [← List.append_assoc, links_append hut hrun, links_append ht hr, trim_blank_append hb]

@[elab_as_elim]
theorem link_induction {motive : Text → Prop} (last : ∀ t, Arrowless [] t → motive t)
    (link : ∀ t s, Arrowless [] t → run [] t = [] → motive s → motive (t ++ '-' :: '>' :: s))
    (s : Text) : motive s := by
  induction hn : s.length using Nat.strongRecOn generalizing s with
  | ind n ih =>
    rcases arrowless_or_cut [] s with h | ⟨t, r, rfl, ht, hr⟩
    · exact last s h
    · refine link t r ht hr (ih r.length ?_ r rfl)
      rw [← hn, List.length_append, List.length_cons, List.length_cons]
      omega

/-- The links of a chain with arrows between them are the links of the chain that they make up. -/
theorem links_join_links (s : Text) : links (join " -> ".toList (links s)) = links s := by
  induction s using link_induction with
  | last t ht =>
    rw [links_arrowless ht, join, links_arrowless (ht.trim (Or.inl rfl)), trim_trim]
  | link t s ht hr ih =>
    rw [links_append ht hr]
    cases hs : links s with
    | nil => exact absurd hs (links_ne_nil s)
    | cons v vs =>
      rw [hs] at ih
      have hsplit : join " -> ".toList (trim t :: v :: vs) =
          (trim t ++ [' ']) ++ '-' :: '>' :: ([' '] ++ join " -> ".toList (v :: vs)) := by
        simp [join]
      have hspace : Arrowless [] (trim t ++ [' ']) :=
        (ht.trim (Or.inl rfl)).append ⟨fun _ hc => absurd hc (by decide), trivial⟩ (by simp)
      have hclosed : run [] (trim t ++ [' ']) = [] := by
        rw [run_append, run_trim_eq_nil hr, run_blank blank_space]
      rw [hsplit, links_append hspace hclosed, trim_append_blank _ blank_space, trim_trim,
        links_blank_append blank_space, ih]

/-- Splitting a text and joining its parts gives a text that is split into the same parts, also if it
ends inside of a string or group. -/
theorem split_join_split (s : Text) :
    items (join [',', ' '] (items s)) = items s ∧
      arguments (join [',', ' '] (arguments s)) = arguments s ∧
      arguments (join [' '] (arguments s)) = arguments s ∧
      links (join " -> ".toList (links s)) = links s := by
  have hcomma : PieceKind.separates (· == .comma) ',' = true := by rw [separates_comma]; rfl
  have harguments (c : Char) (u : Text)
      (hc : PieceKind.separates (fun k => k == .space || k == .comma) c = true) (hu : Blank u) :
      arguments (join (c :: u) (arguments s)) = arguments s :=
    (tidy_separatedBy rfl rfl s).separatedBy_join rfl rfl hc hu
  exact ⟨(tidy_separatedBy rfl rfl s).separatedBy_join rfl rfl hcomma blank_space,
    harguments ',' [' '] (by decide) blank_space, harguments ' ' [] (by decide) (by simp [Blank]),
    links_join_links s⟩

example : items "a ,, (b , ".toList = ["a".toList, "(b ,".toList] := by decide +kernel

end Devalang.Text
