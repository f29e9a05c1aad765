import Devalang.Text.Cut
import Devalang.Proofs.Text.Trim

/-! When a word, a number or blanks can be cut off the start of a text, and what is left. -/
namespace Devalang.Text

variable {p : Char → Bool} {a b s t u : Text} {c : Char}

theorem notBlank_iff : notBlank c = true ↔ isBlank c = false := by simp [notBlank]

/-- The text starts with a character that `p` does not hold of, or is empty. -/
def Stops (p : Char → Bool) (s : Text) : Prop := ∀ c, s.head? = some c → p c = false

theorem stops_nil (p : Char → Bool) : Stops p [] := by simp [Stops]

theorem stops_cons (h : p c = false) (s : Text) : Stops p (c :: s) := by
  rintro d ⟨⟩
  exact h

theorem Stops.of_isPrefix (h : Stops p t) (hs : s <+: t) : Stops p s := by
  obtain ⟨u, rfl⟩ := hs
  intro c hc
  exact h c (by rw [List.head?_append, hc]; rfl)

theorem Stops.append (h : Stops p s) (hne : s ≠ []) (t : Text) : Stops p (s ++ t) := by
  cases s with
  | nil => exact absurd rfl hne
  | cons c s => exact stops_cons (h c rfl) _

theorem Stops.takeWhile_eq_nil (h : Stops p s) : s.takeWhile p = [] := by
  cases s with
  | nil => rfl
  | cons c s => simp [h c rfl]

theorem stops_dropWhile (p : Char → Bool) (s : Text) : Stops p (s.dropWhile p) := by
  intro c hc
  have h := List.head?_dropWhile_not p s
  rw [hc] at h
  simpa using h

theorem takeWhile_append (ha : ∀ c ∈ a, p c = true) (hs : Stops p s) : (a ++ s).takeWhile p = a := by
  rw [List.takeWhile_append_of_pos ha]
  cases s with
  | nil => simp
  | cons c s => simp [hs c rfl]

theorem dropWhile_append (ha : ∀ c ∈ a, p c = true) (hs : Stops p s) : (a ++ s).dropWhile p = s := by
  rw [List.dropWhile_append_of_pos ha]
  cases s with
  | nil => rfl
  | cons c s => exact List.dropWhile_cons_of_neg (by simp [hs c rfl])

theorem run?_eq_some_iff : run? p s = some (a, b) ↔
    a ≠ [] ∧ (∀ c ∈ a, p c = true) ∧ Stops p b ∧ s = a ++ b := by
  constructor
  · intro h
    rw [run?, Option.ite_none_left_eq_some, List.isEmpty_iff] at h
    obtain ⟨hne, he⟩ := h
    cases he
    exact ⟨hne, fun c hc => List.mem_takeWhile_imp hc, stops_dropWhile p s,
      List.takeWhile_append_dropWhile.symm⟩
  · rintro ⟨hne, ha, hb, rfl⟩
    rw [run?, takeWhile_append ha hb, dropWhile_append ha hb,
      if_neg fun h => hne (List.isEmpty_iff.1 h)]

theorem afterBlanks?_eq_some_iff : afterBlanks? s = some t ↔
    ∃ b, b ≠ [] ∧ Blank b ∧ Stops isBlank t ∧ s = b ++ t := by
  simp only [afterBlanks?, Option.map_eq_some_iff, Prod.exists, run?_eq_some_iff]
  constructor
  · rintro ⟨b, r, h, rfl⟩
    exact ⟨b, h⟩
  · rintro ⟨b, h⟩
    exact ⟨b, t, h, rfl⟩

theorem after_self (w s : Text) : after w (w ++ s) = some s := after_eq_some_iff.2 rfl

theorem after_head (c : Char) (s : Text) : after [c] (c :: s) = some s := after_self [c] s

theorem trimStart_space (h : Stops isBlank t) : trimStart (' ' :: t) = t := by
  rw [← List.singleton_append, trimStart_blank_append blank_space, trimStart_of_head h]

theorem afterBlanks?_space (h : Stops isBlank t) : afterBlanks? (' ' :: t) = some t :=
  afterBlanks?_eq_some_iff.2 ⟨[' '], by simp, blank_space, h, rfl⟩

theorem word?_eq_some_iff : word? s = some (a, b) ↔
    a ≠ [] ∧ (∀ c ∈ a, isBlank c = false) ∧ Stops notBlank b ∧ s = a ++ b := by
  simp only [word?, run?_eq_some_iff, notBlank_iff]

theorem onlyWord?_eq_some_iff : onlyWord? s = some t ↔
    t ≠ [] ∧ (∀ c ∈ t, isBlank c = false) ∧ s = t := by
  simp only [onlyWord?, Option.ite_none_right_eq_some, Bool.and_eq_true, Bool.not_eq_true',
    List.isEmpty_eq_false_iff, List.all_eq_true, notBlank_iff, Option.some.injEq]
  constructor
  · rintro ⟨⟨hne, hall⟩, rfl⟩
    exact ⟨hne, hall, rfl⟩
  · rintro ⟨hne, hall, rfl⟩
    exact ⟨⟨hne, hall⟩, rfl⟩

theorem stops_word (h : ∀ c ∈ t, isBlank c = false) : Stops isBlank t :=
  fun c hc => h c (List.mem_of_mem_head? hc)

/-! The first of all cuts is the longest one. -/

theorem cuts_eq (p : Char → Bool) (s : Text) :
    ∃ more, cuts p s = (s.takeWhile p, s.dropWhile p) :: more := by
  induction s with
  | nil => exact ⟨[], rfl⟩
  | cons c s ih =>
    obtain ⟨more, hm⟩ := ih
    cases hc : p c with
    | true => exact ⟨more.map (fun cut => (c :: cut.1, cut.2)) ++ [([], c :: s)], by simp [cuts, hc, hm]⟩
    | false => exact ⟨[], by simp [cuts, hc]⟩

theorem cuts_of_stops (h : Stops p s) : cuts p s = [([], s)] := by
  cases s with
  | nil => rfl
  | cons c s => simp [cuts, h c rfl]

theorem someCuts_eq (h : s.takeWhile p ≠ []) :
    ∃ more, someCuts p s = (s.takeWhile p, s.dropWhile p) :: more := by
  obtain ⟨more, hm⟩ := cuts_eq p s
  refine ⟨more.filter (!·.1.isEmpty), ?_⟩
  rw [someCuts, hm, List.filter_cons_of_pos]
  simpa using h

theorem someCuts_of_stops (h : Stops p s) : someCuts p s = [] := by
  rw [someCuts, cuts_of_stops h]
  rfl

/-- The longest cut is taken if the rest can be read after it. -/
theorem findSome?_someCuts {β : Type} {f : Text × Text → Option β} {x : β} (hne : a ≠ [])
    (ha : ∀ c ∈ a, p c = true) (hb : Stops p b) (h : f (a, b) = some x) :
    (someCuts p (a ++ b)).findSome? f = some x := by
  have htake := takeWhile_append ha hb
  have hdrop := dropWhile_append ha hb
  obtain ⟨more, hm⟩ := someCuts_eq (p := p) (s := a ++ b) (by rw [htake]; exact hne)
  rw [hm, htake, hdrop, List.findSome?_cons, h]

theorem all_of_mem_cuts (h : (a, b) ∈ cuts p s) : ∀ c ∈ a, p c = true := by
  induction s generalizing a with
  | nil => simp_all [cuts]
  | cons c s ih =>
    rw [cuts] at h
    split at h
    · rename_i hc
      simp only [List.mem_append, List.mem_map, List.mem_singleton, Prod.exists] at h
      rcases h with ⟨x, y, hm, he⟩ | h
      · cases he
        intro d hd
        rcases List.mem_cons.1 hd with rfl | hd
        · exact hc
        · exact ih hm d hd
      · cases h
        simp
    · simp only [List.mem_singleton] at h
      cases h
      simp

theorem of_mem_someCuts (h : (a, b) ∈ someCuts p s) :
    a ≠ [] ∧ (∀ c ∈ a, p c = true) ∧ a ++ b = s := by
  obtain ⟨hm, hne⟩ := List.mem_filter.1 h
  exact ⟨by simpa using hne, all_of_mem_cuts hm, append_of_mem_cuts hm⟩

theorem inLine_iff : s.all inLine = true ↔ '\n' ∉ s := by
  simp [inLine]
  grind

theorem restOfLine?_append (hb : b ≠ []) (hblank : Blank b) (ht : Stops isBlank t) (hne : t ≠ [])
    (hl : '\n' ∉ t) : restOfLine? (b ++ t) = some t := by
  have htake := takeWhile_append hblank ht
  have hdrop := dropWhile_append hblank ht
  obtain ⟨more, hm⟩ := someCuts_eq (p := isBlank) (s := b ++ t) (by rw [htake]; exact hb)
  have hcond : (!t.isEmpty && t.all inLine) = true := by
    rw [Bool.and_eq_true, inLine_iff]
    exact ⟨by simpa using hne, hl⟩
  simp only [restOfLine?, hm, htake, hdrop, List.findSome?_cons, hcond, if_true]

theorem restOfLine?_space (ht : Stops isBlank t) (hne : t ≠ []) (hl : '\n' ∉ t) :
    restOfLine? (' ' :: t) = some t :=
  restOfLine?_append (b := [' ']) (by simp) blank_space ht hne hl

/-- In a text that ends without a blank and takes one line, what follows the first blanks to the end
of the line is what follows all blanks. -/
theorem restOfLine?_eq_some (hs : ∀ c, s.getLast? = some c → isBlank c = false) (hl : '\n' ∉ s)
    (h : restOfLine? s = some t) : ∃ b, b ≠ [] ∧ Blank b ∧ Stops isBlank t ∧ t ≠ [] ∧ s = b ++ t := by
  have hsplit := leading_append_trimStart s
  have hlead : leading s ≠ [] := by
    intro hn
    have hstop : Stops isBlank s := by
      intro c hc
      rw [hn, List.nil_append] at hsplit
      rw [← hsplit] at hc
      exact head_trimStart hc
    rw [restOfLine?, someCuts_of_stops hstop] at h
    cases h
  have hne : trimStart s ≠ [] := by
    intro hn
    rw [hn, List.append_nil] at hsplit
    have hblank := blank_leading s
    cases hg : s.getLast? with
    | none =>
      rw [hsplit] at hlead
      exact hlead (List.getLast?_eq_none_iff.1 hg)
    | some c =>
      have hc := hs c hg
      rw [← hsplit] at hg
      rw [hblank c (List.mem_of_mem_getLast? hg)] at hc
      cases hc
  have hstop : Stops isBlank (trimStart s) := fun c hc => head_trimStart hc
  have hnl : '\n' ∉ trimStart s := fun hm => hl ((List.dropWhile_suffix _).subset hm)
  have hr := restOfLine?_append hlead (blank_leading s) hstop hne hnl
  rw [hsplit, h] at hr
  cases hr
  exact ⟨leading s, hlead, blank_leading s, hstop, hne, hsplit.symm⟩

end Devalang.Text
