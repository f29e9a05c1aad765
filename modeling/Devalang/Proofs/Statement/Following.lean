import Devalang.Proofs.Statement.Single
import Devalang.Proofs.Text.Trim

/-! What a statement depends on of the lines that follow: on the ones it takes, and on whether the next
one goes on with a chain of calls. -/
namespace Devalang

/-- The line goes on with a chain of calls. -/
def continuesChain (line : Text) : Bool := Text.startsWith ['-', '>'] (Text.trimStart line)

section Continue
variable {d : Delimiter} {indent n : Nat} {s t : Text} {following other : List Text}

theorem continueWhile_zero (h : 0 = (continueWhile d indent s following).2) :
    (continueWhile d indent s following).1 = s := by
  cases following with
  | nil => rfl
  | cons line following =>
    rw [continueWhile] at h ⊢
    split
    · rename_i hopen
      rw [if_pos hopen] at h
      cases h
    · rfl

theorem continueWhile_eq_zero_iff : continueWhile d indent s following = (s, 0) ↔
    following = [] ∨ d ∉ s.openDelimiters := by
  cases following with
  | nil => simp [continueWhile]
  | cons line following =>
    rw [continueWhile]
    by_cases h : d ∈ s.openDelimiters
    · simp [h]
    · simp [h]

theorem continueWhile_alike {i j : Nat} (hd : d ∈ t.openDelimiters → d ∈ s.openDelimiters)
    (hl : other.length = following.length) (h : 0 = (continueWhile d i s following).2) :
    continueWhile d j t other = (t, 0) := by
  have hc : continueWhile d i s following = (s, 0) := Prod.ext (continueWhile_zero h) h.symm
  rw [continueWhile_eq_zero_iff] at hc ⊢
  refine hc.imp (fun hn => ?_) fun hn ho => hn (hd ho)
  rw [hn] at hl
  exact List.length_eq_zero_iff.1 hl

theorem continueWhile_take (hl : other.length = following.length)
    (h : continueWhile d indent s following = (t, n)) (ht : other.take n = following.take n) :
    continueWhile d indent s other = (t, n) := by
  induction following generalizing s t n other with
  | nil => rw [List.length_eq_zero_iff.1 hl, h]
  | cons line following ih =>
    cases other with
    | nil => simp at hl
    | cons line' other =>
      rw [continueWhile] at h ⊢
      split
      · rename_i hopen
        rw [if_pos hopen] at h
        cases h
        simp only [List.take_succ_cons, List.cons.injEq] at ht
        rw [ht.1, ih (by simpa using hl) rfl ht.2]
      · rename_i hopen
        rw [if_neg hopen] at h
        exact h

theorem continueChain_cons (indent : Nat) (s line : Text) (following : List Text) :
    continueChain indent s (line :: following) =
      if s.openDelimiters.contains .paren || continuesChain line then
        ((continueChain indent (s ++ '\n' :: Text.dedent indent line) following).1,
          (continueChain indent (s ++ '\n' :: Text.dedent indent line) following).2 + 1)
      else (s, 0) := by
  rw [continueChain]
  rfl

theorem continueChain_zero (h : 0 = (continueChain indent s following).2) :
    (continueChain indent s following).1 = s := by
  cases following with
  | nil => rfl
  | cons line following =>
    rw [continueChain_cons] at h ⊢
    split
    · rename_i hopen
      rw [if_pos hopen] at h
      cases h
    · rfl

theorem continueChain_eq_zero_iff : continueChain indent s following = (s, 0) ↔
    ∀ line, following.head? = some line → .paren ∉ s.openDelimiters ∧ continuesChain line = false := by
  cases following with
  | nil => simp [continueChain]
  | cons line following =>
    rw [continueChain_cons]
    by_cases hp : .paren ∈ s.openDelimiters
    · simp [hp]
    · cases hl : continuesChain line <;> simp [hp, hl]

theorem continueChain_alike {i j : Nat} (hp : .paren ∈ t.openDelimiters → .paren ∈ s.openDelimiters)
    (hl : other.map continuesChain = following.map continuesChain)
    (h : 0 = (continueChain i s following).2) : continueChain j t other = (t, 0) := by
  have hc : continueChain i s following = (s, 0) := Prod.ext (continueChain_zero h) h.symm
  rw [continueChain_eq_zero_iff] at hc ⊢
  intro line hline
  obtain ⟨more, rfl⟩ := List.head?_eq_some_iff.1 hline
  cases following with
  | nil => cases hl
  | cons line' following =>
    obtain ⟨hopen, hchain⟩ := hc line' rfl
    rw [List.map_cons, List.map_cons, List.cons.injEq, hchain] at hl
    exact ⟨fun hm => hopen (hp hm), hl.1⟩

theorem continueChain_take (hl : other.map continuesChain = following.map continuesChain)
    (h : continueChain indent s following = (t, n)) (ht : other.take n = following.take n) :
    continueChain indent s other = (t, n) := by
  induction following generalizing s t n other with
  | nil => rw [List.map_eq_nil_iff.1 hl, h]
  | cons line following ih =>
    cases other with
    | nil => simp at hl
    | cons line' other =>
      rw [List.map_cons, List.map_cons, List.cons.injEq] at hl
      rw [continueChain_cons] at h ⊢
      rw [hl.1]
      split
      · rename_i hopen
        rw [if_pos hopen] at h
        cases h
        simp only [List.take_succ_cons, List.cons.injEq] at ht
        rw [ht.1, ih hl.2 rfl ht.2]
      · rename_i hopen
        rw [if_neg hopen] at h
        exact h

/-! Of the indent of the lines that follow only that counts by which they are indented further. -/

section Dedent
variable {i j : Nat}

theorem continuesChain_dedent (i : Nat) (line : Text) :
    continuesChain (Text.dedent i line) = continuesChain line := by
  rw [continuesChain, Text.trimStart_dedent, continuesChain]

theorem continueWhile_dedent (h : other.map (Text.dedent j) = following.map (Text.dedent i)) :
    continueWhile d j s other = continueWhile d i s following := by
  induction following generalizing s other with
  | nil => rw [List.map_eq_nil_iff.1 h, continueWhile, continueWhile]
  | cons line following ih =>
    obtain ⟨line', other, rfl, hl, hr⟩ := List.map_eq_cons_iff.1 h
    rw [continueWhile, continueWhile, hl, ih hr]

theorem continueChain_dedent (h : other.map (Text.dedent j) = following.map (Text.dedent i)) :
    continueChain j s other = continueChain i s following := by
  induction following generalizing s other with
  | nil => rw [List.map_eq_nil_iff.1 h, continueChain, continueChain]
  | cons line following ih =>
    obtain ⟨line', other, rfl, hl, hr⟩ := List.map_eq_cons_iff.1 h
    have hc : continuesChain line' = continuesChain line := by
      rw [← continuesChain_dedent j, hl, continuesChain_dedent]
    rw [continueChain_cons, continueChain_cons, hc, hl, ih hr]

theorem Statement.read?_dedent (h : other.map (Text.dedent j) = following.map (Text.dedent i)) :
    Statement.read? j other s = Statement.read? i following s := by
  have hl : Simple.readLet j other = Simple.readLet i following := by
    funext s
    simp only [Simple.readLet, continueWhile_dedent h]
  have ht : Simple.readTrigger j other = Simple.readTrigger i following := by
    funext s
    simp only [Simple.readTrigger, continueWhile_dedent h]
  have ha : Simple.readArrow j other = Simple.readArrow i following := by
    funext s
    simp only [Simple.readArrow, continueChain_dedent h]
  rw [read?_eq, read?_eq, going?, going?, hl, ht, ha]

end Dedent

end Continue

namespace Simple
variable {indent n : Nat} {s : Text} {r : Simple} {following other : List Text}

theorem readLet_take (hl : other.length = following.length)
    (h : readLet indent following s = some (r, n)) (ht : other.take n = following.take n) :
    readLet indent other s = some (r, n) := by
  obtain ⟨name, start, hd, hr, hn⟩ := readLet_eq_some_iff.1 h
  have hc := @continueWhile_take .brace indent _ start _ _ _ hl rfl (hn ▸ ht)
  refine readLet_eq_some_iff.2 ⟨name, start, hd, ?_, ?_⟩
  · rw [hc]
    exact hr
  · rw [hc]
    exact hn

theorem readTrigger_take (hl : other.length = following.length)
    (h : readTrigger indent following s = some (r, n)) (ht : other.take n = following.take n) :
    readTrigger indent other s = some (r, n) := by
  obtain ⟨name, start, hd, hr, hn⟩ := readTrigger_eq_some_iff.1 h
  have hc := @continueWhile_take .brace indent _ start _ _ _ hl rfl (hn ▸ ht)
  refine readTrigger_eq_some_iff.2 ⟨name, start, hd, ?_, ?_⟩
  · rw [hc]
    exact hr
  · rw [hc]
    exact hn

theorem readArrow_take (hl : other.map continuesChain = following.map continuesChain)
    (h : readArrow indent following s = some (r, n)) (ht : other.take n = following.take n) :
    readArrow indent other s = some (r, n) := by
  obtain ⟨ha, hn, hr⟩ := readArrow_eq_some_iff.1 h
  have hc := @continueChain_take indent _ s _ _ _ hl rfl (hn ▸ ht)
  refine readArrow_eq_some_iff.2 ⟨ha, ?_, ?_⟩
  · rw [hc]
    exact hn
  · rw [hc]
    exact hr

theorem isSome_readLet (indent : Nat) (following : List Text) (s : Text) :
    (readLet indent following s).isSome = (declaration? s).isSome := by
  rw [Bool.eq_iff_iff, Option.isSome_iff_exists, Option.isSome_iff_exists]
  constructor
  · rintro ⟨⟨r, n⟩, h⟩
    obtain ⟨name, start, hd, -⟩ := readLet_eq_some_iff.1 h
    exact ⟨_, hd⟩
  · rintro ⟨⟨name, start⟩, hd⟩
    exact ⟨_, readLet_eq_some_iff.2 ⟨name, start, hd, rfl, rfl⟩⟩

theorem isSome_readTrigger (indent : Nat) (following : List Text) (s : Text) :
    (readTrigger indent following s).isSome = (triggering? s).isSome := by
  rw [Bool.eq_iff_iff, Option.isSome_iff_exists, Option.isSome_iff_exists]
  constructor
  · rintro ⟨⟨r, n⟩, h⟩
    obtain ⟨name, start, hd, -⟩ := readTrigger_eq_some_iff.1 h
    exact ⟨_, hd⟩
  · rintro ⟨⟨name, start⟩, hd⟩
    exact ⟨_, readTrigger_eq_some_iff.2 ⟨name, start, hd, rfl, rfl⟩⟩

theorem readLet_eq_none_iff : readLet indent following s = none ↔ declaration? s = none := by
  have h := isSome_readLet indent following s
  cases hr : readLet indent following s <;> cases hd : declaration? s <;> simp_all

theorem readTrigger_eq_none_iff : readTrigger indent following s = none ↔ triggering? s = none := by
  have h := isSome_readTrigger indent following s
  cases hr : readTrigger indent following s <;> cases hd : triggering? s <;> simp_all

end Simple

namespace Statement
variable {indent n : Nat} {s : Text} {st : Statement} {r : Simple} {following other : List Text}
  {x : Simple × Nat}

theorem going?_eq_some_iff : going? indent following s = some x ↔
    Simple.readLet indent following s = some x ∨
      Simple.declaration? s = none ∧ Simple.readTrigger indent following s = some x ∨
      Simple.declaration? s = none ∧ Simple.triggering? s = none ∧
        Simple.readArrow indent following s = some x := by
  rw [← @Simple.readLet_eq_none_iff indent s following, ← @Simple.readTrigger_eq_none_iff indent s following,
    going?]
  cases Simple.readLet indent following s with
  | some r => simp
  | none =>
    cases Simple.readTrigger indent following s with
    | some r => simp
    | none => simp

theorem read?_eq_some_iff : read? indent following s = some (st, n) ↔
    single? s = some st ∧ n = 0 ∨
      single? s = none ∧ ∃ r, going? indent following s = some (r, n) ∧ st = .simple r := by
  rw [read?_eq]
  cases single? s with
  | some t =>
    simp only [Option.map_some, Option.some_or, Option.some.injEq, Prod.mk.injEq, reduceCtorEq,
      false_and, or_false, eq_comm]
  | none =>
    simp only [Option.map_none, Option.none_or, Option.map_eq_some_iff, Prod.mk.injEq, Prod.exists,
      reduceCtorEq, false_and, false_or, true_and]
    constructor
    · rintro ⟨r, m, hg, rfl, rfl⟩
      exact ⟨r, hg, rfl⟩
    · rintro ⟨r, hg, rfl⟩
      exact ⟨r, n, hg, rfl, rfl⟩

theorem read?_eq_none_iff : read? indent following s = none ↔ single? s = none ∧
    Simple.declaration? s = none ∧ Simple.triggering? s = none ∧
      Simple.readArrow indent following s = none := by
  rw [read?_eq, Option.or_eq_none_iff, Option.map_eq_none_iff, Option.map_eq_none_iff, going?,
    Option.or_eq_none_iff, Option.or_eq_none_iff, Simple.readLet_eq_none_iff,
    Simple.readTrigger_eq_none_iff]

/-- Of the lines that follow only those count that a statement takes, and whether they go on with a
chain of calls. -/
theorem read?_take (hl : other.map continuesChain = following.map continuesChain)
    (h : read? indent following s = some (st, n)) (ht : other.take n = following.take n) :
    read? indent other s = some (st, n) := by
  have hlen : other.length = following.length := by simpa using congrArg List.length hl
  rw [read?_eq_some_iff] at h ⊢
  refine h.imp id ?_
  rintro ⟨hs, r, hg, rfl⟩
  refine ⟨hs, r, ?_, rfl⟩
  rw [going?_eq_some_iff] at hg ⊢
  rcases hg with hr | ⟨hd, hr⟩ | ⟨hd, htr, hr⟩
  · exact Or.inl (Simple.readLet_take hlen hr ht)
  · exact Or.inr (Or.inl ⟨hd, Simple.readTrigger_take hlen hr ht⟩)
  · exact Or.inr (Or.inr ⟨hd, htr, Simple.readArrow_take hl hr ht⟩)

/-- A line that is unknown can only become an arrow call in front of other lines. -/
theorem readArrow_of_unknown {j : Nat} (hn : read? indent following s = none)
    (h : read? j other s = some (st, n)) :
    ∃ r, st = .simple r ∧ Simple.readArrow j other s = some (r, n) := by
  obtain ⟨hs, hd, ht, -⟩ := read?_eq_none_iff.1 hn
  rcases read?_eq_some_iff.1 h with ⟨hs', -⟩ | ⟨-, r, hg, rfl⟩
  · rw [hs] at hs'
    cases hs'
  rcases going?_eq_some_iff.1 hg with hr | ⟨-, hr⟩ | ⟨-, -, hr⟩
  · rw [Simple.readLet_eq_none_iff.2 hd] at hr
    cases hr
  · rw [Simple.readTrigger_eq_none_iff.2 ht] at hr
    cases hr
  · exact ⟨r, rfl, hr⟩

/-- A line that is unknown may become a statement in front of other lines only together with some of
them. -/
theorem read?_none_alone {j : Nat} (h : read? indent following s = none)
    (hl : other.map continuesChain = following.map continuesChain) :
    read? j other s ≠ some (st, 0) := by
  intro hr
  obtain ⟨r, -, hr⟩ := readArrow_of_unknown h hr
  obtain ⟨harrow, hn, hlinks⟩ := Simple.readArrow_eq_some_iff.1 hr
  have hc : continueChain indent s following = (s, 0) := continueChain_alike id hl.symm hn
  rw [continueChain_zero hn] at hlinks
  have hread : Simple.readArrow indent following s = some (r, 0) :=
    Simple.readArrow_eq_some_iff.2 ⟨harrow, by rw [hc], by rw [hc]; exact hlinks⟩
  rw [(read?_eq_none_iff.1 h).2.2.2] at hread
  cases hread

theorem read?_none_of_hasArrow (h : read? indent following s = none) (ha : Text.hasArrow s = false) :
    read? indent other s = none := by
  rw [read?_eq_none_iff] at h ⊢
  obtain ⟨hs, hd, ht, -⟩ := h
  refine ⟨hs, hd, ht, ?_⟩
  rw [Simple.readArrow, ha]
  rfl

theorem isOrdinary_or_readArrow (h : read? indent following s = some (.simple r, n)) :
    r.isOrdinary = true ∨ Simple.readArrow indent following s = some (r, n) := by
  rcases read?_eq_some_iff.1 h with ⟨hs, -⟩ | ⟨-, q, hg, he⟩
  · exact Or.inl (isOrdinary_of_single hs)
  · cases he
    rcases going?_eq_some_iff.1 hg with hr | ⟨-, hr⟩ | ⟨-, -, hr⟩
    · obtain ⟨name, start, -, rfl, -⟩ := Simple.readLet_eq_some_iff.1 hr
      exact Or.inl rfl
    · obtain ⟨name, start, -, rfl, -⟩ := Simple.readTrigger_eq_some_iff.1 hr
      exact Or.inl rfl
    · exact Or.inr hr

theorem read?_ne_unknown (c : Text) :
    read? indent following s ≠ some (.simple (.unknown c), n) := by
  intro h
  rcases isOrdinary_or_readArrow h with hr | hr
  · cases hr
  · obtain ⟨-, -, t, first, more, call, calls, -, -, -, -, he⟩ := Simple.readArrow_eq_some_iff.1 hr
    cases he

theorem single?_ne_blank : single? s ≠ some (.simple .blank) := by
  intro h
  cases ofLine_of_single h

theorem read?_ne_blank : read? indent following s ≠ some (.simple .blank, n) := by
  intro h
  rcases read?_eq_some_iff.1 h with ⟨hs, -⟩ | ⟨-, r, hg, he⟩
  · exact single?_ne_blank hs
  · cases he
    rcases going?_eq_some_iff.1 hg with hr | ⟨-, hr⟩ | ⟨-, -, hr⟩
    · obtain ⟨name, start, -, he, -⟩ := Simple.readLet_eq_some_iff.1 hr
      cases he
    · obtain ⟨name, start, -, he, -⟩ := Simple.readTrigger_eq_some_iff.1 hr
      cases he
    · obtain ⟨-, -, t, first, more, call, calls, -, -, -, -, he⟩ := Simple.readArrow_eq_some_iff.1 hr
      cases he

theorem isOrdinary_of_hasArrow (h : read? indent following s = some (.simple r, n))
    (ha : Text.hasArrow s = false) : r.isOrdinary = true := by
  rcases isOrdinary_or_readArrow h with hr | hr
  · exact hr
  · obtain ⟨harrow, -⟩ := Simple.readArrow_eq_some_iff.1 hr
    rw [ha] at harrow
    cases harrow

end Statement

end Devalang
