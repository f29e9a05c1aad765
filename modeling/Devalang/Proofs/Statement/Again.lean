import Devalang.Proofs.Statement.Target

/-! Every statement that takes one line may be written in the place of that line: what is read in its
place is a statement alike. -/
namespace Devalang
open Text Nesting

namespace Text
variable {k s t r : Text} {c : Char}

theorem after_append (hc : c ∉ k) (s r : Text) :
    after k (s ++ c :: r) = (after k s).map (· ++ c :: r) := by
  induction k generalizing s with
  | nil => rfl
  | cons a k ih =>
    simp only [List.mem_cons, not_or] at hc
    cases s with
    | nil => simp [after, Ne.symm hc.1]
    | cons b s =>
      by_cases h : a = b
      · simp [after, h, ih hc.2]
      · simp [after, h]

theorem startsWith_append (hc : c ∉ k) (s r : Text) : startsWith k (s ++ c :: r) = startsWith k s := by
  rw [startsWith, startsWith, after_append hc, Option.isSome_map]

theorem hasArrow_append (s t : Text) : hasArrow (s ++ '-' :: '>' :: t) = true := by
  induction s with
  | nil => rfl
  | cons c s ih =>
    rw [List.cons_append, hasArrow.eq_def]
    split
    · rfl
    · rename_i h
      rw [← (List.cons.inj h).2]
      exact ih
    · rename_i h
      cases h

theorem hasArrow_eq_true_iff : hasArrow s = true ↔ ['-', '>'] <:+: s := by
  constructor
  · intro h
    induction s using hasArrow.induct with
    | case1 s => exact ⟨[], s, rfl⟩
    | case2 c s hne ih =>
      rw [hasArrow] at h
      · exact (ih h).trans (List.suffix_cons c s).isInfix
      · exact hne
    | case3 => cases h
  · rintro ⟨a, b, rfl⟩
    rw [List.append_assoc]
    exact hasArrow_append a b

theorem hasArrow_of_infix (h : t <:+: s) (hs : hasArrow s = false) : hasArrow t = false := by
  rw [Bool.eq_false_iff, ne_eq, hasArrow_eq_true_iff] at hs ⊢
  exact fun ht => hs (ht.trans h)

end Text

theorem word_of_mem_headerWords {k : Text} (hk : k ∈ headerWords) : ∀ c ∈ k, isWord c = true := by
  have h : (headerWords.all fun k => k.all isWord) = true := by decide +kernel
  exact List.all_eq_true.1 (List.all_eq_true.1 h k hk)

theorem notMem_else {c : Char} (hc : isWord c = false) : c ∉ "else".toList := by
  intro hm
  rw [word_of_mem_headerWords (k := "else".toList) (by simp [headerWords]) c hm] at hc
  cases hc

theorem isHeaderLine_append {c : Char} (hc : isWord c = false) (s r : Text) :
    isHeaderLine (s ++ c :: r) = isHeaderLine s := by
  rw [Bool.eq_iff_iff, isHeaderLine, isHeaderLine, List.any_eq_true, List.any_eq_true]
  refine exists_congr fun k => and_congr_right fun hk => ?_
  have hn : c ∉ k := fun hm => by
    rw [word_of_mem_headerWords hk c hm] at hc
    cases hc
  rw [after_append hn]
  cases after k s with
  | none => rfl
  | some q =>
    cases q with
    | nil => simp [hc]
    | cons d q => rfl

namespace Calls
variable {s t x y m z u v w : Text}

theorem exists_after_target (h : Calls s t x y m z u) :
    ∃ c q, s = t ++ c :: q ∧ isWord c = false ∧ c ≠ '>' ∧ (c = '-' ∨ isBlank c = true) := by
  cases hx : x with
  | nil =>
    have ht := h.text
    rw [hx] at ht
    exact ⟨'-', _, ht, by decide +kernel, by decide, Or.inl rfl⟩
  | cons c x =>
    have ht := h.text
    rw [hx] at ht
    have hc := h.blanks.1 c (by simp [hx])
    exact ⟨c, _, ht, isWord_blank hc, fun he => absurd (he ▸ hc) (by decide), Or.inr hc⟩

/-- The text of a call is of a kind that takes one line only if it emits, prints or waits for something
and the text that the call was read from does not. -/
theorem single?_cases (hs : Calls s t x y m z v) (hw : Calls w t [' '] [' '] m [] u) (hl : '\n' ∉ s)
    (h : Statement.single? s = none) :
    Statement.single? w = none ∨ ∃ r, Statement.single? w = some (.simple r) ∧
      (Simple.readEmit s = none ∧ Simple.readEmit w = some r ∨
        Simple.readPrint s = none ∧ Simple.readPrint w = some r ∨
        Simple.readSleep s = none ∧ Simple.readSleep w = some r) := by
  rw [Statement.single?, List.findSome?_eq_none_iff] at h
  have hnone (read : Text → Option Simple)
      (hm : (fun s => (read s).map Statement.simple) ∈ Statement.singleReaders) : read s = none :=
    Option.map_eq_none_iff.1 (h _ hm)
  cases hst : Statement.single? w with
  | none => exact Or.inl rfl
  | some st =>
    cases Statement.ofLine_of_single hst with
    | emit _ _ read => exact Or.inr ⟨_, rfl, Or.inl ⟨hnone _ (by simp [Statement.singleReaders]), read⟩⟩
    | print _ read =>
      exact Or.inr ⟨_, rfl, Or.inr (Or.inl ⟨hnone _ (by simp [Statement.singleReaders]), read⟩)⟩
    | sleep _ read =>
      exact Or.inr ⟨_, rfl, Or.inr (Or.inr ⟨hnone _ (by simp [Statement.singleReaders]), read⟩)⟩
    | comment read =>
      rw [hs.readComment_eq_none hw (hnone _ (by simp [Statement.singleReaders]))] at read
      cases read
    | keyframe _ _ _ read =>
      rw [hs.readKeyframe_eq_none hw hl (hnone _ (by simp [Statement.singleReaders]))] at read
      cases read
    | bpm _ read =>
      rw [Simple.readBpm, hw.readWord_eq_none (forall_of_all rfl)] at read
      cases read
    | call _ read =>
      rw [Simple.readCall, hw.readWord_eq_none (forall_of_all rfl)] at read
      cases read
    | spawn _ read =>
      rw [Simple.readSpawn, hw.readWord_eq_none (forall_of_all rfl)] at read
      cases read
    | bank _ _ read =>
      rw [Simple.readBank, hw.readAliased_eq_none (forall_of_all rfl)] at read
      cases read
    | plugin _ _ read =>
      rw [Simple.readUse, hw.readAliased_eq_none (forall_of_all rfl)] at read
      cases read
    | load _ _ read =>
      rw [hw.readLoad_eq_none] at read
      cases read
    | imports _ _ read =>
      rw [hw.eq_none_of_last (fun _ => Simple.last_of_readImport) (by decide)] at read
      cases read
    | exports _ read =>
      rw [hw.eq_none_of_last (fun _ => Simple.last_of_readExport) (by decide)] at read
      cases read
    | pattern _ _ _ read =>
      rw [hw.eq_none_of_last (fun _ => Simple.last_of_readPattern) (by decide)] at read
      cases read
    | on | fn | conditional | loop | group | each | automate | param =>
      rcases Statement.last_of_block hst with hb | hb
      · rw [hw.last] at hb
        cases hb
      · rw [hw.last] at hb
        cases hb

theorem single?_write (hs : Calls s t x y m z v) (hw : Calls w t [' '] [' '] m [] u) (hl : '\n' ∉ s)
    (hlw : '\n' ∉ w) (h : Statement.single? s = none) :
    Statement.single? w = none ∨ ∃ r, Statement.single? w = some (.simple r) ∧ Stands w r := by
  refine (hs.single?_cases hw hl h).imp id ?_
  rintro ⟨r, hr, ⟨hn, he⟩ | ⟨hn, he⟩ | ⟨hn, he⟩⟩
  · exact ⟨r, hr, hs.stands_emit hw hl hlw hn he⟩
  · exact ⟨r, hr, hs.stands_print hw hl hlw hn he⟩
  · exact ⟨r, hr, hs.stands_sleep hw hl hlw hn he⟩

theorem chain_eq_false (h : Calls s t x y m z u) : startsWith ['-', '>'] s = false := by
  obtain ⟨c, q, rfl, -, hc, -⟩ := h.exists_after_target
  rw [Bool.eq_false_iff]
  intro hstart
  obtain ⟨r, hr⟩ := Option.isSome_iff_exists.1 hstart
  have hr := after_eq_some_iff.1 hr
  have ha := h.arrowless
  match t, h.nonempty, ha, hr with
  | [d], _, _, hr =>
    rw [List.singleton_append] at hr
    exact hc (List.cons.inj (List.cons.inj hr).2).1
  | d :: e :: t, _, ha, hr =>
    have hd := List.cons.inj hr
    refine ha.1 rfl hd.1 ?_
    rw [(List.cons.inj hd.2).1]
    rfl

theorem readArrow_write {indent j : Nat} {following other : List Text} {r : Simple}
    (hs : Calls s t x y m z v)
    (h : Simple.readArrow indent following s = some (r, 0))
    (hother : other.map continuesChain = following.map continuesChain) :
    Simple.readArrow j other (Simple.arrow t ⟨m, items v⟩ []).write =
      some (.arrow t ⟨m, items v⟩ [], 0) := by
  obtain ⟨-, hn, -⟩ := Simple.readArrow_eq_some_iff.1 h
  have hw := hs.write
  have hc : continueChain j (Simple.arrow t ⟨m, items v⟩ []).write other =
      ((Simple.arrow t ⟨m, items v⟩ []).write, 0) :=
    continueChain_alike (by rw [hs.openDelimiters_write]; exact id) hother hn
  have harrow : hasArrow (Simple.arrow t ⟨m, items v⟩ []).write = true := by
    rw [hw.text_write, ← List.append_assoc]
    exact hasArrow_append (t ++ [' ']) _
  refine Simple.readArrow_eq_some_iff.2 ⟨harrow, by rw [hc], t, _, [], ⟨m, items v⟩, [], ?_, hw.nonempty,
    Call.read_eq_some_iff.2 ⟨[], Text.join comma (items v), hw.named, hw.method, hw.blanks.2.2,
      (items_write v).symm, rfl⟩, rfl, rfl⟩
  rw [hc]
  exact hw.links_eq

end Calls

namespace Simple
variable {indent : Nat} {s : Text} {r : Simple} {following : List Text}

theorem restated_of_arrow (ht : Trimmed s) (hl : '\n' ∉ s) (hs : Statement.single? s = none)
    (hd : declaration? s = none) (htr : triggering? s = none)
    (h : readArrow indent following s = some (r, 0)) (hr : r.isChain = false) (hw : '\n' ∉ r.write) :
    r.Restated following s := by
  obtain ⟨t, x, y, m, z, u, hc, rfl⟩ := Calls.of_readArrow ht h hr
  have hcw := hc.write
  obtain ⟨c, q, hsq, hcword, -, hcd⟩ := hc.exists_after_target
  obtain ⟨c', q', hwq, hcword', -, hcd'⟩ := hcw.exists_after_target
  refine ⟨hcw.trimmed_text, ?_, ?_, ?_, ⟨?_, ?_⟩, ?_, ?_⟩
  · rw [hwq]
    simp
  · rw [hwq, hsq, isHeaderLine_append hcword, isHeaderLine_append hcword']
  · rw [hwq, hsq, startsWith_append (notMem_else hcword), startsWith_append (notMem_else hcword')]
  · exact hcw.eq_none_of_last (fun _ => Header.last_of_readBranch) (by decide)
  · exact hc.eq_none_of_last (fun _ => Header.last_of_readBranch) (by decide)
  · rw [hc.chain_eq_false, hcw.chain_eq_false]
  · rcases hc.single?_write hcw hl hw hs with hn | ⟨r, hr, hwrite, hchain⟩
    · refine ⟨_, Alike.refl _, fun j other hother => Statement.read?_eq_some_iff.2 (Or.inr ⟨hn, _, ?_, rfl⟩)⟩
      exact Statement.going?_eq_some_iff.2 (Or.inr (Or.inr ⟨hc.declaration?_eq_none hcw hl hd,
        hc.triggering?_eq_none hcw hl htr, hc.readArrow_write h hother⟩))
    · exact ⟨r, ⟨hwrite, hchain, Or.inr ⟨_, _, rfl⟩⟩, fun j other _ =>
        Statement.read?_eq_some_iff.2 (Or.inl ⟨hr, rfl⟩)⟩

/-- The text of a statement that was read from one line, and is no chain of calls, may take the place
of that line. -/
theorem restated_of_read (ht : Trimmed s) (hl : '\n' ∉ s)
    (h : Statement.read? indent following s = some (.simple r, 0)) (hr : r.isChain = false)
    (hw : '\n' ∉ r.write) : r.Restated following s := by
  rcases Statement.read?_eq_some_iff.1 h with ⟨hs, -⟩ | ⟨hs, q, hg, he⟩
  · exact restated_of_single ht hl hs hw
  · cases he
    rcases Statement.going?_eq_some_iff.1 hg with hlet | ⟨-, htrigger⟩ | ⟨hd, htr, harrow⟩
    · exact restated_of_let ht hlet hw
    · exact restated_of_trigger htrigger hw
    · exact restated_of_arrow ht hl hs hd htr harrow hr hw

end Simple

end Devalang
