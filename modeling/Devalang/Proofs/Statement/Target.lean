import Devalang.Proofs.Statement.Apart
import Devalang.Proofs.Statement.Trigger

/-! Kinds of statement that the target of a call decides on: the text of the call is none of them, as
the text that the call was read from is none. -/
namespace Devalang
open Text Nesting

namespace Text
variable {s t u : Text} {c : Char}

theorem afterBlanks?_blank_cons (hc : isBlank c = true) (s : Text) :
    afterBlanks? (c :: s) = some (trimStart (c :: s)) := by
  refine afterBlanks?_eq_some_iff.2 ⟨leading (c :: s), ?_, blank_leading _, fun d hd => head_trimStart hd,
    (leading_append_trimStart _).symm⟩
  simp [leading, hc]

theorem word?_of_stops (h : Stops isBlank s) (hne : s ≠ []) : ∃ a b, word? s = some (a, b) := by
  refine ⟨s.takeWhile notBlank, s.dropWhile notBlank, word?_eq_some_iff.2 ⟨?_, ?_, stops_dropWhile _ _,
    (List.takeWhile_append_dropWhile).symm⟩⟩
  · obtain ⟨c, t, rfl⟩ := List.exists_cons_of_ne_nil hne
    simp [notBlank, h c rfl]
  · intro c hc
    exact notBlank_iff.1 (List.mem_takeWhile_imp hc)

theorem restOfLine?_blank_cons (hc : isBlank c = true) (hne : trimStart (c :: s) ≠ [])
    (hl : '\n' ∉ c :: s) : restOfLine? (c :: s) = some (trimStart (c :: s)) := by
  have h := restOfLine?_append (b := leading (c :: s)) (t := trimStart (c :: s)) (by simp [leading, hc])
    (blank_leading _) (fun d hd => head_trimStart hd) hne
    (fun hm => hl ((List.dropWhile_suffix _).subset hm))
  rwa [leading_append_trimStart] at h

theorem blank_of_restOfLine? (h : restOfLine? (c :: s) = some t) : isBlank c = true := by
  by_contra hc
  rw [restOfLine?, someCuts_of_stops (stops_cons (by simpa using hc) s)] at h
  cases h

theorem blank_of_afterBlanks? (h : afterBlanks? (c :: s) = some t) : isBlank c = true := by
  obtain ⟨b, hb, hblank, -, he⟩ := afterBlanks?_eq_some_iff.1 h
  obtain ⟨d, b, rfl⟩ := List.exists_cons_of_ne_nil hb
  rw [List.cons_append, List.cons.injEq] at he
  rw [he.1]
  exact hblank d (by simp)

end Text

namespace Calls
variable {s t x y m z u v w p q : Text} {r : Simple} {c : Char}

theorem start_of_append (hw : Calls w t [' '] [' '] m [] u) (h : w = p ++ q) (hp : ∀ c ∈ p, c ≠ '-')
    (hl : ∀ c, p.getLast? = some c → isBlank c = false) :
    ∃ k, t = p ++ k ∧ q = k ++ (' ' :: '-' :: '>' :: ' ' :: (m ++ '(' :: (u ++ [')']))) := by
  have hw' := hw.text_write
  rw [h] at hw'
  exact prefix_of_append hw' hp blank_space hl

theorem eq_append (hs : Calls s t x y m z v) {k : Text} (ht : t = p ++ k) :
    ∃ q, s = p ++ (k ++ q) ∧ q ≠ [] := by
  have h := hs.text
  rw [ht, List.append_assoc] at h
  exact ⟨_, h, by simp⟩

theorem readComment_eq_none (hs : Calls s t x y m z v) (hw : Calls w t [' '] [' '] m [] u)
    (h : Simple.readComment s = none) : Simple.readComment w = none := by
  rw [Option.eq_none_iff_forall_ne_some]
  intro r hr
  obtain ⟨hr, -⟩ := Option.ite_none_right_eq_some.1 hr
  obtain ⟨q, hq⟩ := Option.isSome_iff_exists.1 hr
  obtain ⟨k, ht, -⟩ := hw.start_of_append (after_eq_some_iff.1 hq) (forall_of_all rfl)
    (trimmed_of_forall (forall_of_all rfl)).last
  obtain ⟨q, rfl, -⟩ := hs.eq_append ht
  cases h

/-- A keyword at the start of the text of a call is the target, or a blank follows it in both texts. -/
theorem keyword_cases (hs : Calls s t x y m z v) (hw : Calls w t [' '] [' '] m [] u)
    (h : w = p ++ q) (hp : ∀ c ∈ p, c ≠ '-') (hl : ∀ c, p.getLast? = some c → isBlank c = false)
    (hq : ∀ c k, q = c :: k → isBlank c = true) :
    q = ' ' :: '-' :: '>' :: ' ' :: (m ++ '(' :: (u ++ [')'])) ∨
      ∃ c k, isBlank c = true ∧ s = p ++ c :: k ∧ trimStart (c :: k) ≠ [] := by
  obtain ⟨k, ht, hk⟩ := hw.start_of_append h hp hl
  cases k with
  | nil => exact Or.inl hk
  | cons c k =>
    obtain ⟨q', hs', hne⟩ := hs.eq_append ht
    refine Or.inr ⟨c, k ++ q', hq c _ hk, hs', ?_⟩
    have htrim := hs.trimmed_text
    rw [hs'] at htrim
    exact htrim.trimStart_ne_nil (by simp)

/-- A statement whose text is `w` and that is no chain takes the place of a call. -/
def Stands (w : Text) (r : Simple) : Prop := r.write = w ∧ r.isChain = false

theorem target_eq (hw : Calls w t [' '] [' '] m [] u)
    (h : w = p ++ ' ' :: '-' :: '>' :: ' ' :: (m ++ '(' :: (u ++ [')']))) : t = p := by
  have hw' := hw.text_write
  rw [h] at hw'
  exact (List.append_cancel_right hw').symm

/-- What an `emit` in the text of a call emits is the arrow, if the text that the call was read from
emits nothing. -/
theorem emit_cases (hs : Calls s t x y m z v) (hw : Calls w t [' '] [' '] m [] u) (hl : '\n' ∉ s)
    (h : Simple.readEmit s = none) (hr : Simple.readEmit w = some r) :
    w = "emit".toList ++ ' ' :: '-' :: '>' :: ' ' :: (m ++ '(' :: (u ++ [')'])) := by
  rw [Simple.readEmit_eq] at h hr
  obtain ⟨⟨n, rest⟩, hn, -⟩ := Option.bind_eq_some_iff.1 hr
  obtain ⟨q', hb, -⟩ := Option.bind_eq_some_iff.1 hn
  obtain ⟨q, hq, hb⟩ := Option.bind_eq_some_iff.1 hb
  rcases hs.keyword_cases hw (after_eq_some_iff.1 hq) (forall_of_all rfl)
    (trimmed_of_forall (forall_of_all rfl)).last
    (fun c k he => blank_of_afterBlanks? (he ▸ hb)) with rfl | ⟨c, k, hc, rfl, hne⟩
  · exact after_eq_some_iff.1 hq
  · exfalso
    obtain ⟨a, b, hab⟩ := word?_of_stops (fun d hd => head_trimStart hd) hne
    obtain ⟨-, -, -, hsplit⟩ := word?_eq_some_iff.1 hab
    have hline : (trimStart b).all inLine = true := by
      refine inLine_iff.2 fun hm => hl (List.mem_append_right _ ?_)
      have hmb : '\n' ∈ trimStart (c :: k) := by
        rw [hsplit]
        exact List.mem_append_right _ ((List.dropWhile_suffix _).subset hm)
      exact (List.dropWhile_suffix _).subset hmb
    rw [after_self, Option.bind_some, afterBlanks?_blank_cons hc, Option.bind_some, hab,
      Option.bind_some] at h
    simp only [hline, if_true] at h
    split at h <;> cases h

theorem readEmit_arrow {e : Text} (hl : '\n' ∉ e) :
    Simple.readEmit ("emit".toList ++ ' ' :: '-' :: '>' :: ' ' :: e) =
      some (.emit ['-', '>'] (some (trimStart e))) := by
  have hafter := Simple.after_word "emit".toList (show ['-', '>'] ≠ [] by simp) (forall_of_all rfl)
    (Simple.stops_space e)
  have hline : (trimStart e).all inLine = true :=
    inLine_iff.2 fun hm => hl ((List.dropWhile_suffix _).subset hm)
  have htrim : trimStart (' ' :: e) = trimStart e := trimStart_blank_append blank_space e
  have hsplit : "emit".toList ++ ' ' :: '-' :: '>' :: ' ' :: e =
      "emit".toList ++ ' ' :: (['-', '>'] ++ ' ' :: e) := rfl
  rw [Simple.readEmit_eq, hsplit, hafter]
  simp only [Option.bind_some, List.isEmpty_cons, Bool.false_eq_true, if_false, htrim, hline, if_true]

theorem stands_emit (hs : Calls s t x y m z v) (hw : Calls w t [' '] [' '] m [] u) (hl : '\n' ∉ s)
    (hlw : '\n' ∉ w) (h : Simple.readEmit s = none) (hr : Simple.readEmit w = some r) : Stands w r := by
  have hwe := hs.emit_cases hw hl h hr
  have hcall : Stops isBlank (m ++ '(' :: (u ++ [')'])) := hw.trimmed_call.head
  have hline : '\n' ∉ m ++ '(' :: (u ++ [')']) := by
    intro hm
    rw [hwe] at hlw
    exact hlw (List.mem_append_right _ (List.mem_append_right [' ', '-', '>', ' '] hm))
  rw [hwe, readEmit_arrow hline, trimStart_of_head hcall] at hr
  cases hr
  refine ⟨?_, rfl⟩
  rw [hwe]
  obtain ⟨c, call, hcall⟩ := List.exists_cons_of_ne_nil (show m ++ '(' :: (u ++ [')']) ≠ [] by simp)
  rw [hcall]
  rfl

theorem restOfLine?_cases {e : Text} (hs : Calls s t x y m z v) (hw : Calls w t [' '] [' '] m [] u)
    (hl : '\n' ∉ s) (hlw : '\n' ∉ w) (hp : ∀ c ∈ p, c ≠ '-')
    (hpl : ∀ c, p.getLast? = some c → isBlank c = false) (h : (after p s).bind restOfLine? = none)
    (hr : (after p w).bind restOfLine? = some e) :
    w = p ++ ' ' :: e ∧ e = '-' :: '>' :: ' ' :: (m ++ '(' :: (u ++ [')'])) := by
  obtain ⟨q, hq, he⟩ := Option.bind_eq_some_iff.1 hr
  have hwe := after_eq_some_iff.1 hq
  rcases hs.keyword_cases hw hwe hp hpl (fun c k hck => blank_of_restOfLine? (hck ▸ he)) with
    rfl | ⟨c, k, hc, rfl, hne⟩
  · rw [restOfLine?_space (stops_cons (by decide) _) (by simp) ?_] at he
    · cases he
      exact ⟨hwe, rfl⟩
    · intro hm
      rw [hwe] at hlw
      exact hlw (by simp [hm])
  · have hrest := restOfLine?_blank_cons hc hne fun hm => hl (List.mem_append_right _ hm)
    rw [after_self, Option.bind_some, hrest] at h
    cases h

theorem readPrint_eq (s : Text) : Simple.readPrint s =
    ((after "print".toList s).bind restOfLine?).map .print := by
  simp only [Simple.readPrint, Option.bind_eq_bind, Option.map_eq_bind, Option.bind_assoc]
  rfl

theorem readSleep_eq (s : Text) : Simple.readSleep s =
    ((after "sleep".toList s).bind restOfLine?).map fun e => .sleep (Value.read e) := by
  simp only [Simple.readSleep, Option.bind_eq_bind, Option.map_eq_bind, Option.bind_assoc]
  rfl

theorem stands_print (hs : Calls s t x y m z v) (hw : Calls w t [' '] [' '] m [] u) (hl : '\n' ∉ s)
    (hlw : '\n' ∉ w) (h : Simple.readPrint s = none) (hr : Simple.readPrint w = some r) : Stands w r := by
  rw [readPrint_eq] at h hr
  obtain ⟨e, he, rfl⟩ := Option.map_eq_some_iff.1 hr
  obtain ⟨hwe, -⟩ := hs.restOfLine?_cases hw hl hlw (forall_of_all rfl)
    (trimmed_of_forall (forall_of_all rfl)).last (Option.map_eq_none_iff.1 h) he
  exact ⟨hwe.symm, rfl⟩

theorem write_read_dash {e : Text} (h : Trimmed ('-' :: e)) :
    (Value.read ('-' :: e)).write = '-' :: e := by
  have hr := Value.readsAs ('-' :: e)
  rw [h.trim_eq] at hr
  generalize Value.read ('-' :: e) = v at hr
  cases hr with
  | empty h => cases h
  | synth b name _ _ _ _ h => cases h
  | object u _ _ h => cases h
  | plain _ _ hw _ => exact hw

theorem stands_sleep (hs : Calls s t x y m z v) (hw : Calls w t [' '] [' '] m [] u) (hl : '\n' ∉ s)
    (hlw : '\n' ∉ w) (h : Simple.readSleep s = none) (hr : Simple.readSleep w = some r) : Stands w r := by
  rw [readSleep_eq] at h hr
  obtain ⟨e, he, rfl⟩ := Option.map_eq_some_iff.1 hr
  obtain ⟨hwe, hee⟩ := hs.restOfLine?_cases hw hl hlw (forall_of_all rfl)
    (trimmed_of_forall (forall_of_all rfl)).last (Option.map_eq_none_iff.1 h) he
  have ht : Trimmed e := by
    have htw := hw.trimmed_text
    rw [hwe] at htw
    refine ⟨by rw [hee]; exact stops_cons (by decide) _, fun c hc => htw.last c ?_⟩
    rw [List.append_cons]
    exact last_append hc _
  have hv : (Value.read e).write = e := by
    rw [hee] at ht ⊢
    exact write_read_dash ht
  have hwrite : (Simple.sleep (Value.read e)).write = "sleep ".toList ++ (Value.read e).write := rfl
  refine ⟨?_, rfl⟩
  rw [hwrite, hv, hwe]
  rfl

theorem dashless_number {n rest : Text} (h : numberStart? w = some (n, rest)) : ∀ c ∈ n, c ≠ '-' := by
  have hdigit {a b l : Text} (hr : run? isDigit l = some (a, b)) : ∀ c ∈ a, c ≠ '-' := by
    rintro c hc rfl
    have hd := (run?_eq_some_iff.1 hr).2.1 _ hc
    revert hd
    decide
  rw [numberStart?] at h
  split at h
  · cases h
  · rename_i whole l hw
    split at h
    · cases h
      exact hdigit hw
    · rename_i part rest' hpart
      cases h
      exact dashless_append (hdigit hw) (dashless_append (a := ['.']) (forall_of_all rfl) (hdigit hpart))
  · rename_i hw
    cases h
    exact hdigit hw

theorem readKeyframe_eq_none (hs : Calls s t x y m z v) (hw : Calls w t [' '] [' '] m [] u)
    (hl : '\n' ∉ s) (h : Simple.readKeyframe s = none) : Simple.readKeyframe w = none := by
  rw [Option.eq_none_iff_forall_ne_some]
  intro r hr
  simp only [Simple.readKeyframe_eq, Option.bind_eq_some_iff, Option.map_eq_some_iff,
    after_eq_some_iff, Simple.readSeparator_eq_some_iff, Prod.exists] at hr
  obtain ⟨n, _, hn, rest, rfl, separator, e, hsep, -⟩ := hr
  have hb := blank_leading rest
  obtain ⟨p, hp⟩ : ∃ p, p = n ++ '%' :: leading rest ++ [Simple.separatorChar separator] := ⟨_, rfl⟩
  have hsplit : w = p ++ e := by
    have hrest := leading_append_trimStart rest
    rw [hsep] at hrest
    rw [Simple.append_numberStart? hn, hp]
    simp [hrest]
  have hdash : ∀ c ∈ p, c ≠ '-' := by
    rw [hp]
    refine dashless_append (dashless_append (dashless_number hn)
      (dashless_append (a := ['%']) (forall_of_all rfl) (dashless_blank hb))) ?_
    cases separator <;> exact forall_of_all rfl
  obtain ⟨k, ht, -⟩ := hw.start_of_append hsplit hdash fun c hc => by
    rw [hp, last_append (s := [Simple.separatorChar separator]) rfl] at hc
    obtain rfl := Option.some.inj hc
    exact Simple.stops_separator separator [] _ rfl
  obtain ⟨q, hsq, hq⟩ := hs.eq_append ht
  have hne : trimStart (k ++ q) ≠ [] := by
    have hst := hs.trimmed_text
    rw [hsq] at hst
    exact hst.trimStart_ne_nil (by simp [hq])
  have hread := Simple.readKeyframe_append hn hb separator hne fun hm => hl (by
    rw [hsq]
    exact List.mem_append_right _ hm)
  have hs' : s = n ++ '%' :: (leading rest ++ Simple.separatorChar separator :: (k ++ q)) := by
    rw [hsq, hp]
    simp
  rw [hs', hread] at h
  cases h

theorem name_ne_arrow {d b c : Text} (hw : Calls w t [' '] [' '] m [] u) (hb : Blank b)
    (hd : ∀ x ∈ d, (notBlank x && x != '=') = true) :
    '-' :: '>' :: ' ' :: (m ++ '(' :: (u ++ [')'])) ≠ d ++ (b ++ '=' :: c) := by
  intro h
  have hcall : Stops isBlank (m ++ '(' :: (u ++ [')'])) := hw.trimmed_call.head
  have hrest := eq_of_arrow hd (Simple.stops_name hb c) (by decide) h
  obtain ⟨f, m', hm⟩ := List.exists_cons_of_ne_nil hw.named
  have hf := hw.method f (by simp [hm])
  -- after the arrow and a blank the equals sign would start the call
  have heq : trimStart (' ' :: (m ++ '(' :: (u ++ [')']))) = '=' :: c := by
    rw [← hrest, trimStart_blank_append hb, trimStart_of_head (stops_cons (by decide) c)]
  rw [trimStart_space hcall, hm, List.cons_append, List.cons.injEq] at heq
  exact ne_of_isMethodChar hf (by decide +kernel) heq.1

/-- The equals sign of a declaration does not come after the arrow. -/
theorem equals_of_declaration {a name b c : Text} (hw : Calls w t [' '] [' '] m [] u) (ha : Blank a)
    (hb : Blank b) (hname : ∀ x ∈ name, (notBlank x && x != '=') = true)
    (h : w = "let".toList ++ a ++ name ++ b ++ '=' :: c) :
    ∃ k, t = "let".toList ++ a ++ name ++ b ++ '=' :: k := by
  have he : ("let".toList ++ a) ++ (name ++ (b ++ '=' :: c)) =
      (t ++ [' ']) ++ '-' :: '>' :: ' ' :: (m ++ '(' :: (u ++ [')'])) := by
    have hw' := hw.text_write
    rw [h] at hw'
    simpa using hw'
  obtain ⟨e, ht, hv⟩ := tail_of_append he (dashless_append (forall_of_all rfl) (dashless_blank ha))
  rcases List.append_eq_append_iff.1 hv with ⟨d, rfl, hd⟩ | ⟨d, rfl, hd⟩
  · rw [List.append_cons] at hd
    obtain ⟨k, rfl, -⟩ := tail_of_append hd (dashless_append (dashless_blank hb) (forall_of_all rfl))
    have hk : t ++ [' '] = ("let".toList ++ a ++ name ++ b ++ ['=']) ++ k := by
      rw [ht]
      simp
    rcases List.append_eq_append_iff.1 hk with ⟨l, hl, hlk⟩ | ⟨l, hl, -⟩
    · cases l with
      | nil => exact ⟨[], by simpa using hl.symm⟩
      | cons x l =>
        rw [List.cons_append, List.cons.injEq] at hlk
        have hx : (t ++ x :: l).getLast? = some '=' := by
          rw [← hl]
          exact last_append rfl _
        rw [(List.append_eq_nil_iff.1 hlk.2.symm).1, ← hlk.1, last_append (s := [' ']) rfl] at hx
        cases hx
    · exact ⟨l, by rw [hl]; simp⟩
  · exact absurd hd (hw.name_ne_arrow hb fun x hx => hname x (List.mem_append_right _ hx))

theorem declaration?_eq_none (hs : Calls s t x y m z v) (hw : Calls w t [' '] [' '] m [] u)
    (hl : '\n' ∉ s) (h : Simple.declaration? s = none) : Simple.declaration? w = none := by
  rw [Option.eq_none_iff_forall_ne_some]
  rintro ⟨name, start⟩ hr
  obtain ⟨a, b, c, ha, hblank, hb, hne, hname, -, -, hwe⟩ := Simple.declaration?_eq_some_iff.1 hr
  obtain ⟨k, ht⟩ := hw.equals_of_declaration hblank hb hname hwe
  rw [List.append_cons] at ht
  obtain ⟨q, hsq, -⟩ := hs.eq_append ht
  have hd : Simple.declaration? s = some (name, trimStart (k ++ q)) := by
    refine Simple.declaration?_eq_some_iff.2 ⟨a, b, k ++ q, ha, hblank, hb, hne, hname, rfl, ?_, ?_⟩
    · intro hm
      rw [hsq] at hl
      exact hl (List.mem_append_right _ ((List.dropWhile_suffix _).subset hm))
    · rw [hsq]
      simp
  rw [h] at hd
  cases hd

theorem triggering?_eq_none (hs : Calls s t x y m z v) (hw : Calls w t [' '] [' '] m [] u)
    (hl : '\n' ∉ s) (h : Simple.triggering? s = none) : Simple.triggering? w = none := by
  rw [Option.eq_none_iff_forall_ne_some]
  rintro ⟨name, start⟩ hr
  obtain ⟨n, rest, -, hne, hn, -, -, -, hwe⟩ := Simple.triggering?_eq_some_iff.1 hr
  obtain ⟨d, n, rfl⟩ := List.exists_cons_of_ne_nil hne
  have hd := hn d (by simp)
  obtain ⟨k, ht, hk⟩ := hw.start_of_append (p := ['.']) hwe (forall_of_all rfl)
    (trimmed_of_forall (forall_of_all rfl)).last
  cases k with
  | nil =>
    rw [(List.cons.inj hk).1] at hd
    revert hd
    decide
  | cons e k =>
    rw [(List.cons.inj hk).1] at hd
    obtain ⟨q, hsq, -⟩ := hs.eq_append ht
    have hsplit : s = '.' :: ((e :: k ++ q).takeWhile Simple.isTriggerChar ++
        (e :: k ++ q).dropWhile Simple.isTriggerChar) := by
      rw [List.takeWhile_append_dropWhile]
      exact hsq
    have hsome := Simple.triggering?_eq_some_iff.2 ⟨(e :: k ++ q).takeWhile Simple.isTriggerChar,
      (e :: k ++ q).dropWhile Simple.isTriggerChar, rfl, by simp [hd],
      fun c hc => List.mem_takeWhile_imp hc, stops_dropWhile _ _, rfl, ?_, hsplit⟩
    · rw [h] at hsome
      cases hsome
    · intro hm
      rw [hsplit] at hl
      exact hl (List.mem_cons_of_mem _ (List.mem_append_right _ ((List.dropWhile_suffix _).subset hm)))

end Calls

end Devalang
