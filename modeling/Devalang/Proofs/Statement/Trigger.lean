import Devalang.Proofs.Statement.Arguments
import Devalang.Proofs.Statement.Restated

/-! The text of a trigger is read as the same trigger again. -/
namespace Devalang
open Text Nesting

namespace Argument
variable {d : Option Duration} {e : Delimiter} {t : Text} {ts : List Text} {p : Property}
  {ps pending : List Property} {as : List Argument} {v : Value}

theorem tidy_cons (ht : Trimmed t) (hne : t ≠ []) (hq : Quiet (PieceKind.separates separator) [] t)
    (hr : ts ≠ [] → run [] t = []) (h : Tidy separator ts) : Tidy separator (t :: ts) where
  trimmed := by simpa [ht] using h.trimmed
  nonempty := by simpa [hne] using h.nonempty
  quiet := by simpa [hq] using h.quiet
  closed x hx := by
    cases ts with
    | nil => simp at hx
    | cons u us =>
      rcases List.mem_cons.1 hx with rfl | hx
      · exact hr (by simp)
      · exact h.closed x hx

/-- A text that is one part and leaves nothing open. -/
structure Whole (t : Text) : Prop where
  trimmed : Trimmed t
  nonempty : t ≠ []
  quiet : Quiet (PieceKind.separates separator) [] t
  closed : run [] t = []

theorem Whole.tidy_cons (ht : Whole t) (h : Tidy separator ts) : Tidy separator (t :: ts) :=
  Argument.tidy_cons ht.trimmed ht.nonempty ht.quiet (fun _ => ht.closed) h

structure Object (ps : List Property) (t : Text) : Prop extends Whole t where
  reads : Value.read t = .object ps
  passes : Duration.ofText? t = none

theorem object_write (h : ∀ p ∈ ps, p.Stable) : Object ps (writeObject (ps.map Property.write)) := by
  obtain ⟨hr, hq⟩ := join_properties h
  have ht := Value.trimmed_braces (Text.join [',', ' '] (ps.map Property.write))
  exact {
    trimmed := ht
    nonempty := by simp [writeObject]
    quiet := Value.quiet_braces (by decide) hq hr
    closed := Value.run_braces hq hr
    reads := Value.read_writeObject h
    passes := Duration.ofText?_eq_none ht (by decide) }

theorem tidy_writePending (h : ∀ p ∈ pending, p.Stable) (ht : Tidy separator ts) :
    Tidy separator (writePending pending ++ ts) := by
  cases pending with
  | nil => exact ht
  | cons p ps => exact (object_write h).toWhole.tidy_cons ht

theorem tidy_nil : Tidy separator [] := ⟨by simp, by simp, by simp, by simp⟩

theorem tidy_writeArguments (hp : ∀ p ∈ pending, p.Stable) (h : Rereads d as) :
    Tidy separator (writeArguments pending as) := by
  induction h generalizing pending with
  | nil =>
    rw [writeArguments, ← List.append_nil (writePending pending)]
    exact tidy_writePending hp tidy_nil
  | property p as stable passes more ih =>
    rw [writeArguments]
    refine ih fun q hq => ?_
    rcases List.mem_append.1 hq with hq | hq
    · exact hp q hq
    · rw [List.mem_singleton.1 hq]
      exact stable
  | value v as single passes last more ih =>
    rw [writeArguments]
    refine tidy_writePending hp (tidy_cons single.trimmed single.nonempty single.quiet (fun hne => ?_)
      (ih (by simp)))
    refine last fun hn => hne ?_
    rw [hn]
    rfl

theorem ofProperties_passes (h : d = none → ∀ p ∈ ps, p.duration? = none) :
    ofProperties d ps = (d, ps.map .property) := by
  induction ps with
  | nil => rfl
  | cons p ps ih =>
    have hi := ih fun hd q hq => h hd q (List.mem_cons_of_mem p hq)
    rw [ofProperties.eq_def]
    simp only
    split
    · rename_i e hp
      rw [h rfl p (by simp)] at hp
      cases hp
    · rw [hi]
      rfl

theorem ofTexts_writePending (h : ∀ p ∈ pending, p.Stable ∧ (d = none → p.duration? = none))
    (hts : ofTexts d ts = (d, as)) :
    ofTexts d (writePending pending ++ ts) = (d, pending.map .property ++ as) := by
  cases pending with
  | nil => exact hts
  | cons p ps =>
    have ho := object_write fun q hq => (h q hq).1
    have hpass := ofProperties_passes fun hd q hq => (h q hq).2 hd
    rw [writePending, List.singleton_append, ofTexts_object (fun _ => ho.passes) ho.reads, hpass, hts]

theorem ofTexts_writeArguments (hp : ∀ p ∈ pending, p.Stable ∧ (d = none → p.duration? = none))
    (h : Rereads d as) :
    ofTexts d (writeArguments pending as) = (d, pending.map .property ++ as) := by
  induction h generalizing pending with
  | nil =>
    rw [writeArguments, ← List.append_nil (writePending pending)]
    exact ofTexts_writePending hp rfl
  | property p as stable passes more ih =>
    rw [writeArguments, ih, List.map_append, List.append_assoc]
    · rfl
    · intro q hq
      rcases List.mem_append.1 hq with hq | hq
      · exact hp q hq
      · rw [List.mem_singleton.1 hq]
        exact ⟨stable, passes⟩
  | value v as single passes last more ih =>
    rw [writeArguments]
    refine ofTexts_writePending hp ?_
    have hi := @ih [] (by simp)
    have hpass : Passes d v.write := passes
    rw [ofTexts_value hpass (by rw [single.reads]; exact single.other), single.reads, hi]
    rfl

theorem mem_writeArguments (hp : ∀ p ∈ pending, p.Stable) (h : Rereads d as)
    (ht : t ∈ writeArguments pending as) : run [] t = [] ∨ ∃ v, .value v ∈ as ∧ t = v.write := by
  have hpend : ∀ ps : List Property, (∀ p ∈ ps, p.Stable) → t ∈ writePending ps → run [] t = [] := by
    intro ps hs hm
    cases ps with
    | nil => simp [writePending] at hm
    | cons p ps =>
      rw [List.mem_singleton.1 hm]
      exact (object_write hs).closed
  induction h generalizing pending with
  | nil => exact Or.inl (hpend pending hp ht)
  | property p as stable passes more ih =>
    have hall : ∀ q ∈ pending ++ [p], q.Stable := by
      intro q hq
      rcases List.mem_append.1 hq with hq | hq
      · exact hp q hq
      · rw [List.mem_singleton.1 hq]
        exact stable
    rcases ih hall ht with hclosed | ⟨v, hv, he⟩
    · exact Or.inl hclosed
    · exact Or.inr ⟨v, List.mem_cons_of_mem _ hv, he⟩
  | value v as single passes last more ih =>
    rw [writeArguments, List.mem_append, List.mem_cons] at ht
    rcases ht with ht | rfl | ht
    · exact Or.inl (hpend pending hp ht)
    · exact Or.inr ⟨v, by simp, rfl⟩
    · rcases @ih [] (by simp) ht with hclosed | ⟨w, hw, he⟩
      · exact Or.inl hclosed
      · exact Or.inr ⟨w, List.mem_cons_of_mem _ hw, he⟩

theorem run_of_value {found : Option Duration} (h : Tidy separator ts)
    (hv : .value v ∈ (ofTexts found ts).2) : ∃ t ∈ ts, run [] v.write = run [] t := by
  induction ts generalizing found with
  | nil => simp [ofTexts] at hv
  | cons t ts ih =>
    have hrest {f : Option Duration} (hm : .value v ∈ (ofTexts f ts).2) :
        ∃ u ∈ t :: ts, run [] v.write = run [] u := by
      obtain ⟨u, hu, hr⟩ := ih h.tail hm
      exact ⟨u, List.mem_cons_of_mem t hu, hr⟩
    rcases ofTexts_cons found t ts with ⟨e, -, -, he⟩ | ⟨p, ps, hp, hr⟩ | ⟨hp, hval⟩
    · rw [he] at hv
      exact hrest hv
    · rw [ofTexts_object hp hr] at hv
      obtain ⟨qs, hqs, -⟩ := ofProperties_spec found (p :: ps)
      rw [hqs] at hv
      rcases List.mem_append.1 hv with hm | hm
      · obtain ⟨q, -, hq⟩ := List.mem_map.1 hm
        cases hq
      · exact hrest hm
    · rw [ofTexts_value hp hval] at hv
      rcases List.mem_cons.1 hv with hm | hm
      · cases hm
        exact ⟨t, by simp, (single_of_read (h.trimmed t (by simp)) (h.quiet t (by simp)) hval).2⟩
      · exact hrest hm

theorem trimmed_join (h : Tidy separator ts) : Trimmed (Text.join comma ts) ∧
    (Text.join comma ts = [] → ts = []) := by
  induction ts with
  | nil => exact ⟨trimmed_nil, fun _ => rfl⟩
  | cons t ts ih =>
    have ht := h.trimmed t (by simp)
    have hne := h.nonempty t (by simp)
    cases ts with
    | nil => exact ⟨ht, fun he => absurd he hne⟩
    | cons u us =>
      obtain ⟨hi, hin⟩ := ih h.tail
      have hjn : Text.join comma (u :: us) ≠ [] := fun he => by simpa using hin he
      exact ⟨ht.append hi hjn fun he => absurd he hne, fun he => absurd he (by simp [Text.join, hne])⟩

/-- The parts of a trigger after its name: the duration, if there is one, and the arguments. -/
def writeStart (d : Option Duration) (ts : List Text) : Text :=
  Text.join [' '] ((d.map Duration.toText).toList ++
    if (Text.join comma ts).isEmpty then [] else [Text.join comma ts])

theorem writeStart_none (ts : List Text) : writeStart none ts = Text.join comma ts := by
  by_cases h : Text.join comma ts = [] <;> simp [writeStart, h, Text.join]

theorem writeStart_some (x : Duration) (ts : List Text) : writeStart (some x) ts =
    if Text.join comma ts = [] then x.toText else x.toText ++ ' ' :: Text.join comma ts := by
  split <;> rename_i h <;> simp [writeStart, h, Text.join]

theorem whole_toText {s : Text} {x : Duration} (h : Duration.ofText? s = some x) : Whole x.toText := by
  obtain ⟨hne, hchars⟩ := Duration.toText_chars h
  refine ⟨trimmed_of_forall fun c hc => (of_isDurationChar (hchars c hc)).1, hne,
    quiet_of_forall fun c hc => ?_, run_of_forall fun c hc => (of_isDurationChar (hchars c hc)).2.2⟩
  obtain ⟨hb, hcomma, -⟩ := of_isDurationChar (hchars c hc)
  simp [PieceKind.separates, hb, hcomma, separator]

theorem writeStart_spec (hd : ∀ e, d = some e → ∃ s, Duration.ofText? s = some e)
    (h : Tidy separator ts) (e : Delimiter) :
    Trimmed (writeStart d ts) ∧
      arguments (writeStart d ts) = (d.map Duration.toText).toList ++ ts ∧
      ((∀ t ∈ ts, e ∉ (run [] t).delimiters) → e ∉ (run [] (writeStart d ts)).delimiters) := by
  obtain ⟨hjt, hjn⟩ := trimmed_join h
  have hsep : PieceKind.separates separator ',' = true := by decide
  have hjs : separatedBy separator (Text.join comma ts) = ts :=
    h.separatedBy_join rfl rfl hsep blank_space
  have hjr : (∀ t ∈ ts, e ∉ (run [] t).delimiters) → e ∉ (run [] (Text.join comma ts)).delimiters :=
    (h.notMem_run_join hsep blank_space).2
  cases d with
  | none =>
    rw [writeStart_none]
    exact ⟨hjt, hjs, hjr⟩
  | some x =>
    obtain ⟨s, hs⟩ := hd x rfl
    have hx := whole_toText hs
    rw [writeStart_some]
    split
    · rename_i hj
      obtain rfl := hjn hj
      refine ⟨hx.trimmed, ?_, fun _ => by simp [hx.closed, delimiters]⟩
      rw [arguments_eq, separatedBy_quiet rfl rfl hx.quiet, hx.trimmed.part_eq hx.nonempty]
      rfl
    · rename_i hj
      have hn : next [] ' ' = [] := by decide
      have htrim := hx.trimmed.append (s := [' ']) hjt hj fun hn => absurd hn hx.nonempty
      refine ⟨by simpa using htrim, ?_, fun ht => ?_⟩
      · rw [arguments_eq, separatedBy_append rfl rfl hx.quiet hx.closed (by decide),
          hx.trimmed.part_eq hx.nonempty, hjs]
        rfl
      · rw [run_append, hx.closed, run_cons, hn]
        exact hjr ht

theorem readAll_writeStart (hd : ∀ e, d = some e → ∃ s, Duration.ofText? s = some e)
    (h : Rereads d as) : readAll (writeStart d (writeArguments [] as)) = (d, as) := by
  have htidy := @tidy_writeArguments d [] as (by simp) h
  have hread := @ofTexts_writeArguments d [] as (by simp) h
  rw [readAll, (writeStart_spec hd htidy .brace).2.1]
  cases d with
  | none => exact hread
  | some e =>
    obtain ⟨s, hs⟩ := hd e rfl
    rw [Option.map_some, Option.toList_some, List.singleton_append,
      ofTexts_duration (Duration.ofText?_toText hs)]
    exact hread

end Argument

namespace Simple
variable {indent : Nat} {s name start : Text} {r : Simple} {following : List Text}

def isTriggerChar (c : Char) : Bool := notBlank c && c != '{' && c != '(' && c != ','

theorem triggering?_eq_some_iff : triggering? s = some (name, start) ↔
    ∃ n rest, name = '.' :: n ∧ n ≠ [] ∧ (∀ c ∈ n, isTriggerChar c = true) ∧
      Stops isTriggerChar rest ∧ start = trimStart rest ∧ '\n' ∉ start ∧ s = '.' :: n ++ rest := by
  constructor
  · intro h
    simp only [triggering?, Option.bind_eq_bind, Option.bind_eq_some_iff, after_eq_some_iff,
      Prod.exists, run?_eq_some_iff, Option.ite_none_right_eq_some, inLine_iff, Option.pure_def,
      Option.some.injEq, Prod.mk.injEq] at h
    obtain ⟨_, rfl, n, rest, ⟨hne, hn, hstop, rfl⟩, hline, rfl, rfl⟩ := h
    exact ⟨n, rest, rfl, hne, hn, hstop, rfl, hline, rfl⟩
  · rintro ⟨n, rest, rfl, hne, hn, hstop, rfl, hline, rfl⟩
    have hrun : run? (fun c => notBlank c && c != '{' && c != '(' && c != ',') (n ++ rest) =
        some (n, rest) := run?_eq_some_iff.2 ⟨hne, hn, hstop, rfl⟩
    simp only [triggering?, List.cons_append, after_head, hrun, Option.bind_eq_bind, Option.bind_some,
      inLine_iff.2 hline, if_true, Option.pure_def]

theorem startsAs_of_readTrigger {n : Nat} (h : readTrigger indent following s = some (r, n)) :
    Statement.StartsAs s false := by
  obtain ⟨t, rfl⟩ := Statement.keyword_of_bind h
  exact ⟨stops_cons (by decide) _, rfl, rfl, rfl⟩

theorem read?_of_readTrigger {n : Nat} (h : readTrigger indent following s = some (r, n)) :
    Statement.read? indent following s = some (.simple r, n) := by
  obtain ⟨hs, hd⟩ : Statement.single? s = none ∧ declaration? s = none := by
    obtain ⟨t, rfl⟩ := Statement.keyword_of_bind h
    exact ⟨Statement.single?_trigger t, rfl⟩
  exact Statement.read?_eq_some_iff.2
    (Or.inr ⟨hs, _, Statement.going?_eq_some_iff.2 (Or.inr (Or.inl ⟨hd, h⟩)), rfl⟩)

theorem write_trigger (name : Text) (d : Option Duration) (as : List Argument)
    (hne : ∀ e, d = some e → e.toText ≠ []) :
    (trigger name d as).write = name ++
      if Argument.writeStart d (writeArguments [] as) = [] then []
      else ' ' :: Argument.writeStart d (writeArguments [] as) := by
  have hw : (trigger name d as).write = writeTrigger name d as := rfl
  rw [hw, writeTrigger, Argument.writeStart]
  generalize Text.join comma (writeArguments [] as) = args
  cases d with
  | none =>
    by_cases ha : args = []
    · simp [ha, Text.join]
    · simp [ha, Text.join]
  | some e =>
    have he := hne e rfl
    by_cases ha : args = []
    · simp [ha, Text.join, he]
    · simp [ha, Text.join, he]

theorem triggering?_write {n a : Text} (hne : n ≠ []) (hn : ∀ c ∈ n, isTriggerChar c = true)
    (ha : Trimmed a) (hl : '\n' ∉ a) :
    triggering? ('.' :: n ++ if a = [] then [] else ' ' :: a) = some ('.' :: n, a) := by
  refine triggering?_eq_some_iff.2 ⟨n, _, rfl, hne, hn, ?_, ?_, hl, rfl⟩
  · split
    · exact stops_nil _
    · exact stops_cons (by decide) a
  · split
    · rename_i h
      rw [h]
      rfl
    · exact (trimStart_space ha.head).symm

theorem brace_notMem_writeArguments {d : Option Duration} {as : List Argument}
    (hda : Argument.ofTexts none (arguments start) = (d, as)) (hre : Argument.Rereads d as)
    (h : .brace ∉ (run [] start).delimiters) :
    ∀ t ∈ writeArguments [] as, .brace ∉ (run [] t).delimiters := by
  have htidy : Tidy Argument.separator (arguments start) := tidy_separatedBy rfl rfl start
  have hsep : PieceKind.separates Argument.separator ',' = true := by decide
  have hparts : ∀ t ∈ arguments start, .brace ∉ (run [] t).delimiters := by
    rw [← htidy.notMem_run_join hsep blank_space, Argument.arguments_eq,
      delimiters_separatedBy rfl rfl hsep blank_space (Or.inl rfl)]
    exact h
  intro t ht
  rcases Argument.mem_writeArguments (by simp) hre ht with hr | ⟨v, hv, rfl⟩
  · rw [hr]
    simp [delimiters]
  · have hv' : .value v ∈ (Argument.ofTexts none (arguments start)).2 := by rwa [hda]
    obtain ⟨u, hu, hr⟩ := Argument.run_of_value htidy hv'
    rw [hr]
    exact hparts u hu

theorem last_trigger {n a : Text} {c : Char} (hne : n ≠ [])
    (hn : ∀ c ∈ n, isTriggerChar c = true) (ha : Trimmed a)
    (h : ('.' :: n ++ if a = [] then [] else ' ' :: a).getLast? = some c) : isBlank c = false := by
  split at h
  · rw [List.append_nil, List.getLast?_cons_of_ne_nil hne] at h
    have hb := hn c (List.mem_of_getLast? h)
    simp only [isTriggerChar, Bool.and_eq_true, notBlank_iff] at hb
    exact hb.1.1.1
  · rename_i hane
    rw [List.append_cons, List.getLast?_append_of_ne_nil _ hane] at h
    exact ha.last c h

theorem restated_of_trigger (h : readTrigger indent following s = some (r, 0)) (hw : '\n' ∉ r.write) :
    r.Restated following s := by
  obtain ⟨name, start, hd, hr, hn⟩ := readTrigger_eq_some_iff.1 h
  obtain ⟨n, rest, rfl, hne, hchars, -, -, -, -⟩ := triggering?_eq_some_iff.1 hd
  obtain ⟨d, as, hda⟩ : ∃ d as, Argument.readAll start = (d, as) := ⟨_, _, rfl⟩
  rw [continueWhile_zero hn, hda] at hr
  dsimp only at hr
  have hre : Argument.Rereads d as := by
    have h := Argument.rereads_readAll start
    rwa [hda] at h
  have hdur : ∀ e, d = some e → ∃ s, Duration.ofText? s = some e := fun e he =>
    Argument.ofText?_of_readAll (by rw [hda]; exact he)
  obtain ⟨hat, -, hopen⟩ :=
    Argument.writeStart_spec hdur (@Argument.tidy_writeArguments d [] as (by simp) hre) .brace
  have hargs := Argument.readAll_writeStart hdur hre
  have hwrite := write_trigger ('.' :: n) d as fun e he => by
    obtain ⟨t, ht⟩ := hdur e he
    exact (Duration.toText_chars ht).1
  rw [← hr] at hwrite
  generalize Argument.writeStart d (writeArguments [] as) = a at *
  have hl : '\n' ∉ a := by
    intro hm
    rw [hwrite, if_neg (List.ne_nil_of_mem hm)] at hw
    exact hw (by simp [hm])
  have hread (j : Nat) (other : List Text)
      (hother : other.map continuesChain = following.map continuesChain) :
      readTrigger j other r.write = some (r, 0) := by
    have hc : continueWhile .brace j a other = (a, 0) := by
      refine continueWhile_alike (fun hm => ?_) (by simpa using congrArg List.length hother) hn
      by_contra hno
      rw [openDelimiters_eq, List.mem_reverse] at hm hno
      exact hopen (brace_notMem_writeArguments hda hre hno) hm
    refine readTrigger_eq_some_iff.2 ⟨'.' :: n, a, ?_, ?_, ?_⟩
    · rw [hwrite]
      exact triggering?_write hne hchars hat hl
    · rw [hc, hargs, hr]
    · rw [hc]
  refine restated_of_starts (startsAs_of_readTrigger h) (startsAs_of_readTrigger (hread 0 following rfl))
    ?_ ?_ fun j other hother => read?_of_readTrigger (hread j other hother)
  · simp [hwrite]
  · intro c hc
    rw [hwrite] at hc
    exact last_trigger hne hchars hat hc

end Simple

end Devalang
