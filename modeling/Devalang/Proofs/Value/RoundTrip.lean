import Devalang.Value.Reader
import Devalang.Proofs.Token.Shape

/-! Writing a value and reading it again gives the same value. -/
namespace Devalang
open Nesting

namespace Text
variable {s t u : Text} {first last : Char}

theorem between?_eq_some_iff : between? first last s = some t ↔ s = first :: (t ++ [last]) := by
  cases s with
  | nil => simp [between?]
  | cons c s =>
    simp only [between?, Option.ite_none_right_eq_some, Option.some.injEq, List.cons.injEq]
    constructor
    · rintro ⟨⟨rfl, hl⟩, rfl⟩
      obtain ⟨u, rfl⟩ := List.getLast?_eq_some_iff.1 hl
      simp
    · rintro ⟨rfl, rfl⟩
      simp

theorem synthName?_eq_some_iff : synthName? s = some t ↔ t ≠ [] ∧ (∀ c ∈ t, isBlank c = false) ∧
    ∃ b, b ≠ [] ∧ Blank b ∧ s = "synth".toList ++ b ++ t := by
  constructor
  · intro h
    simp only [synthName?] at h
    split at h
    · rename_i c r hr
      rw [after_eq_some_iff] at hr
      simp only [Option.ite_none_right_eq_some, Option.some.injEq, Bool.and_eq_true,
        Bool.not_eq_true', List.isEmpty_eq_false_iff, List.all_eq_true] at h
      obtain ⟨⟨⟨hc, hne⟩, hall⟩, rfl⟩ := h
      have hb : Blank (c :: leading r) := by
        intro d hd
        rcases List.mem_cons.1 hd with rfl | hd
        · exact hc
        · exact blank_leading r d hd
      refine ⟨hne, by simpa using hall, c :: leading r, by simp, hb, ?_⟩
      rw [hr, List.append_assoc, List.cons_append, leading_append_trimStart]
    · cases h
  · rintro ⟨hne, ht, b, hb, hblank, rfl⟩
    cases b with
    | nil => exact absurd rfl hb
    | cons c b =>
      have hstart : trimStart (b ++ t) = t := by
        rw [trimStart_blank_append fun d hd => hblank d (List.mem_cons_of_mem c hd),
          trimStart_of_head (trimmed_of_forall ht).head]
      have hafter : after "synth".toList ("synth".toList ++ c :: b ++ t) = some (c :: (b ++ t)) := by
        rw [after_eq_some_iff]
        simp
      simp only [synthName?, hafter, hstart]
      simpa [hblank c (by simp), hne] using ht

end Text

namespace Value
variable {s t u : Text} {name : Text}

theorem write_synth (name : Text) : (synth name).write = "synth ".toList ++ name := rfl

theorem write_object (ps : List Property) :
    (object ps).write = '{' :: (Text.join [',', ' '] (ps.map Property.write) ++ ['}']) := by
  rw [← Property.writeAll_eq_map]
  rfl

@[simp] theorem read_trim (s : Text) : Value.read (Text.trim s) = Value.read s := by
  rw [Value.read_eq, Value.read_eq, Text.trim_trim]

theorem trimmed_braces (u : Text) : Text.Trimmed ('{' :: (u ++ ['}'])) := by
  have h := (Text.trimmed_singleton (c := '{') (by decide)).append (s := u)
    (Text.trimmed_singleton (c := '}') (by decide)) (by simp) (by simp)
  simpa using h

theorem read_braces (hq : Quiet (· == '}') [] u) (hr : run [] u = []) :
    Value.read ('{' :: (u ++ ['}'])) = .object (Property.readAll u) := by
  have hd : Text.isDigit '{' = false := by decide
  rw [Value.read_eq, (trimmed_braces u).trim_eq]
  simp [Text.isNumber, hd, Text.between?, Text.synthName?, Text.after,
    Text.isWhole_braces_iff.2 ⟨hq, hr⟩]

theorem trimmed_synth (hne : name ≠ []) (hname : ∀ c ∈ name, Text.isBlank c = false) :
    Text.Trimmed ("synth ".toList ++ name) := by
  have h := (Text.trimmed_of_forall (s := "synth".toList) (Text.forall_of_all rfl)).append (s := [' '])
    (Text.trimmed_of_forall hname) hne (by simp)
  simpa using h

theorem read_synth (hne : name ≠ []) (hname : ∀ c ∈ name, Text.isBlank c = false) :
    Value.read ("synth ".toList ++ name) = .synth name := by
  have hs : Text.synthName? ('s' :: 'y' :: 'n' :: 't' :: 'h' :: ' ' :: name) = some name :=
    Text.synthName?_eq_some_iff.2 ⟨hne, hname, [' '], by simp, Text.blank_space, rfl⟩
  have hd : Text.isDigit 's' = false := by decide
  rw [Value.read_eq, (trimmed_synth hne hname).trim_eq]
  simp [Text.isNumber, hd, Text.between?, hs]

/-- How the text `t` without blanks around it reads as a value. -/
inductive ReadsAs (t : Text) : Value → Prop where
  | empty (h : t = []) : ReadsAs t (.object [])
  | synth (b name : Text) (blanks : b ≠ []) (blank : Text.Blank b) (nonempty : name ≠ [])
    (word : ∀ c ∈ name, Text.isBlank c = false) (h : t = "synth".toList ++ b ++ name) :
    ReadsAs t (.synth name)
  | object (u : Text) (quiet : Quiet (· == '}') [] u) (closed : run [] u = [])
    (h : t = '{' :: (u ++ ['}'])) : ReadsAs t (.object (Property.readAll u))
  /-- Any other value keeps its text. -/
  | plain (v : Value) (nonempty : t ≠ []) (write : v.write = t) (other : ∀ ps, v ≠ .object ps) :
    ReadsAs t v

theorem readsAs (s : Text) : ReadsAs (Text.trim s) (Value.read s) := by
  rw [Value.read_eq]
  simp only
  split
  · rename_i h
    exact .empty (List.isEmpty_iff.1 h)
  rename_i hne
  have hne : Text.trim s ≠ [] := fun h => hne (List.isEmpty_iff.2 h)
  split
  · rename_i h
    exact .plain _ hne h.symm (by simp)
  split
  · rename_i h
    exact .plain _ hne h.symm (by simp)
  split
  · exact .plain _ hne rfl (by simp)
  split
  · exact .plain _ hne rfl (by simp)
  split
  · rename_i content _ h
    exact .plain _ hne (by rw [Text.between?_eq_some_iff.1 h]; rfl) (by simp)
  · rename_i name _ h
    obtain ⟨hn, hw, b, hb, hblank, he⟩ := Text.synthName?_eq_some_iff.1 h
    exact .synth b name hb hblank hn hw he
  · split
    · rename_i u h
      split
      · rename_i hwhole
        rw [Text.between?_eq_some_iff.1 h] at hwhole ⊢
        obtain ⟨hq, hr⟩ := Text.isWhole_braces_iff.1 hwhole
        exact .object u hq hr rfl
      · exact .plain _ hne rfl (by simp)
    · exact .plain _ hne rfl (by simp)

/-- The text of a value that was read from the text `t` reads as the same value and is nested like
`t`. -/
structure Stable (t : Text) (v : Value) : Prop where
  reads : Value.read v.write = v
  trimmed : Text.Trimmed v.write
  nonempty : v.write ≠ []
  run : run [] v.write = run [] t
  quiet : ∀ p : Char → Bool, p '{' = false →
    (∀ c, Text.isBlank c = true → p ' ' = true → p c = true) → Quiet p [] t → Quiet p [] v.write

end Value

structure Property.Stable (p : Property) : Prop where
  reads : Property.read p.write = p
  trimmed : Text.Trimmed p.write
  nonempty : p.write ≠ []
  closed : run [] p.write = []
  comma : Quiet (· == ',') [] p.write
  brace : Quiet (· == '}') [] p.write

section Properties
variable {ps : List Property}

theorem Property.write_pair (k : Text) (v : Value) :
    (Property.pair k v).write = k ++ ':' :: ' ' :: v.write := by
  have h : (Property.pair k v).write = k ++ [':', ' '] ++ v.write := rfl
  rw [h, List.append_assoc]
  rfl

theorem tidy_properties (h : ∀ p ∈ ps, p.Stable) : Text.Tidy (· == .comma) (ps.map Property.write) := by
  have hall : ∀ t ∈ ps.map Property.write, ∃ p : Property, p.Stable ∧ p.write = t := by
    intro t ht
    obtain ⟨p, hp, rfl⟩ := List.mem_map.1 ht
    exact ⟨p, h p hp, rfl⟩
  constructor
  · intro t ht
    obtain ⟨p, hp, rfl⟩ := hall t ht
    exact hp.trimmed
  · intro t ht
    obtain ⟨p, hp, rfl⟩ := hall t ht
    exact hp.nonempty
  · intro t ht
    obtain ⟨p, hp, rfl⟩ := hall t ht
    rw [Text.separates_comma]
    exact hp.comma
  · intro t ht
    obtain ⟨p, hp, rfl⟩ := hall t (List.dropLast_subset _ ht)
    exact hp.closed

theorem join_properties (h : ∀ p ∈ ps, p.Stable) :
    run [] (Text.join [',', ' '] (ps.map Property.write)) = [] ∧
      Quiet (· == '}') [] (Text.join [',', ' '] (ps.map Property.write)) := by
  have hclosed : ∀ t ∈ ps.map Property.write, run [] t = [] := by
    intro t ht
    obtain ⟨p, hp, rfl⟩ := List.mem_map.1 ht
    exact (h p hp).closed
  have hbrace : ∀ t ∈ ps.map Property.write, Quiet (· == '}') [] t := by
    intro t ht
    obtain ⟨p, hp, rfl⟩ := List.mem_map.1 ht
    exact (h p hp).brace
  have hsep : PieceKind.separates (· == .comma) ',' = true := by rw [Text.separates_comma]; rfl
  refine ⟨Text.run_join hsep Text.blank_space hclosed, ?_⟩
  exact Text.quiet_join hsep Text.blank_space (Text.forall_of_all rfl)
    (fun t ht => hclosed t (List.dropLast_subset _ ht)) hbrace

theorem Value.read_writeObject (h : ∀ p ∈ ps, p.Stable) :
    Value.read (writeObject (ps.map Property.write)) = .object ps := by
  have hsep : PieceKind.separates (· == .comma) ',' = true := by rw [Text.separates_comma]; rfl
  have hitems : Text.items (Text.join [',', ' '] (ps.map Property.write)) = ps.map Property.write :=
    (tidy_properties h).separatedBy_join rfl rfl hsep Text.blank_space
  obtain ⟨hr, hq⟩ := join_properties h
  rw [writeObject, List.cons_append, Value.read_braces hq hr, Property.readAll, hitems, List.map_map]
  congr 1
  have hid : ps.map (Property.read ∘ Property.write) = ps.map id :=
    List.map_congr_left fun p hp => (h p hp).reads
  rw [hid, List.map_id]

theorem Property.stable_bare {x : Text} (ht : Text.Trimmed x) (hne : x ≠ []) (hr : run [] x = [])
    (hcolon : Quiet (· == ':') [] x) (hcomma : Quiet (· == ',') [] x) (hbrace : Quiet (· == '}') [] x) :
    (Property.bare x).Stable where
  reads := by
    have hw : (Property.bare x).write = x := rfl
    rw [hw, Property.read, Text.keyValue_quiet hcolon, ht.trim_eq]
  trimmed := ht
  nonempty := hne
  closed := hr
  comma := hcomma
  brace := hbrace

theorem Property.quiet_pair {p : Char → Bool} {k t : Text} {v : Value} (hk : run [] k = [])
    (hv : v.Stable t) (hbrace : p '{' = false) (hcolon : p ':' = false) (hspace : p ' ' = false)
    (hqk : Quiet p [] k) (hqt : Quiet p [] t) : Quiet p [] (Property.pair k v).write := by
  have hn : next [] ':' = [] ∧ next [] ' ' = [] := by decide
  rw [Property.write_pair, quiet_append, hk, quiet_cons, quiet_cons, hn.1, hn.2]
  exact ⟨hqk, fun _ => hcolon, fun _ => hspace,
    hv.quiet p hbrace (fun c _ h => by rw [hspace] at h; cases h) hqt⟩

/-- A key in front of a value that leaves nothing open and shows no comma, brace or colon. -/
theorem Property.stable_pair {k t : Text} {v : Value} (hk : Text.Trimmed k) (hkr : run [] k = [])
    (hcolon : Quiet (· == ':') [] k) (hcomma : Quiet (· == ',') [] k) (hbrace : Quiet (· == '}') [] k)
    (hv : v.Stable t) (htr : run [] t = []) (htcomma : Quiet (· == ',') [] t)
    (htbrace : Quiet (· == '}') [] t) : (Property.pair k v).Stable where
  reads := by
    have hw : Text.trim (' ' :: v.write) = v.write := by
      rw [← List.singleton_append, Text.trim_blank_append Text.blank_space, hv.trimmed.trim_eq]
    rw [Property.write_pair, Property.read, Text.keyValue_append hcolon hkr, hw, hk.trim_eq]
    simp only [hv.reads]
  trimmed := by
    rw [Property.write_pair]
    by_cases hne : k = []
    · have h := (Text.trimmed_singleton (c := ':') (by decide)).append (s := [' ']) hv.trimmed
        hv.nonempty (by simp)
      simpa [hne] using h
    · have h := hk.append (s := [':', ' ']) hv.trimmed hv.nonempty (fun h => absurd h hne)
      simpa using h
  nonempty := by simp [Property.write_pair]
  closed := by
    have hn : next [] ':' = [] ∧ next [] ' ' = [] := by decide
    rw [Property.write_pair, run_append, hkr, run_cons, run_cons, hn.1, hn.2, hv.run, htr]
  comma := quiet_pair hkr hv (by decide) (by decide) (by decide) hcomma htcomma
  brace := quiet_pair hkr hv (by decide) (by decide) (by decide) hbrace htbrace

/-- An item between the braces of an object reads as a property that is stable, if all shorter texts
read as values that are. -/
theorem Property.stable_read {x : Text} (ht : Text.Trimmed x) (hne : x ≠ []) (hr : run [] x = [])
    (hcomma : Quiet (· == ',') [] x) (hbrace : Quiet (· == '}') [] x)
    (ih : ∀ v : Text, v.length < x.length → Value.Stable (Text.trim v) (Value.read v)) :
    (Property.read x).Stable := by
  rcases Text.quiet_or_cut (· == ':') [] x with h | ⟨a, c, b, rfl, ha, hra, hc⟩
  · rw [Property.read, Text.keyValue_quiet h, ht.trim_eq]
    exact stable_bare ht hne hr h hcomma hbrace
  · obtain rfl : c = ':' := by simpa using hc
    have hread : Property.read (a ++ ':' :: b) = .pair (Text.trim a) (Value.read b) := by
      rw [Property.read, Text.keyValue_append ha hra]
      simp
    have hcolon : next [] ':' = [] := by decide
    rw [run_append, hra, run_cons, hcolon] at hr
    rw [quiet_append, hra, quiet_cons, hcolon] at hcomma hbrace
    rw [hread]
    exact stable_pair (Text.trimmed_trim a) (run_trim_eq_nil hra) (Text.Quiet.trim ha)
      (Text.Quiet.trim hcomma.1) (Text.Quiet.trim hbrace.1) (ih b (by simp; omega))
      (run_trim_eq_nil hr) (Text.Quiet.trim hcomma.2.2) (Text.Quiet.trim hbrace.2.2)

theorem Property.stable_readAll {u : Text} (hq : Quiet (· == '}') [] u) (hr : run [] u = [])
    (ih : ∀ v : Text, v.length < u.length → Value.Stable (Text.trim v) (Value.read v)) :
    ∀ p ∈ Property.readAll u, p.Stable := by
  intro p hp
  obtain ⟨x, hx, rfl⟩ := List.mem_map.1 hp
  have htidy := Text.tidy_separatedBy (K := (· == .comma)) rfl rfl u
  obtain ⟨a, b, he, hra⟩ := Text.exists_of_mem_separatedBy (K := (· == .comma)) rfl rfl hx
  have hcomma := htidy.quiet x hx
  rw [Text.separates_comma] at hcomma
  have hbrace : Quiet (· == '}') [] x := by
    rw [he, quiet_append, quiet_append, hra] at hq
    exact hq.1.2
  refine Property.stable_read (htidy.trimmed x hx) (htidy.nonempty x hx)
    (Text.closed_of_mem_separatedBy rfl rfl hr hx) hcomma hbrace fun v hv => ih v ?_
  have hlen := congrArg List.length he
  simp only [List.length_append] at hlen
  omega

end Properties

namespace Value

theorem run_braces (hq : Quiet (· == '}') [] u) (hr : run [] u = []) :
    run [] ('{' :: (u ++ ['}'])) = [] := by
  have hn : next [] '{' = [.inside .brace] := by decide
  rw [run_cons, hn, run_append, run_inside (d := .brace) (by decide) hq, hr]
  rfl

theorem quiet_braces {p : Char → Bool} (hp : p '{' = false) (hq : Quiet (· == '}') [] u)
    (hr : run [] u = []) : Quiet p [] ('{' :: (u ++ ['}'])) := by
  have h := run_inside (d := .brace) (by decide) hq
  have hi := inside_inside (d := .brace) (by decide) hq
  rw [hr] at h
  have hn : next [] '{' = [.inside .brace] := by decide
  rw [quiet_cons, hn, quiet_append, h]
  exact ⟨fun _ => hp, hi.mono (by simp), by simp⟩

theorem stable_object {ps : List Property} {t : Text} (hs : ∀ p ∈ ps, p.Stable) (ht : run [] t = []) :
    Stable t (.object ps) := by
  obtain ⟨hr, hq⟩ := join_properties hs
  have hwrite := write_object ps
  exact {
    reads := by
      rw [hwrite]
      exact read_writeObject hs
    trimmed := by
      rw [hwrite]
      exact trimmed_braces _
    nonempty := by simp [hwrite]
    run := by rw [hwrite, run_braces hq hr, ht]
    quiet := fun p hp _ _ => by
      rw [hwrite]
      exact quiet_braces hp hq hr }

/-- A synth is written with one space for the blanks after its keyword. -/
theorem stable_synth {b name : Text} (hb : b ≠ []) (hblank : Text.Blank b) (hne : name ≠ [])
    (hword : ∀ c ∈ name, Text.isBlank c = false) :
    Stable ("synth".toList ++ b ++ name) (.synth name) := by
  have hsynth : run [] "synth".toList = [] := by decide
  have hspace : run [] "synth ".toList = [] := by decide
  exact {
    reads := read_synth hne hword
    trimmed := trimmed_synth hne hword
    nonempty := by simp [write_synth]
    run := by
      rw [write_synth, run_append, run_append, run_append, hsynth, hspace, run_blank hblank]
    quiet := fun p _ hp hq => by
      rw [quiet_append, quiet_append, run_append, hsynth, run_blank hblank] at hq
      obtain ⟨⟨hqs, hqb⟩, hqn⟩ := hq
      have hsp : p ' ' = false := by
        obtain ⟨c, b, rfl⟩ := List.exists_cons_of_ne_nil hb
        by_contra hpt
        have hc := hp c (hblank c (by simp)) (by simpa using hpt)
        rw [hqb.1 rfl] at hc
        cases hc
      have hqsp : Quiet p [] "synth ".toList := by
        have hsplit : "synth ".toList = "synth".toList ++ [' '] := by decide
        rw [hsplit, quiet_append, hsynth]
        exact ⟨hqs, fun _ => hsp, trivial⟩
      rw [write_synth, quiet_append, hspace]
      exact ⟨hqsp, hqn⟩ }

/-- Writing a value and reading it again gives the same value. -/
theorem stable (s : Text) : Stable (Text.trim s) (Value.read s) := by
  induction hn : s.length using Nat.strongRecOn generalizing s with
  | ind n ih =>
    have hread := readsAs s
    have hagain := read_trim s
    generalize Value.read s = v at hread hagain
    cases hread with
    | empty h =>
      rw [h]
      exact stable_object (by simp) rfl
    | synth b name hb hblank hne hword h =>
      rw [h]
      exact stable_synth hb hblank hne hword
    | object u hq hr h =>
      rw [h]
      refine stable_object (Property.stable_readAll hq hr fun v hv => ih v.length ?_ v rfl)
        (run_braces hq hr)
      have hle := Text.length_trim_le s
      rw [h] at hle
      simp only [List.length_cons, List.length_append, List.length_nil] at hle
      omega
    | plain v hne hw ho =>
      exact {
        reads := by rw [hw, hagain]
        trimmed := by
          rw [hw]
          exact Text.trimmed_trim s
        nonempty := by rwa [hw]
        run := by rw [hw]
        quiet := fun p _ _ hq => by rwa [hw] }

end Value

end Devalang
