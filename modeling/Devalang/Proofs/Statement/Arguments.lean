import Devalang.Statement.Reader
import Devalang.Proofs.Text.Classes
import Devalang.Proofs.Value.RoundTrip

/-! The arguments of a trigger are read again from their texts, and so is its duration. -/
namespace Devalang
open Text Nesting

namespace Text
variable {s : Text} {c : Char}

/-- A character of a duration: it is neither a separator nor does it open anything. -/
def isDurationChar (c : Char) : Bool := isDigit c || "./auto".toList.contains c

theorem of_isDurationChar (h : isDurationChar c = true) :
    isBlank c = false ∧ c ≠ ',' ∧ Delimiter.ofOpener? c = none := by
  have hne (x : Char) (hx : isDurationChar x = false) : c ≠ x := by
    rintro rfl
    rw [h] at hx
    cases hx
  refine ⟨?_, hne ',' (by decide), ?_⟩
  · rw [Bool.eq_false_iff]
    intro hb
    rw [isDurationChar, isDigit_blank hb, Bool.false_or] at h
    simp at h
    rcases h with rfl | rfl | rfl | rfl | rfl | rfl <;> revert hb <;> decide
  · simp [Delimiter.ofOpener?, hne '"' (by decide), hne '{' (by decide), hne '(' (by decide),
      hne '[' (by decide)]

theorem digits_of_takeWhile (s : Text) : ∀ c ∈ s.takeWhile isDigit, isDurationChar c = true := by
  intro c hc
  rw [isDurationChar, List.mem_takeWhile_imp hc, Bool.true_or]

theorem isFraction_chars (h : isFraction s = true) : s ≠ [] ∧ ∀ c ∈ s, isDurationChar c = true := by
  simp only [isFraction, Bool.and_eq_true] at h
  obtain ⟨hne, h⟩ := h
  refine ⟨by rintro rfl; simp at hne, ?_⟩
  cases hd : s.dropWhile isDigit with
  | nil => simp [hd] at h
  | cons x f =>
    simp only [hd, Bool.and_eq_true, beq_iff_eq, List.all_eq_true] at h
    obtain ⟨⟨rfl, -⟩, hf⟩ := h
    intro c hc
    rw [← List.takeWhile_append_dropWhile (p := isDigit) (l := s), hd, List.mem_append,
      List.mem_cons] at hc
    rcases hc with hc | rfl | hc
    · exact digits_of_takeWhile s c hc
    · decide
    · rw [isDurationChar, hf c hc, Bool.true_or]

theorem isNumber_chars (h : isNumber s = true) :
    s ≠ [] ∧ (∀ c ∈ s, isDurationChar c = true) ∧ isFraction s = false := by
  simp only [isNumber, Bool.and_eq_true] at h
  obtain ⟨hne, h⟩ := h
  refine ⟨by rintro rfl; simp at hne, ?_⟩
  have hsplit := List.takeWhile_append_dropWhile (p := isDigit) (l := s)
  cases hd : s.dropWhile isDigit with
  | nil =>
    refine ⟨?_, by simp [isFraction, hd]⟩
    intro c hc
    rw [← hsplit, hd, List.append_nil] at hc
    exact digits_of_takeWhile s c hc
  | cons x f =>
    simp only [hd, Bool.and_eq_true, beq_iff_eq, List.all_eq_true] at h
    obtain ⟨⟨rfl, -⟩, hf⟩ := h
    refine ⟨?_, by simp [isFraction, hd]⟩
    intro c hc
    rw [← hsplit, hd, List.mem_append, List.mem_cons] at hc
    rcases hc with hc | rfl | hc
    · exact digits_of_takeWhile s c hc
    · decide
    · rw [isDurationChar, hf c hc, Bool.true_or]

end Text

theorem Value.isNumber_of_read {s t : Text} (h : Value.read s = .number t) : isNumber t = true := by
  rw [Value.read_eq] at h
  simp only at h
  repeat' split at h
  all_goals cases h
  assumption

namespace Duration
variable {s : Text} {d : Duration}

theorem ofText?_trim (s : Text) : ofText? (trim s) = ofText? s := by simp [ofText?]

theorem ofText?_toText (h : ofText? s = some d) : ofText? d.toText = some d := by
  rw [toText_of_ofText? h, ofText?_trim, h]

theorem toText_chars (h : ofText? s = some d) :
    d.toText ≠ [] ∧ ∀ c ∈ d.toText, isDurationChar c = true := by
  rw [toText_of_ofText? h]
  simp only [ofText?] at h
  split at h
  · exact isFraction_chars (by assumption)
  · split at h
    · rename_i hn
      exact ⟨(isNumber_chars hn).1, (isNumber_chars hn).2.1⟩
    · split at h
      · rename_i ha
        rw [ha]
        exact ⟨by decide, forall_of_all rfl⟩
      · cases h

theorem ofText?_eq_none {c : Char} {t : Text} (ht : Trimmed (c :: t)) (hc : isDurationChar c = false) :
    ofText? (c :: t) = none := by
  rw [Option.eq_none_iff_forall_ne_some]
  intro d hd
  have h := (toText_chars hd).2 c
  rw [toText_of_ofText? hd, ht.trim_eq, hc] at h
  exact absurd (h (by simp)) (by simp)

theorem ofText?_of_property {x : Text} (h : (Property.read x).duration? = some d) :
    ∃ s, ofText? s = some d := by
  obtain ⟨key, value, hkv⟩ : ∃ key value, Text.keyValue x = (key, value) := ⟨_, _, rfl⟩
  cases value with
  | none =>
    rw [Property.read, hkv] at h
    cases h
  | some v =>
    rw [Property.read, hkv] at h
    obtain ⟨-, h⟩ := Option.ite_none_right_eq_some.1 h
    cases hv : Value.read v with
    | number t =>
      rw [hv] at h
      cases h
      have hn := Value.isNumber_of_read hv
      obtain ⟨-, hchars, hf⟩ := isNumber_chars hn
      have ht : trim t = t := (trimmed_of_forall fun c hc => (of_isDurationChar (hchars c hc)).1).trim_eq
      exact ⟨t, by simp [ofText?, ht, hn, hf]⟩
    | identifier t | string t =>
      rw [hv] at h
      exact ⟨t, h⟩
    | boolean b | raw t | synth n | object ps =>
      rw [hv] at h
      cases h

end Duration

namespace Argument
variable {found d : Option Duration} {t : Text} {ts : List Text} {e : Duration}
  {p : Property} {ps pending : List Property} {as : List Argument} {v : Value}

theorem ofTexts_duration (h : Duration.ofText? t = some e) :
    ofTexts none (t :: ts) = ofTexts (some e) ts := by
  rw [ofTexts.eq_def]
  simp [h]

/-- The text does not give the duration, as it is none or one has been found. -/
def Passes (found : Option Duration) (t : Text) : Prop := found = none → Duration.ofText? t = none

theorem ofTexts_value (h : Passes found t) (hv : ∀ p ps, Value.read t ≠ .object (p :: ps)) :
    ofTexts found (t :: ts) =
      ((ofTexts found ts).1, .value (Value.read t) :: (ofTexts found ts).2) := by
  rw [ofTexts.eq_def]
  simp only
  split
  · rename_i hn
    exact absurd (h rfl) (by simp [hn])
  · rfl

theorem ofTexts_object (h : Passes found t) (hv : Value.read t = .object (p :: ps)) :
    ofTexts found (t :: ts) =
      ((ofTexts (ofProperties found (p :: ps)).1 ts).1,
        (ofProperties found (p :: ps)).2 ++ (ofTexts (ofProperties found (p :: ps)).1 ts).2) := by
  rw [ofTexts.eq_def]
  simp only
  split
  · rename_i hn
    exact absurd (h rfl) (by simp [hn])
  · rw [hv]

def separator : PieceKind → Bool := fun k => k == .space || k == .comma

theorem arguments_eq (s : Text) : arguments s = separatedBy separator s := rfl

/-- The value is one argument, read again from its text. -/
structure Single (v : Value) : Prop where
  reads : Value.read v.write = v
  trimmed : Trimmed v.write
  nonempty : v.write ≠ []
  quiet : Quiet (PieceKind.separates separator) [] v.write
  other : ∀ p ps, v ≠ .object (p :: ps)

/-- The arguments that are left beside the duration `d` are read again from their texts. -/
inductive Rereads (d : Option Duration) : List Argument → Prop where
  | nil : Rereads d []
  | property (p : Property) (as : List Argument) (stable : p.Stable)
    (passes : d = none → p.duration? = none) (more : Rereads d as) : Rereads d (.property p :: as)
  | value (v : Value) (as : List Argument) (single : Single v) (passes : Passes d v.write)
    (last : as ≠ [] → run [] v.write = []) (more : Rereads d as) : Rereads d (.value v :: as)

theorem Rereads.append (h : ∀ p ∈ ps, p.Stable ∧ (d = none → p.duration? = none))
    (hm : Rereads d as) : Rereads d (ps.map .property ++ as) := by
  induction ps with
  | nil => exact hm
  | cons p ps ih =>
    exact .property p _ (h p (by simp)).1 (h p (by simp)).2
      (ih fun q hq => h q (List.mem_cons_of_mem p hq))

theorem ofProperties_spec (found : Option Duration) (ps : List Property) :
    ∃ qs : List Property, (ofProperties found ps).2 = qs.map .property ∧ (∀ q ∈ qs, q ∈ ps) ∧
      ((ofProperties found ps).1 = none → found = none ∧ ∀ q ∈ qs, q.duration? = none) ∧
      ∀ e, (ofProperties found ps).1 = some e → found = some e ∨ ∃ p ∈ ps, p.duration? = some e := by
  induction ps generalizing found with
  | nil => exact ⟨[], rfl, by simp, by simp [ofProperties], by simp [ofProperties]⟩
  | cons p ps ih =>
    rw [ofProperties.eq_def]
    simp only
    split
    · rename_i e hp
      obtain ⟨qs, hqs, hm, hn, hs⟩ := ih (some e)
      refine ⟨qs, hqs, fun q hq => List.mem_cons_of_mem p (hm q hq), fun h => ?_, fun x hx => ?_⟩
      · cases (hn h).1
      · rcases hs x hx with h | ⟨q, hq, h⟩
        · exact Or.inr ⟨p, by simp, by rw [hp, h]⟩
        · exact Or.inr ⟨q, List.mem_cons_of_mem p hq, h⟩
    · rename_i f _ _ hp
      obtain ⟨qs, hqs, hm, hn, hs⟩ := ih f
      refine ⟨p :: qs, by simp [hqs], ?_, fun h => ⟨(hn h).1, ?_⟩, fun x hx => ?_⟩
      · intro q hq
        rcases List.mem_cons.1 hq with rfl | hq
        · simp
        · exact List.mem_cons_of_mem p (hm q hq)
      · intro q hq
        rcases List.mem_cons.1 hq with rfl | hq
        · cases hd : q.duration? with
          | none => rfl
          | some e => exact absurd hd (hp e (hn h).1)
        · exact (hn h).2 q hq
      · exact (hs x hx).imp id fun ⟨q, hq, h⟩ => ⟨q, List.mem_cons_of_mem p hq, h⟩

theorem ofTexts_cons (found : Option Duration) (t : Text) (ts : List Text) :
    (∃ e, found = none ∧ Duration.ofText? t = some e ∧ ofTexts found (t :: ts) = ofTexts (some e) ts) ∨
    (∃ p ps, Passes found t ∧ Value.read t = .object (p :: ps)) ∨
    Passes found t ∧ ∀ p ps, Value.read t ≠ .object (p :: ps) := by
  by_cases hp : Passes found t
  · right
    by_cases ho : ∃ p ps, Value.read t = .object (p :: ps)
    · obtain ⟨p, ps, hr⟩ := ho
      exact Or.inl ⟨p, ps, hp, hr⟩
    · exact Or.inr ⟨hp, fun p ps hr => ho ⟨p, ps, hr⟩⟩
  · left
    obtain ⟨rfl, hn⟩ := Classical.not_imp.1 hp
    obtain ⟨e, he⟩ := Option.ne_none_iff_exists'.1 hn
    exact ⟨e, rfl, he, ofTexts_duration he⟩

theorem ofTexts_found (h : (ofTexts found ts).1 = none) : found = none := by
  induction ts generalizing found with
  | nil => exact h
  | cons t ts ih =>
    rcases ofTexts_cons found t ts with ⟨e, hf, -, -⟩ | ⟨p, ps, hp, hr⟩ | ⟨hp, hv⟩
    · exact hf
    · rw [ofTexts_object hp hr] at h
      obtain ⟨qs, -, -, hn, -⟩ := ofProperties_spec found (p :: ps)
      exact (hn (ih h)).1
    · rw [ofTexts_value hp hv] at h
      exact ih h

theorem single_of_read (ht : Trimmed t) (hq : Quiet (PieceKind.separates separator) [] t)
    (hv : ∀ p ps, Value.read t ≠ .object (p :: ps)) :
    Single (Value.read t) ∧ run [] (Value.read t).write = run [] t := by
  have hs := Value.stable t
  rw [ht.trim_eq] at hs
  refine ⟨⟨hs.reads, hs.trimmed, hs.nonempty, hs.quiet _ (by decide) ?_ hq, hv⟩, hs.run⟩
  intro c hc _
  simp [PieceKind.separates, hc, separator]

theorem stable_of_object (hr : Value.read t = .object ps) : ∀ p ∈ ps, p.Stable ∧
    ∀ e, p.duration? = some e → ∃ s, Duration.ofText? s = some e := by
  have h := Value.readsAs t
  rw [hr] at h
  cases h with
  | empty h => simp
  | object u hq hrun h =>
    intro p hp
    refine ⟨Property.stable_readAll hq hrun (fun v _ => Value.stable v) p hp, fun e he => ?_⟩
    obtain ⟨x, -, rfl⟩ := List.mem_map.1 hp
    exact Duration.ofText?_of_property he
  | plain _ hne hw ho => exact absurd rfl (ho ps)

/-- A value gives no duration by its text if the text that it was read from gives none. -/
theorem ofText?_write_read (ht : Trimmed t) (h : Duration.ofText? t = none) :
    Duration.ofText? (Value.read t).write = none := by
  have hread := Value.readsAs t
  rw [ht.trim_eq] at hread
  have hs := (Value.stable t).trimmed
  generalize Value.read t = v at hread hs
  cases hread with
  | empty h => exact Duration.ofText?_eq_none (c := '{') hs (by decide)
  | synth b name _ _ _ _ h => exact Duration.ofText?_eq_none (c := 's') hs (by decide)
  | object u _ _ h => exact Duration.ofText?_eq_none (c := '{') hs (by decide)
  | plain _ _ hw _ => rw [hw, h]

theorem rereads_ofTexts (h : Tidy separator ts) : Rereads (ofTexts found ts).1 (ofTexts found ts).2 := by
  induction ts generalizing found with
  | nil => exact .nil
  | cons t ts ih =>
    rcases ofTexts_cons found t ts with ⟨e, -, -, he⟩ | ⟨p, ps, hp, hr⟩ | ⟨hp, hv⟩
    · rw [he]
      exact ih h.tail
    · rw [ofTexts_object hp hr]
      obtain ⟨qs, hqs, hm, hn, -⟩ := ofProperties_spec found (p :: ps)
      rw [hqs]
      refine Rereads.append (fun q hq => ⟨(stable_of_object hr q (hm q hq)).1, fun hd => ?_⟩) (ih h.tail)
      exact (hn (ofTexts_found hd)).2 q hq
    · rw [ofTexts_value hp hv]
      obtain ⟨hs, hrun⟩ := single_of_read (h.trimmed t (by simp)) (h.quiet t (by simp)) hv
      refine .value _ _ hs (fun hd => ?_) (fun hne => ?_) (ih h.tail)
      · exact ofText?_write_read (h.trimmed t (by simp)) (hp (ofTexts_found hd))
      · rw [hrun]
        cases ts with
        | nil => exact absurd rfl hne
        | cons v ts => exact h.head_closed

theorem ofText?_of_ofTexts (h : (ofTexts found ts).1 = some e) :
    found = some e ∨ ∃ s, Duration.ofText? s = some e := by
  induction ts generalizing found with
  | nil => exact Or.inl h
  | cons t ts ih =>
    rcases ofTexts_cons found t ts with ⟨x, -, hx, he⟩ | ⟨p, ps, hp, hr⟩ | ⟨hp, hv⟩
    · rw [he] at h
      rcases ih h with h | h
      · cases h
        exact Or.inr ⟨t, hx⟩
      · exact Or.inr h
    · rw [ofTexts_object hp hr] at h
      rcases ih h with h | h
      · obtain ⟨qs, -, -, -, hs⟩ := ofProperties_spec found (p :: ps)
        rcases hs e h with h | ⟨q, hq, h⟩
        · exact Or.inl h
        · exact Or.inr ((stable_of_object hr q hq).2 e h)
      · exact Or.inr h
    · rw [ofTexts_value hp hv] at h
      exact ih h

/-- What is left of the arguments of a trigger beside its duration is read again. -/
theorem rereads_readAll (s : Text) : Rereads (readAll s).1 (readAll s).2 :=
  rereads_ofTexts (tidy_separatedBy rfl rfl s)

theorem ofText?_of_readAll {s : Text} (h : (readAll s).1 = some e) : ∃ t, Duration.ofText? t = some e :=
  (ofText?_of_ofTexts h).resolve_left (by simp)

end Argument

end Devalang
