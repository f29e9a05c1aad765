import Devalang.Proofs.Statement.Single
import Devalang.Proofs.Text.Cut

/-! Statements made of words: when they are read, and that their texts are read as the same. -/
namespace Devalang
open Text

/-- The text of a simple statement does not end with a blank and is read as this statement, whatever
follows. -/
structure Simple.Fixed (s : Simple) : Prop where
  reads : Statement.single? s.write = some (.simple s)
  last : ∀ c, s.write.getLast? = some c → isBlank c = false

namespace Simple
variable {keyword : String} {s t name : Text} {known : Option Text} {r : Simple}

theorem single?_of_reader {read : Text → Option Statement} {st : Statement} (k : Nat)
    (hk : Statement.singleReaders = Statement.singleReaders.take k ++ read ::
      Statement.singleReaders.drop (k + 1))
    (hnone : (Statement.singleReaders.take k).findSome? (· s) = none) (h : read s = some st) :
    Statement.single? s = some st := by
  rw [Statement.single?, hk, List.findSome?_append, hnone, List.findSome?_cons, h]
  rfl

theorem single?_of_line {read : Text → Option Simple} (k : Nat)
    (hk : Statement.singleReaders = Statement.singleReaders.take k ++
      (fun s => (read s).map Statement.simple) :: Statement.singleReaders.drop (k + 1))
    (hnone : (Statement.singleReaders.take k).findSome? (· s) = none) (h : read s = some r) :
    Statement.single? s = some (.simple r) :=
  single?_of_reader k hk hnone (by rw [h]; rfl)

theorem fixed_of_append {w x y : Text} (hwrite : r.write = w)
    (hread : Statement.single? w = some (.simple r)) (he : w = x ++ y) (hy : Trimmed y)
    (hne : y ≠ []) : r.Fixed := by
  refine ⟨by rw [hwrite]; exact hread, fun c hc => hy.last c ?_⟩
  rw [hwrite, he, List.getLast?_append] at hc
  cases hl : y.getLast? with
  | none => exact absurd (List.getLast?_eq_none_iff.1 hl) hne
  | some d => simpa [hl] using hc

theorem readWord_eq_some_iff : readWord keyword s = some t ↔
    ∃ b, b ≠ [] ∧ Blank b ∧ t ≠ [] ∧ (∀ c ∈ t, isBlank c = false) ∧ s = keyword.toList ++ b ++ t := by
  simp only [readWord, Option.bind_eq_bind, Option.bind_eq_some_iff, after_eq_some_iff,
    afterBlanks?_eq_some_iff, onlyWord?_eq_some_iff]
  constructor
  · rintro ⟨u, rfl, v, ⟨b, hb, hblank, -, rfl⟩, hne, hword, rfl⟩
    exact ⟨b, hb, hblank, hne, hword, by simp⟩
  · rintro ⟨b, hb, hblank, hne, hword, rfl⟩
    exact ⟨b ++ t, by simp, t, ⟨b, hb, hblank, stops_word hword, rfl⟩, hne, hword, rfl⟩

theorem word_of_readWord (h : readWord keyword s = some t) : Trimmed t ∧ t ≠ [] := by
  obtain ⟨_, -, -, hne, hword, -⟩ := readWord_eq_some_iff.1 h
  exact ⟨trimmed_of_forall hword, hne⟩

theorem readWord_space (h : readWord keyword s = some t) :
    readWord keyword (keyword.toList ++ ' ' :: t) = some t := by
  obtain ⟨b, -, -, hne, hword, -⟩ := readWord_eq_some_iff.1 h
  exact readWord_eq_some_iff.2 ⟨[' '], by simp, blank_space, hne, hword, by simp⟩

theorem fixed_bpm (h : readBpm s = some r) : r.Fixed := by
  obtain ⟨i, hi, rfl⟩ := Option.map_eq_some_iff.1 h
  have hread : readBpm ("bpm".toList ++ ' ' :: i) = some (.bpm i) := by
    rw [readBpm, readWord_space hi]
    rfl
  obtain ⟨ht, hne⟩ := word_of_readWord hi
  exact fixed_of_append rfl (single?_of_line 1 rfl rfl hread) (x := "bpm ".toList) rfl ht hne

theorem fixed_call (h : readCall s = some r) : r.Fixed := by
  obtain ⟨i, hi, rfl⟩ := Option.map_eq_some_iff.1 h
  have hread : readCall ("call".toList ++ ' ' :: i) = some (.call i) := by
    rw [readCall, readWord_space hi]
    rfl
  obtain ⟨ht, hne⟩ := word_of_readWord hi
  exact fixed_of_append rfl (single?_of_line 14 rfl rfl hread) (x := "call ".toList) rfl ht hne

theorem fixed_spawn (h : readSpawn s = some r) : r.Fixed := by
  obtain ⟨i, hi, rfl⟩ := Option.map_eq_some_iff.1 h
  have hread : readSpawn ("spawn".toList ++ ' ' :: i) = some (.spawn i) := by
    rw [readSpawn, readWord_space hi]
    rfl
  obtain ⟨ht, hne⟩ := word_of_readWord hi
  exact fixed_of_append rfl (single?_of_line 15 rfl rfl hread) (x := "spawn ".toList) rfl ht hne

theorem after_word (keyword : Text) (hne : name ≠ []) (hword : ∀ c ∈ name, isBlank c = false)
    {rest : Text} (hrest : Stops notBlank rest) :
    ((after keyword (keyword ++ ' ' :: (name ++ rest))).bind afterBlanks?).bind word? =
      some (name, rest) := by
  have hstop : Stops isBlank (name ++ rest) := (stops_word hword).append hne rest
  rw [after_self, Option.bind_some, afterBlanks?_space hstop, Option.bind_some]
  exact word?_eq_some_iff.2 ⟨hne, hword, hrest, rfl⟩

theorem word_of_after {keyword rest : Text}
    (h : ((after keyword s).bind afterBlanks?).bind word? = some (name, rest)) :
    name ≠ [] ∧ (∀ c ∈ name, isBlank c = false) ∧ ∃ a, s = a ++ rest := by
  simp only [Option.bind_eq_some_iff, after_eq_some_iff, afterBlanks?_eq_some_iff,
    word?_eq_some_iff] at h
  obtain ⟨v, ⟨u, rfl, b, -, -, -, rfl⟩, hne, hword, -, rfl⟩ := h
  exact ⟨hne, hword, keyword ++ b ++ name, by simp⟩

theorem readAliased_eq : readAliased keyword s =
    (((after keyword.toList s).bind afterBlanks?).bind word?).bind fun (name, rest) =>
      if rest.isEmpty then some (name, none)
      else ((afterBlanks? rest).bind (readWord "as")).map fun known => (name, some known) := by
  simp only [readAliased, Option.bind_eq_bind, Option.bind_assoc, Option.map_eq_bind]
  rfl

theorem stops_space (t : Text) : Stops notBlank (' ' :: t) := stops_cons (by decide) t

theorem readAliased_space (h : readAliased keyword s = some (name, known)) :
    readAliased keyword (withAlias (keyword.toList ++ ' ' :: name) known) = some (name, known) := by
  rw [readAliased_eq, Option.bind_eq_some_iff] at h
  obtain ⟨⟨n, rest⟩, hw, h⟩ := h
  obtain ⟨hne, hword, -⟩ := word_of_after hw
  simp only at h
  by_cases hr : rest.isEmpty = true
  · rw [if_pos hr] at h
    cases h
    have hafter := after_word keyword.toList hne hword (stops_nil notBlank)
    rw [List.append_nil] at hafter
    rw [withAlias, readAliased_eq, hafter]
    rfl
  · rw [if_neg hr, Option.map_eq_some_iff] at h
    obtain ⟨k, hk, hnk⟩ := h
    obtain ⟨rfl, rfl⟩ := Prod.mk.inj hnk
    obtain ⟨u, -, hk⟩ := Option.bind_eq_some_iff.1 hk
    obtain ⟨_, _, _, hkne, _⟩ := readWord_eq_some_iff.1 hk
    have hafter := after_word keyword.toList hne hword (stops_space ("as ".toList ++ k))
    have hblanks : afterBlanks? (' ' :: ("as ".toList ++ k)) = some ("as".toList ++ ' ' :: k) :=
      afterBlanks?_space (stops_cons (by decide) _)
    have halias : withAlias (keyword.toList ++ ' ' :: n) (some k) =
        keyword.toList ++ ' ' :: (n ++ ' ' :: ("as ".toList ++ k)) := by
      cases k with
      | nil => exact absurd rfl hkne
      | cons c k => simp [withAlias]
    rw [halias, readAliased_eq, hafter]
    simp only [Option.bind_some, List.isEmpty_cons, Bool.false_eq_true, if_false, hblanks,
      readWord_space hk, Option.map_some]

theorem exists_withAlias (s : Text) (known : Option Text) : ∃ t, withAlias s known = s ++ t := by
  cases known with
  | none => exact ⟨[], (List.append_nil s).symm⟩
  | some k =>
    cases k with
    | nil => exact ⟨[], (List.append_nil s).symm⟩
    | cons c k => exact ⟨" as ".toList ++ c :: k, by simp [withAlias]⟩

theorem exists_word_withAlias (h : readAliased keyword s = some (name, known)) (t : Text) :
    ∃ x y, withAlias (t ++ name) known = x ++ y ∧ Trimmed y ∧ y ≠ [] := by
  rw [readAliased_eq, Option.bind_eq_some_iff] at h
  obtain ⟨⟨n, rest⟩, hw, h⟩ := h
  obtain ⟨hne, hword, -⟩ := word_of_after hw
  simp only at h
  by_cases hr : rest.isEmpty = true
  · rw [if_pos hr] at h
    cases h
    exact ⟨t, name, rfl, trimmed_of_forall hword, hne⟩
  · rw [if_neg hr, Option.map_eq_some_iff] at h
    obtain ⟨k, hk, hnk⟩ := h
    obtain ⟨rfl, rfl⟩ := Prod.mk.inj hnk
    obtain ⟨u, -, hk⟩ := Option.bind_eq_some_iff.1 hk
    obtain ⟨hkt, hkne⟩ := word_of_readWord hk
    refine ⟨t ++ n ++ " as ".toList, k, ?_, hkt, hkne⟩
    cases k with
    | nil => exact absurd rfl hkne
    | cons c k => rfl

theorem fixed_bank (h : readBank s = some r) : r.Fixed := by
  obtain ⟨⟨i, a⟩, hi, rfl⟩ := Option.map_eq_some_iff.1 h
  have hw : (bank i a).write = withAlias ("bank".toList ++ ' ' :: i) a := rfl
  have hread : readBank (withAlias ("bank".toList ++ ' ' :: i) a) = some (.bank i a) := by
    rw [readBank, readAliased_space hi]
    rfl
  obtain ⟨t, ht⟩ := exists_withAlias ("bank".toList ++ ' ' :: i) a
  obtain ⟨x, y, he, hy, hne⟩ := exists_word_withAlias hi "bank ".toList
  refine fixed_of_append hw (single?_of_line 2 rfl ?_ hread) he hy hne
  rw [ht]
  rfl

theorem fixed_use (h : readUse s = some r) : r.Fixed := by
  obtain ⟨⟨i, a⟩, hi, rfl⟩ := Option.map_eq_some_iff.1 h
  have hw : (plugin i a).write = withAlias ("@use".toList ++ ' ' :: i) a := rfl
  have hread : readUse (withAlias ("@use".toList ++ ' ' :: i) a) = some (.plugin i a) := by
    rw [readUse, readAliased_space hi]
    rfl
  obtain ⟨t, ht⟩ := exists_withAlias ("@use".toList ++ ' ' :: i) a
  obtain ⟨x, y, he, hy, hne⟩ := exists_word_withAlias hi "@use ".toList
  refine fixed_of_append hw (single?_of_line 3 rfl ?_ hread) he hy hne
  rw [ht]
  rfl

/-! Kinds that keep the rest of their line. -/

theorem readEmit_eq : readEmit s =
    (((after "emit".toList s).bind afterBlanks?).bind word?).bind fun (name, rest) =>
      if rest.isEmpty then some (.emit name none)
      else if (trimStart rest).all inLine then some (.emit name (some (trimStart rest))) else none := by
  simp only [readEmit, Option.bind_eq_bind, Option.bind_assoc]
  rfl

theorem fixed_emit (ht : Trimmed s) (h : readEmit s = some r) : r.Fixed := by
  rw [readEmit_eq, Option.bind_eq_some_iff] at h
  obtain ⟨⟨n, rest⟩, hw, h⟩ := h
  obtain ⟨hne, hword, a, rfl⟩ := word_of_after hw
  simp only at h
  by_cases hr : rest.isEmpty = true
  · rw [if_pos hr] at h
    cases h
    have hafter := after_word "emit".toList hne hword (stops_nil notBlank)
    rw [List.append_nil] at hafter
    have hread : readEmit ("emit".toList ++ ' ' :: n) = some (.emit n none) := by
      rw [readEmit_eq, hafter]
      rfl
    exact fixed_of_append rfl (single?_of_line 6 rfl rfl hread) (x := "emit ".toList) rfl
      (trimmed_of_forall hword) hne
  · rw [if_neg hr, Option.ite_none_right_eq_some] at h
    obtain ⟨hline, h⟩ := h
    cases h
    have hpne : trimStart rest ≠ [] := ht.trimStart_ne_nil (by simpa using hr)
    have hstop : Stops isBlank (trimStart rest) := fun c hc => head_trimStart hc
    have hafter := after_word "emit".toList hne hword (stops_space (trimStart rest))
    have hread : readEmit ("emit".toList ++ ' ' :: (n ++ ' ' :: trimStart rest)) =
        some (.emit n (some (trimStart rest))) := by
      rw [readEmit_eq, hafter]
      simp only [Option.bind_some, List.isEmpty_cons, Bool.false_eq_true, if_false,
        trimStart_space hstop, hline, if_true]
    have hw : (emit n (some (trimStart rest))).write =
        "emit".toList ++ ' ' :: (n ++ ' ' :: trimStart rest) := by
      cases hp : trimStart rest with
      | nil => exact absurd hp hpne
      | cons c p => rfl
    exact fixed_of_append hw (single?_of_line 6 rfl rfl hread)
      (x := "emit".toList ++ ' ' :: (n ++ [' '])) (by simp) ht.trimStart_right hpne

theorem fixed_print (ht : Trimmed s) (hl : '\n' ∉ s) (h : readPrint s = some r) : r.Fixed := by
  simp only [readPrint, Option.bind_eq_bind, Option.bind_eq_some_iff, after_eq_some_iff,
    Option.pure_def, Option.some.injEq] at h
  obtain ⟨u, rfl, e, he, rfl⟩ := h
  have hlast : ∀ c, u.getLast? = some c → isBlank c = false := fun c hc =>
    ht.last c (by rw [List.getLast?_append, hc]; rfl)
  have hu : '\n' ∉ u := fun hm => hl (List.mem_append_right _ hm)
  obtain ⟨b, -, -, hstop, hne, rfl⟩ := restOfLine?_eq_some hlast hu he
  have hread : readPrint ("print".toList ++ ' ' :: e) = some (.print e) := by
    simp only [readPrint, after_self, Option.bind_eq_bind, Option.bind_some, Option.pure_def,
      restOfLine?_space hstop hne fun hm => hu (List.mem_append_right _ hm)]
  exact fixed_of_append rfl (single?_of_line 7 rfl rfl hread) (x := "print ".toList) rfl
    ⟨hstop, fun c hc => hlast c (by rw [List.getLast?_append, hc]; rfl)⟩ hne

end Simple

end Devalang
