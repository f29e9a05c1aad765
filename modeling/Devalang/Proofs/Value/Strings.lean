import Devalang.Proofs.Value.Within

/-! Strings. A value is a string if quotes stand at both ends of its text. The pieces of a text end a
string at its first quote that is not escaped, so the two agree exactly if that quote is the last one. -/
namespace Devalang
open Nesting

/-- What follows the first quote that is not escaped. A backslash takes the character after it along. -/
def Text.afterString? : Text → Option Text
  | [] => none
  | '"' :: s => some s
  | '\\' :: _ :: s => afterString? s
  | _ :: s => afterString? s

theorem Text.exists_of_afterString? {s r : Text} (h : afterString? s = some r) :
    ∃ c, s = c ++ '"' :: r := by
  fun_induction afterString? s with
  | case1 => cases h
  | case2 s =>
    obtain rfl : s = r := by simpa using h
    exact ⟨[], rfl⟩
  | case3 e s ih =>
    obtain ⟨c, rfl⟩ := ih h
    exact ⟨'\\' :: e :: c, rfl⟩
  | case4 c s _ _ ih =>
    obtain ⟨d, rfl⟩ := ih h
    exact ⟨c :: d, rfl⟩

namespace Group

theorem read_string_cons {c : Char} (hq : c ≠ '"') (hb : c ≠ '\\') (s : Text) :
    (read .quote (c :: s)).1 = (read .quote s).1.cons c := by
  cases s with
  | nil => simp [read, cons, hq]
  | cons e t =>
    rw [read.eq_def]
    simp [hq, hb]

/-- A newline is not taken along by a backslash, but it does not end the string either. -/
theorem read_string_escape (e : Char) (s : Text) :
    (read .quote ('\\' :: e :: s)).1 = ((read .quote s).1.cons e).cons '\\' := by
  by_cases he : e = '\n'
  · have hn : (read .quote (e :: s)).1 = (read .quote s).1.cons e := by
      subst he
      exact read_string_cons (by decide) (by decide) s
    rw [← hn, read.eq_def]
    simp [he]
  · rw [read.eq_def]
    simp [he]

/-- A string is read up to the first quote that is not escaped, and to the end of the text if there is
none. -/
theorem afterString?_eq (s : Text) : Text.afterString? s =
    if (read .quote s).1.opens = [] then some (read .quote s).1.rest else none := by
  fun_induction Text.afterString? s with
  | case1 => simp [read]
  | case2 s =>
    rw [read.eq_def]
    simp
  | case3 e s ih =>
    rw [read_string_escape]
    exact ih
  | case4 c s hq hb ih =>
    by_cases hc : c = '\\'
    · cases s with
      | nil => simp [read, hc, Text.afterString?]
      | cons e t => exact absurd rfl (hb e t hc)
    · rw [read_string_cons hq hc]
      exact ih

end Group

namespace Text

theorem isWhole_quote_iff (s : Text) : isWhole ('"' :: s) = true ↔ afterString? s = some [] := by
  rw [isWhole_opener_iff (d := .quote) rfl, Group.afterString?_eq]
  by_cases ho : (Group.read .quote s).1.opens = []
  · simp [ho]
  · simp [ho]

end Text

namespace Value
variable {s c : Text}

theorem write_string (c : Text) : (string c).write = '"' :: (c ++ ['"']) := rfl

theorem read_string (c : Text) : Value.read ('"' :: (c ++ ['"'])) = .string c := by
  have htrim : Text.Trimmed ('"' :: (c ++ ['"'])) := by
    have hq : Text.Trimmed ['"'] := Text.trimmed_singleton (by decide)
    simpa using hq.append (s := c) hq (by simp) (by simp)
  have hd : Text.isDigit '"' = false := by decide
  have hb : Text.between? '"' '"' ('"' :: (c ++ ['"'])) = some c := Text.between?_eq_some_iff.2 rfl
  rw [Value.read_eq, htrim.trim_eq]
  simp [Text.isNumber, hd, hb]

theorem read_eq_string_iff : Value.read s = .string c ↔ Text.trim s = (string c).write := by
  constructor
  · intro h
    have hr := readsAs s
    rw [h] at hr
    cases hr with
    | plain _ _ write _ => exact write.symm
  · intro h
    rw [← read_trim, h, write_string, read_string]

/-- A text is read as a string exactly if quotes stand at both its ends. So every text that is one closed
string is read as one, and a string that is read is one closed string exactly if its last quote is the
first one that is not escaped. This holds at any depth; inside of an object nothing stays open at the end
of a string. -/
theorem read_string_isWhole (s : Text) :
    (∀ c, Value.read s = .string c ↔ Text.trim s = (string c).write) ∧
      (Text.isWhole (Text.trim s) = true ∧ (Text.trim s).head? = some '"' ↔
        ∃ c, Value.read s = .string c ∧ Text.afterString? (c ++ ['"']) = some []) ∧
      ∀ c, (string c).Within (Value.read s) →
        (Text.isWhole (string c).write = true ↔ Text.afterString? (c ++ ['"']) = some []) ∧
        (string c ≠ Value.read s → (string c).write.openDelimiters = []) := by
  refine ⟨fun c => read_eq_string_iff, ⟨?_, ?_⟩, fun c hc => ⟨Text.isWhole_quote_iff _, fun hne => ?_⟩⟩
  · rintro ⟨hw, hh⟩
    obtain ⟨r, hr⟩ := List.head?_eq_some_iff.1 hh
    rw [hr, Text.isWhole_quote_iff] at hw
    obtain ⟨c, rfl⟩ := Text.exists_of_afterString? hw
    exact ⟨c, read_eq_string_iff.2 hr, hw⟩
  · rintro ⟨c, hc, ha⟩
    rw [read_eq_string_iff.1 hc]
    exact ⟨(Text.isWhole_quote_iff _).2 ha, rfl⟩
  · rcases hc.eq_or_closed s rfl with he | ⟨t, ht, hr⟩
    · exact absurd he hne
    · have hclosed := run_trim_eq_nil hr
      rw [read_eq_string_iff.1 ht.symm] at hclosed
      rw [Text.openDelimiters_eq, hclosed]
      rfl

/-- An object with a string that holds an escaped quote, and a value that is two strings to the tokens. -/
theorem read_string_isWhole_object :
    let s := "\x7ba: \"x\\\" y\", b: \"u\" \"v\"\x7d".toList
    let x := "x\\\" y".toList
    let y := "u\" \"v".toList
    Value.read s = .object [.pair ['a'] (.string x), .pair ['b'] (.string y)] ∧
      (string x).Within (Value.read s) ∧ Text.isWhole (string x).write = true ∧
      (string y).Within (Value.read s) ∧ ¬ Text.isWhole (string y).write = true ∧
      (string y).write.openDelimiters = [] := by
  intro s x y
  have hs : Value.read s = .object [.pair ['a'] (.string x), .pair ['b'] (.string y)] := by
    decide +kernel
  have hx : (string x).Within (Value.read s) := by
    rw [hs]
    exact .property ['a'] _ _ (by simp) .self
  have hy : (string y).Within (Value.read s) := by
    rw [hs]
    exact .property ['b'] _ _ (by simp) .self
  obtain ⟨-, -, h⟩ := read_string_isWhole s
  refine ⟨hs, hx, (h x hx).1.2 (by decide +kernel), hy, ?_, (h y hy).2 (by rw [hs]; simp)⟩
  rw [(h y hy).1]
  decide +kernel

/-- Two strings with a blank between them are read as one string. -/
theorem read_two_strings :
    let s := "\"a\" \"b\"".toList
    Value.read s = .string "a\" \"b".toList ∧ Text.isWhole (Text.trim s) = false := by
  decide +kernel

end Value

end Devalang
