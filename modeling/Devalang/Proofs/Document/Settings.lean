import Devalang.Document.Print
import Mathlib.Data.List.Induction

/-! Formatting under settings as they are given. Of the names in any case that stand for one setting the last
one counts, and an integer print width is a limit, so that such settings always give a text. -/
namespace Devalang
open Draft (Datum)

namespace Settings
variable {settings : Settings} {w : Int}

theorem get?_put (s : Settings) (name key : Text) (v : Datum) :
    (s.put name v).get? key = if name = key then some v else s.get? key := by
  rw [put]
  by_cases hany : s.entries.any (·.1 == name) = true
  · have hkeys : (fun e : Text × Datum => (if e.1 == name then (name, v) else e).1 == key) = (·.1 == key) := by
      funext e
      by_cases he : e.1 = name <;> simp [he]
    rw [if_pos hany, get?, get?, List.find?_map, Function.comp_def, hkeys]
    by_cases hk : name = key
    · subst hk
      obtain ⟨e, hm, he⟩ := List.any_eq_true.1 hany
      have hsome : (s.entries.find? (·.1 == name)).isSome = true := List.find?_isSome.2 ⟨e, hm, he⟩
      obtain ⟨f, hf⟩ := Option.isSome_iff_exists.1 hsome
      have hname : f.1 = name := by simpa using List.find?_some hf
      simp [hf, hname]
    · rw [if_neg hk]
      cases hf : s.entries.find? (·.1 == key) with
      | none => rfl
      | some f =>
        have hne : f.1 ≠ name := fun he => hk (he.symm.trans (by simpa using List.find?_some hf))
        simp [hne]
  · have hnone : s.entries.find? (·.1 == name) = none := by
      rw [List.find?_eq_none]
      exact fun e he hn => hany (List.any_eq_true.2 ⟨e, he, hn⟩)
    rw [if_neg hany, get?, get?, List.find?_append]
    by_cases hk : name = key
    · subst hk
      simp [hnone]
    · simp [hk]

/-- Of pairs with the same name the last one counts. -/
theorem get?_ofPairs (pairs : List (Text × Datum)) (key : Text) :
    (ofPairs pairs).get? key = (pairs.reverse.find? (·.1 == key)).map (·.2) := by
  induction pairs using List.reverseRecOn with
  | nil => rfl
  | append_singleton pairs e ih =>
    have hput : ofPairs (pairs ++ [e]) = (ofPairs pairs).put e.1 e.2 := by
      rw [ofPairs, List.foldl_append]
      rfl
    rw [hput, get?_put, ih, List.reverse_append]
    by_cases hk : e.1 = key <;> simp [hk]

theorem get?_normalize (s : Settings) (key : Text) :
    s.normalize.get? key = (s.entries.reverse.find? (·.1.snakeCase == key)).map (·.2) := by
  rw [normalize, get?_ofPairs, ← List.map_reverse, List.find?_map, Option.map_map]
  rfl

theorem format_eq (h : settings.value "print_width".toList = .int w) (s : Text) :
    settings.format s = .ok (Devalang.format (.ofInt w) s) := by
  have hl : settings.limit = .ok (.ofInt w) := by
    unfold Settings.limit
    rw [h]
  simp only [Settings.format, Document.print, Settings.limitFor, hl]
  rfl

end Settings

namespace Options
variable {s settings : Settings} {w : Int}

theorem coerce_named_eq_ok_iff : (named s).coerce = .ok settings ↔
    s.normalize = settings ∧ ∀ e ∈ s.entries, e.1.snakeCase ≠ "self".toList := by
  have hself : (s.normalize.get? "self".toList).isSome = true ↔
      ∃ e ∈ s.entries, e.1.snakeCase = "self".toList := by
    rw [Settings.get?_normalize, Option.isSome_map, List.find?_isSome]
    simp only [List.mem_reverse, beq_iff_eq]
  rw [coerce, Settings.checked]
  split
  · rename_i h
    obtain ⟨e, he, hn⟩ := hself.1 h
    exact iff_of_false (by simp) fun hs => hs.2 e he hn
  · rename_i h
    have hnone : ∀ e ∈ s.entries, e.1.snakeCase ≠ "self".toList := fun e he hn => h (hself.2 ⟨e, he, hn⟩)
    rw [Except.ok.injEq]
    exact ⟨fun hs => ⟨hs, hnone⟩, fun hs => hs.1⟩

theorem coerce_printWidth (v : Datum) :
    (named ⟨[("printWidth".toList, v)]⟩).coerce = .ok ⟨[("print_width".toList, v)]⟩ := by
  have hname : Text.snakeCase "printWidth".toList = "print_width".toList := by decide +kernel
  rw [coerce, Settings.normalize, List.map_singleton, hname]
  rfl

theorem format_of_coerce {options : Options} (h : options.coerce = .ok settings)
    (hw : settings.value "print_width".toList = .int w) (t : Text) :
    options.format t = .ok (Devalang.format (.ofInt w) t) := by
  rw [Options.format, h]
  exact settings.format_eq hw t

/-- The last name that stands for the print width decides, and 80 if there is none. -/
theorem format_named (hself : ∀ e ∈ s.entries, e.1.snakeCase ≠ "self".toList)
    (hw : ((s.entries.reverse.find? (·.1.snakeCase == "print_width".toList)).map (·.2)).getD (.int 80) = .int w)
    (t : Text) : (named s).format t = .ok (Devalang.format (.ofInt w) t) := by
  refine format_of_coerce (coerce_named_eq_ok_iff.2 ⟨rfl, hself⟩) ?_ t
  rw [Settings.value, Settings.get?_normalize, ← hw]
  cases (s.entries.reverse.find? (·.1.snakeCase == "print_width".toList)).map (·.2) with
  | none => rfl
  | some v => rfl

example : (named ⟨[("printWidth".toList, .int 100), ("print_width".toList, .int 12)]⟩).format
    "bpm  120\nbpm  1200000000\n".toList = .ok "bpm 120\nbpm  1200000000\n".toList := by decide +kernel

end Options

end Devalang
