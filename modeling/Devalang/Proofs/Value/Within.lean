import Devalang.Proofs.Value.RoundTrip

/-! Values at any depth of a value that was read: each of them was read from a text of its own, so the
round trip holds for all of them. -/
namespace Devalang
open Nesting

/-- The value `v` is the value `w` or stands in one of its properties, at any depth. -/
inductive Value.Within (v : Value) : Value → Prop where
  | self : Within v v
  | property (k : Text) (w : Value) (ps : List Property) (mem : .pair k w ∈ ps) (within : Within v w) :
    Within v (.object ps)

theorem Property.exists_read {u k : Text} {w : Value} (hu : run [] u = [])
    (h : .pair k w ∈ Property.readAll u) : ∃ t, w = Value.read t ∧ run [] t = [] := by
  obtain ⟨x, hx, he⟩ := List.mem_map.1 h
  have hr : run [] x = [] := Text.closed_of_mem_separatedBy rfl rfl hu hx
  rcases Text.quiet_or_cut (· == ':') [] x with hq | ⟨a, c, b, rfl, ha, hra, hc⟩
  · rw [Property.read, Text.keyValue_quiet hq] at he
    cases he
  · obtain rfl : c = ':' := by simpa using hc
    rw [Property.read, Text.keyValue_append ha hra] at he
    cases he
    have hcolon : next [] ':' = [] := by decide
    rw [run_append, hra, run_cons, hcolon] at hr
    exact ⟨Text.trim b, rfl, run_trim_eq_nil hr⟩

namespace Value

theorem eq_readAll_of_read {s : Text} {ps : List Property} (h : Value.read s = .object ps) :
    ∃ u, ps = Property.readAll u ∧ run [] u = [] := by
  have hr := readsAs s
  rw [h] at hr
  cases hr with
  | empty _ => exact ⟨[], by decide +kernel, rfl⟩
  | object u _ closed _ => exact ⟨u, rfl, closed⟩
  | plain _ _ _ other => exact absurd rfl (other ps)

theorem Within.eq_or_closed {v w : Value} (h : v.Within w) : ∀ s, w = Value.read s →
    v = w ∨ ∃ t, v = Value.read t ∧ run [] t = [] := by
  induction h with
  | self => exact fun _ _ => Or.inl rfl
  | property k w ps mem _ ih =>
    intro s hs
    obtain ⟨u, rfl, hu⟩ := eq_readAll_of_read hs.symm
    obtain ⟨t, ht, hr⟩ := Property.exists_read hu mem
    rcases ih t ht with rfl | hv
    · exact Or.inr ⟨t, ht, hr⟩
    · exact Or.inr hv

theorem Within.exists_read {v w : Value} (h : v.Within w) : ∀ s, w = Value.read s →
    ∃ t, v = Value.read t := by
  intro s hs
  rcases h.eq_or_closed s hs with rfl | ⟨t, ht, -⟩
  · exact ⟨s, hs⟩
  · exact ⟨t, ht⟩

/-- A value that was read from a text is read again from its own text, which leaves the same delimiters
open. So is every value in it, and the text of each of them is not changed by reading and writing. -/
theorem read_write (s : Text) :
    Value.read (Value.read s).write = Value.read s ∧
      (Value.read s).write.openDelimiters = (Text.trim s).openDelimiters ∧
      ∀ v : Value, v.Within (Value.read s) →
        Value.read v.write = v ∧ (Value.read v.write).write = v.write := by
  have hs := stable s
  refine ⟨hs.reads, ?_, fun v hv => ?_⟩
  · rw [Text.openDelimiters_eq, Text.openDelimiters_eq, hs.run]
  · obtain ⟨t, rfl⟩ := hv.exists_read s rfl
    have ht := (stable t).reads
    exact ⟨ht, by rw [ht]⟩

/-- A nested object is tidied at both depths. -/
theorem read_write_nested :
    let s := " {a: {b :1, c}}".toList
    let v : Value := .object [.pair ['b'] (.number ['1']), .bare ['c']]
    Value.read s = .object [.pair ['a'] v] ∧ (Value.read s).write = "{a: {b: 1, c}}".toList ∧
      v.Within (Value.read s) ∧ Value.read (Value.read s).write = Value.read s ∧
      (Value.read s).write.openDelimiters = (Text.trim s).openDelimiters ∧
      Value.read v.write = v ∧ (Value.read v.write).write = v.write := by
  intro s v
  have hs : Value.read s = .object [.pair ['a'] v] := by decide +kernel
  have hw : (Value.read s).write = "{a: {b: 1, c}}".toList := by decide +kernel
  have hv : v.Within (Value.read s) := by
    rw [hs]
    exact .property ['a'] v _ (by simp) .self
  obtain ⟨hr, ho, hi⟩ := read_write s
  exact ⟨hs, hw, hv, hr, ho, hi v hv⟩

end Value

end Devalang
