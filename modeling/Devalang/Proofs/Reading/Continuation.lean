import Devalang.Proofs.Outline.Descent
import Devalang.Proofs.Reading.Coverage

/-! A line that may continue an `if`, read while any blocks are open and whatever has been read before. It
is refused, and then nothing changes, or it becomes a branch of one `if`, and then nothing else changes. -/
namespace Devalang

namespace Outline
variable {o : Outline} {k : Nat}

/-- An entry that is added comes last at its place, and no other place changes. -/
theorem placedAt_push (o : Outline) (e : Entry) (p : Option Nat × Role) :
    placedAt (o.push e) p = o.placedAt p ++ if e.place = p then [(e, o.size)] else [] := by
  rw [placedAt, Array.toList_push, List.zipIdx_append, List.filter_append, ← placedAt, Nat.zero_add,
    Array.length_toList, List.zipIdx_singleton, List.filter_singleton]
  simp

theorem hasAlternate_eq_false_iff_placedAt : o.hasAlternate k = false ↔ o.placedAt (some k, .alternate) = [] := by
  rw [hasAlternate_eq_false_iff, List.eq_nil_iff_forall_not_mem, List.mem_map]
  constructor
  · rintro h ⟨e, j⟩ hm
    obtain ⟨he, hp⟩ := mem_placedAt.1 hm
    exact h ⟨e, Array.mem_toList_iff.2 (Array.mem_of_getElem? he), hp⟩
  · rintro h ⟨e, he, hp⟩
    obtain ⟨j, hj⟩ := List.mem_iff_getElem?.1 he
    exact h (e, j) (mem_placedAt.2 ⟨by rwa [Array.getElem?_toList] at hj, hp⟩)

end Outline

namespace Reading
variable {r r' : Reading} {indent k : Nat} {origin : Option Origin} {h : Header} {role : Role} {c : Context}
  {outer : List Context}

/-- The line is no branch, or there is no open `if` that it continues, or this has an `else` branch and
would get a second one. -/
def Refuses (r : Reading) (indent : Nat) (content : Text) : Prop :=
  Header.readBranch content = none ∨ (∀ c ∈ r.stack, c.indent = indent → c.conditional = none) ∨
    Header.readBranch content = some .otherwise ∧ ∃ c k outer, Continues indent r.stack c k outer ∧
      r.outline.placedAt (some k, .alternate) ≠ []

/-- The `if` gets the branch as its last one of that kind, and nothing else gets or loses a member. -/
theorem Joins.placedAt (hj : r.Joins indent origin h role c k outer r') (p : Option Nat × Role) :
    r'.outline.placedAt p = r.outline.placedAt p ++
      if p = (some k, role) then [(⟨.block h, origin, some k, role⟩, r.outline.size)] else [] := by
  rw [hj.outline, Outline.placedAt_push]
  simp only [Entry.place, eq_comm]

theorem Joins.kept (hj : r.Joins indent origin h role c k outer r') {j : Nat} (hlt : j < r.outline.size) :
    r'.outline[j]? = r.outline[j]? := by
  rw [hj.outline, Array.getElem?_push_lt hlt, Array.getElem?_eq_getElem hlt]

theorem Joins.only (hj : r.Joins indent origin h role c k outer r') (hr : role = .alternate) :
    r.outline.placedAt (some k, .alternate) = [] := by
  rcases hj.kind with ⟨-, he⟩ | ⟨-, -, ha⟩
  · rw [he] at hr
    cases hr
  · exact Outline.hasAlternate_eq_false_iff_placedAt.1 ha

/-- A line changes neither the open blocks nor the outline, or it becomes one branch of the `if` that it
continues, whatever blocks are open and whatever branches there are. -/
theorem addBranch_atomic (r : Reading) (index indent : Nat) (origin : Option Origin) (content : Text) :
    (∃ r', r.addBranch index indent origin content = (r', none) ∧ r.Refuses indent content ∧
      r'.stack = r.stack ∧ r'.outline = r.outline) ∨
    ∃ r' h role c k outer, r.addBranch index indent origin content = (r', some r.outline.size) ∧
      Header.readBranch content = some h ∧ r.Joins indent origin h role c k outer r' ∧
      (role = .alternate → r.outline.placedAt (some k, .alternate) = []) ∧
      (∀ j < r.outline.size, r'.outline[j]? = r.outline[j]?) ∧
      ∀ p, r'.outline.placedAt p = r.outline.placedAt p ++
        if p = (some k, role) then [(⟨.block h, origin, some k, role⟩, r.outline.size)] else [] := by
  generalize hadd : r.addBranch index indent origin content = added
  obtain ⟨r', branch⟩ := added
  cases branch with
  | none =>
    refine Or.inl ⟨r', rfl, ?_⟩
    rcases addBranch_eq_none hadd with ⟨hn, rfl⟩ | ⟨hn, rfl⟩ | ⟨⟨ho, c, k, outer, hc, ha⟩, rfl⟩
    · exact ⟨Or.inl hn, rfl, rfl⟩
    · exact ⟨Or.inr (Or.inl hn), rfl, rfl⟩
    · refine ⟨Or.inr (Or.inr ⟨ho, c, k, outer, hc, fun hp => ?_⟩), rfl, rfl⟩
      rw [Outline.hasAlternate_eq_false_iff_placedAt.2 hp] at ha
      cases ha
  | some branch =>
    obtain ⟨rfl, h, role, c, k, outer, hh, hj⟩ := addBranch_eq_some hadd
    exact Or.inr ⟨r', h, role, c, k, outer, rfl, hh, hj, hj.only, fun j hlt => hj.kept hlt, hj.placedAt⟩

end Reading

end Devalang
