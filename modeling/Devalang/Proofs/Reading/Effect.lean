import Devalang.Outline.Reading
import Devalang.Proofs.Statement.Extent
import Devalang.Proofs.Statement.Header
import Mathlib.Data.List.Infix

/-! What one line does to a reading: it adds one statement to the outline, or it closes a block. What
remains open was open before, except for the block that the line opens. -/
namespace Devalang

def Context.refers (c : Context) : Nat × Option Nat := (c.node, c.conditional)

section Stack
variable {indent k : Nat} {cs outer : List Context} {owner : Option Nat}

theorem settle_refers (indent : Nat) (cs : List Context) :
    (settle indent cs).2.map Context.refers = cs.map Context.refers := by
  induction cs with
  | nil => rfl
  | cons c cs ih =>
    rw [settle]
    cases hb : c.bodyIndent with
    | none => simp [Context.refers]
    | some b =>
      by_cases hle : b ≤ indent
      · simp [hle]
      · simp [hle, ih]

theorem settle_owner (h : (settle indent cs).1 = some k) : ∃ c ∈ cs, c.node = k := by
  induction cs with
  | nil => simp [settle] at h
  | cons c cs ih =>
    rw [settle] at h
    cases hb : c.bodyIndent with
    | none => exact ⟨c, by simp, by simpa [hb] using h⟩
    | some b =>
      by_cases hle : b ≤ indent
      · exact ⟨c, by simp, by simpa [hb, hle] using h⟩
      · obtain ⟨d, hd, hk⟩ := ih (by simpa [hb, hle] using h)
        exact ⟨d, List.mem_cons_of_mem c hd, hk⟩

/-- The open block `c` is the innermost one of the given indent that has an `if`, and this is `k`; `outer`
are the blocks outside of `c`. -/
structure Continues (indent : Nat) (cs : List Context) (c : Context) (k : Nat) (outer : List Context) :
    Prop where
  stack : ∃ inner, cs = inner ++ c :: outer ∧ ∀ d ∈ inner, d.indent = indent → d.conditional = none
  indent : c.indent = indent
  conditional : c.conditional = some k

theorem findConditional_cons_of_none {c : Context} (h : c.indent = indent → c.conditional = none) :
    findConditional indent (c :: cs) = findConditional indent cs := by
  rw [findConditional]
  cases hc : c.conditional with
  | none => rfl
  | some k => exact if_neg fun hi => by cases hc.symm.trans (h hi)

theorem findConditional_append_of_none {inner : List Context}
    (h : ∀ c ∈ inner, c.indent = indent → c.conditional = none) :
    findConditional indent (inner ++ cs) = findConditional indent cs := by
  induction inner with
  | nil => rfl
  | cons c inner ih =>
    obtain ⟨hc, hinner⟩ := List.forall_mem_cons.1 h
    exact (findConditional_cons_of_none hc).trans (ih hinner)

theorem Continues.findConditional_eq {c : Context} (h : Continues indent cs c k outer) :
    findConditional indent cs = some (k, outer) := by
  obtain ⟨⟨inner, rfl, hinner⟩, hi, hk⟩ := h
  rw [findConditional_append_of_none hinner, findConditional, hk]
  exact if_pos hi

theorem findConditional_eq_none (h : findConditional indent cs = none) :
    ∀ c ∈ cs, c.indent = indent → c.conditional = none := by
  induction cs with
  | nil => simp
  | cons c cs ih =>
    have hc : c.indent = indent → c.conditional = none := by
      intro hi
      cases hk : c.conditional with
      | none => rfl
      | some k => simp [findConditional, hk, hi] at h
    rw [findConditional_cons_of_none hc] at h
    exact List.forall_mem_cons.2 ⟨hc, ih h⟩

theorem findConditional_eq_some (h : findConditional indent cs = some (k, outer)) :
    ∃ c, Continues indent cs c k outer := by
  induction cs with
  | nil => cases h
  | cons c cs ih =>
    by_cases hc : c.indent = indent → c.conditional = none
    · rw [findConditional_cons_of_none hc] at h
      obtain ⟨d, ⟨inner, rfl, hinner⟩, hi, hk⟩ := ih h
      exact ⟨d, ⟨c :: inner, rfl, List.forall_mem_cons.2 ⟨hc, hinner⟩⟩, hi, hk⟩
    · obtain ⟨hi, hc⟩ := Classical.not_imp.1 hc
      obtain ⟨j, hj⟩ := Option.ne_none_iff_exists'.1 hc
      have hcs : j = k ∧ cs = outer := by simpa [findConditional, hi, hj] using h
      obtain ⟨rfl, rfl⟩ := hcs
      exact ⟨c, ⟨[], rfl, by simp⟩, hi, hj⟩

theorem Continues.suffix {c : Context} (h : Continues indent cs c k outer) : c :: outer <:+ cs := by
  obtain ⟨inner, rfl, -⟩ := h.stack
  exact List.suffix_append inner _

theorem findParam_eq_some {o : Outline} (h : findParam o cs = some (k, outer)) :
    ∃ c, c :: outer <:+ cs ∧ c.node = k ∧ o[k]?.any (·.statement.isParam) = true := by
  induction cs with
  | nil => simp [findParam] at h
  | cons c cs ih =>
    rw [findParam] at h
    split at h
    · rename_i hp
      have hk : c.node = k ∧ cs = outer := by simpa using h
      exact ⟨c, by rw [hk.2], hk.1, by rw [← hk.1]; exact hp⟩
    · obtain ⟨d, hd, hk⟩ := ih h
      exact ⟨d, hd.trans (List.suffix_cons c cs), hk⟩

end Stack

namespace Reading

/-- The statement belongs to an open block in a way that keeps the outline a tree. -/
def Fits (r : Reading) (e : Entry) : Prop :=
  match e.role with
  | .body => ∀ k, e.owner = some k → ∃ c ∈ r.stack, c.node = k
  | .elseIf => ∃ k, e.owner = some k ∧ ∃ c ∈ r.stack, c.conditional = some k
  | .alternate =>
    ∃ k, e.owner = some k ∧ r.outline.hasAlternate k = false ∧ ∃ c ∈ r.stack, c.conditional = some k

/-- The effect of a line `leading ++ content` that has the given index and takes `n` of the lines that
follow. -/
inductive Effect (r : Reading) (index : Nat) (leading content : Text) (following : List Text) (n : Nat)
    (r' : Reading) : Prop where
  /-- A simple statement is added. -/
  | adds (s : Simple) (owner : Option Nat)
      (reads : Statement.ReadsAs leading.length following content (.simple s) n)
      (fits : r.Fits ⟨.simple s, some ⟨index, index + n, leading⟩, owner, .body⟩)
      (outline : r'.outline =
        r.outline.push ⟨.simple s, some ⟨index, index + n, leading⟩, owner, .body⟩)
      (stack : r'.stack.map Context.refers <:+ r.stack.map Context.refers)
  /-- A block is added and opened. -/
  | opens (h : Header) (owner : Option Nat) (role : Role) (single : n = 0)
      (reads : Statement.ReadsAs leading.length following content (.block h) 0)
      (fits : r.Fits ⟨.block h, some ⟨index, index, leading⟩, owner, role⟩)
      (outline : r'.outline = r.outline.push ⟨.block h, some ⟨index, index, leading⟩, owner, role⟩)
      (c : Context) (cs : List Context) (stack : r'.stack = c :: cs) (node : c.node = r.outline.size)
      (conditional : ∀ k, c.conditional = some k →
        k = r.outline.size ∨ ∃ d ∈ r.stack, d.conditional = some k)
      (outer : cs.map Context.refers <:+ r.stack.map Context.refers)
  /-- An open `param` block is closed. -/
  | closes (c : Context) (single : n = 0) (outline : r'.outline = r.outline.close c.node index)
      (param : r.outline[c.node]?.any (·.statement.isParam) = true)
      (stack : c :: r'.stack <:+ r.stack)

variable {r r' : Reading} {index indent n : Nat} {leading content : Text} {following : List Text}

theorem Fits.of_stack {cs : List Context} {e : Entry} (hsub : ∀ c ∈ cs, c ∈ r.stack)
    (h : ({ r with stack := cs } : Reading).Fits e) : r.Fits e := by
  cases hr : e.role with
  | body =>
    simp only [Fits, hr] at h ⊢
    intro k hk
    obtain ⟨c, hc, hn⟩ := h k hk
    exact ⟨c, hsub c hc, hn⟩
  | elseIf =>
    simp only [Fits, hr] at h ⊢
    obtain ⟨k, hk, c, hc, hn⟩ := h
    exact ⟨k, hk, c, hsub c hc, hn⟩
  | alternate =>
    simp only [Fits, hr] at h ⊢
    obtain ⟨k, hk, ha, c, hc, hn⟩ := h
    exact ⟨k, hk, ha, c, hsub c hc, hn⟩

theorem Effect.of_suffix {cs : List Context} (hs : cs <:+ r.stack)
    (h : ({ r with stack := cs } : Reading).Effect index leading content following n r') :
    r.Effect index leading content following n r' := by
  have hsub : ∀ c ∈ cs, c ∈ r.stack := fun c hc => hs.subset hc
  cases h with
  | adds s owner reads fits outline stack =>
    exact .adds s owner reads (fits.of_stack hsub) outline (stack.trans (hs.map _))
  | opens h owner role single reads fits outline c ds stack node conditional outer =>
    refine .opens h owner role single reads (fits.of_stack hsub) outline c ds stack node ?_
      (outer.trans (hs.map _))
    intro k hk
    rcases conditional k hk with rfl | ⟨d, hd, hc⟩
    · exact Or.inl rfl
    · exact Or.inr ⟨d, hsub d hd, hc⟩
  | closes c single outline param stack => exact .closes c single outline param (stack.trans hs)

theorem effect_of_remark {m : Remark} (h : (r.remark m).Effect index leading content following n r') :
    r.Effect index leading content following n r' := by
  cases h with
  | adds s owner reads fits outline stack => exact .adds s owner reads fits outline stack
  | opens h owner role single reads fits outline c cs stack node conditional outer =>
    exact .opens h owner role single reads fits outline c cs stack node conditional outer
  | closes c single outline param stack => exact .closes c single outline param stack

theorem add_effect (r : Reading) (indent index : Nat) {s : Simple}
    (h : Statement.ReadsAs leading.length following content (.simple s) n) :
    r.Effect index leading content following n
      (r.add indent (.simple s) ⟨index, index + n, leading⟩) :=
  .adds s (settle indent r.stack).1 h (fun _ => settle_owner) rfl
    (by rw [add, settle_refers])

theorem addBlank_effect (r : Reading) (index : Nat) (leading : Text) (following : List Text) :
    r.Effect index leading [] following 0 (r.addBlank ⟨index, index, leading⟩) := by
  have hs : (r.addBlank ⟨index, index, leading⟩).stack <:+ r.stack := by
    simp only [addBlank]
    cases hr : r.stack with
    | nil => exact List.suffix_rfl
    | cons c cs =>
      by_cases hf : c.isFlat = true
      · simp [hf]
      · simp [hf]
  refine .adds .blank ((r.addBlank ⟨index, index, leading⟩).stack.head?.map (·.node)) (.blank rfl) ?_
    rfl (hs.map _)
  intro k hk
  obtain ⟨c, hc, rfl⟩ := Option.map_eq_some_iff.1 hk
  exact ⟨c, hs.subset (List.mem_of_mem_head? hc), rfl⟩

/-- The branch `h` has been added to the `if` `k`, and it is open instead of the block `c`, which continued
this `if`, and of the blocks inside of `c`. -/
structure Joins (r : Reading) (indent : Nat) (origin : Option Origin) (h : Header) (role : Role) (c : Context)
    (k : Nat) (outer : List Context) (r' : Reading) : Prop where
  continues : Continues indent r.stack c k outer
  kind : (∃ x, h = .elseIf x) ∧ role = .elseIf ∨
    h = .otherwise ∧ role = .alternate ∧ r.outline.hasAlternate k = false
  stack : r'.stack =
    ⟨h.label, indent, r.outline.size, none, if role = .elseIf then some k else none⟩ :: outer
  outline : r'.outline = r.outline.push ⟨.block h, origin, some k, role⟩
  remarks : r'.remarks = r.remarks

theorem addBranch_eq_some {branch : Nat} {origin : Option Origin}
    (hadd : r.addBranch index indent origin content = (r', some branch)) :
    branch = r.outline.size ∧ ∃ h role c k outer, Header.readBranch content = some h ∧
      r.Joins indent origin h role c k outer r' := by
  simp only [addBranch] at hadd
  split at hadd
  · cases hadd
  rename_i h hh
  split at hadd
  · cases hadd
  rename_i k outer hf
  obtain ⟨c, hc⟩ := findConditional_eq_some hf
  split at hadd
  · rename_i he
    split at hadd
    · cases hadd
    · rename_i ha
      cases hadd
      exact ⟨rfl, h, .alternate, c, k, outer, hh, hc, Or.inr ⟨he, rfl, by simpa using ha⟩, rfl, rfl, rfl⟩
  · rename_i he
    cases hadd
    refine ⟨rfl, h, .elseIf, c, k, outer, hh, hc, Or.inl ⟨?_, rfl⟩, rfl, rfl, rfl⟩
    have hbranch := Header.isBranch_of_readBranch hh
    cases h with
    | elseIf x => exact ⟨x, rfl⟩
    | otherwise => exact absurd rfl he
    | _ => cases hbranch

/-- Why a line is not added as a branch: it is none, there is no open `if` that it continues, or this has
an `else` branch and would get a second one. The remark says which. -/
theorem addBranch_eq_none {origin : Option Origin}
    (hadd : r.addBranch index indent origin content = (r', none)) :
    Header.readBranch content = none ∧ r' = r ∨
      (∀ c ∈ r.stack, c.indent = indent → c.conditional = none) ∧
        r' = r.remark (.branchWithoutIf index content) ∨
      (Header.readBranch content = some .otherwise ∧ ∃ c k outer, Continues indent r.stack c k outer ∧
        r.outline.hasAlternate k = true) ∧ r' = r.remark (.secondElse index) := by
  simp only [addBranch] at hadd
  split at hadd
  · rename_i hh
    cases hadd
    exact Or.inl ⟨hh, rfl⟩
  rename_i h hh
  split at hadd
  · rename_i hf
    cases hadd
    exact Or.inr (Or.inl ⟨findConditional_eq_none hf, rfl⟩)
  rename_i k outer hf
  obtain ⟨c, hc⟩ := findConditional_eq_some hf
  split at hadd
  · rename_i he
    split at hadd
    · rename_i ha
      cases hadd
      exact Or.inr (Or.inr ⟨⟨he ▸ hh, c, k, outer, hc, ha⟩, rfl⟩)
    · cases hadd
  · cases hadd

theorem addBranch_effect {branch : Nat}
    (hadd : r.addBranch index indent (some ⟨index, index, leading⟩) content = (r', some branch)) :
    r.Effect index leading content following 0 r' := by
  obtain ⟨-, h, role, c, k, outer, hh, hc, hkind, hstack, hout, -⟩ := addBranch_eq_some hadd
  have hmem : c ∈ r.stack := hc.suffix.subset (by simp)
  have houter : outer <:+ r.stack := (List.suffix_cons c outer).trans hc.suffix
  rcases hkind with ⟨-, rfl⟩ | ⟨-, rfl, ha⟩
  · refine .opens h (some k) .elseIf rfl (.branch h hh) ⟨k, rfl, c, hmem, hc.conditional⟩ hout _ outer hstack rfl
      ?_ (houter.map _)
    intro j hj
    cases hj
    exact Or.inr ⟨c, hmem, hc.conditional⟩
  · exact .opens h (some k) .alternate rfl (.branch h hh) ⟨k, rfl, ha, c, hmem, hc.conditional⟩ hout _ outer hstack
      rfl (by simp) (houter.map _)

theorem addBranch_none {origin : Option Origin}
    (hadd : r.addBranch index indent origin content = (r', none)) :
    r' = r ∨ ∃ m, r' = r.remark m := by
  rcases addBranch_eq_none hadd with ⟨-, h⟩ | ⟨-, h⟩ | ⟨-, h⟩
  · exact Or.inl h
  · exact Or.inr ⟨_, h⟩
  · exact Or.inr ⟨_, h⟩

theorem addBrace_effect (r : Reading) (indent index : Nat) (leading : Text)
    (following : List Text) : r.Effect index leading ['}'] following 0
      (r.addBrace indent ⟨index, index, leading⟩ ['}']) := by
  simp only [addBrace]
  split
  · rename_i k outer hf
    obtain ⟨c, hc, rfl, hp⟩ := findParam_eq_some hf
    exact .closes c rfl rfl hp hc
  · exact effect_of_remark
      (add_effect _ _ _ (.unknown (by simp) (Statement.read?_brace leading.length following)))

theorem addStatement_effect (r : Reading) (index : Nat) (leading : Text) (following : List Text)
    (h : content ≠ []) :
    r.Effect index leading content following (r.addStatement index leading content following).2
      (r.addStatement index leading content following).1 := by
  have hs : r.stack.dropWhile (!·.contains leading.length) <:+ r.stack := List.dropWhile_suffix _
  refine Effect.of_suffix hs ?_
  simp only [addStatement]
  split
  · rename_i hr
    exact effect_of_remark (add_effect _ _ _ (.unknown h hr))
  · rename_i st n hr
    cases st with
    | simple s => exact add_effect _ _ _ (.known _ n h hr)
    | block b =>
      obtain rfl := Statement.read?_block hr
      refine .opens b _ .body rfl (.known _ 0 h hr) (fun _ => settle_owner) rfl _ _ rfl rfl ?_ ?_
      · intro k hk
        split at hk
        · cases hk; exact Or.inl rfl
        · cases hk
      · rw [add, settle_refers]

theorem addStatement_le (r : Reading) (index : Nat) (leading content : Text)
    (following : List Text) :
    (r.addStatement index leading content following).2 ≤ following.length := by
  simp only [addStatement]
  split
  · exact Nat.zero_le _
  · rename_i st n hr
    cases st <;> exact Statement.read?_le hr

/-- Every line has an effect of one of the three kinds. -/
theorem readLine_effect (r : Reading) (index : Nat) (line : Text) (following : List Text) :
    r.Effect index (Text.leading (Text.trimReturns line)) (Text.trim line) following
      (r.readLine index line following).2 (r.readLine index line following).1 := by
  simp only [readLine]
  split
  · rename_i he
    rw [List.isEmpty_iff.1 he]
    exact addBlank_effect _ _ _ _
  rename_i he
  have hne : Text.trim line ≠ [] := fun h => he (List.isEmpty_iff.2 h)
  split
  · split
    · rename_i r' branch hb
      exact addBranch_effect hb
    · rename_i r' hb
      rcases addBranch_none hb with rfl | ⟨m, rfl⟩
      · exact addStatement_effect _ _ _ _ hne
      · exact effect_of_remark (addStatement_effect _ _ _ _ hne)
  split
  · rename_i hbrace
    rw [hbrace]
    exact addBrace_effect _ _ _ _ _
  split
  · exact Effect.of_suffix (List.dropWhile_suffix _) (addStatement_effect _ _ _ _ hne)
  · exact addStatement_effect _ _ _ _ hne

theorem readLine_le (r : Reading) (index : Nat) (line : Text) (following : List Text) :
    (r.readLine index line following).2 ≤ following.length := by
  simp only [readLine]
  repeat' split
  all_goals first | exact Nat.zero_le _ | exact addStatement_le _ _ _ _ _

end Reading

end Devalang
