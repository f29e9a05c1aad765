import Devalang.Proofs.Reading.Order
import Devalang.Proofs.Reading.Persistence
import Devalang.Proofs.Statement.Following
import Devalang.Proofs.Statement.Header

/-! Reading a text as a sequence of turns, one for each line at which a statement, a branch or a closing
brace is read. One lemma says all that a turn can do to the outline and to the open blocks, and an
invariant of the turns holds of all that is read. -/
namespace Devalang

/-- A line that is read: what had been read before it, its index, the line and the lines after it. -/
structure Turn where
  before : Reading
  index : Nat
  line : Text
  following : List Text

/-- The block that a statement opens, if it is one of the given index and indent. -/
def Statement.opened (s : Statement) (indent node : Nat) : List Context :=
  match s with
  | .simple _ => []
  | .block h => [⟨h.label, indent, node, none, if s.isConditional then some node else none⟩]

/-- What stays the same of an open block: its indent and the statements that it refers to. -/
def Context.frame (c : Context) : Nat × Nat × Option Nat := (c.indent, c.node, c.conditional)

theorem frame_settle (indent : Nat) (cs : List Context) :
    (settle indent cs).2.map Context.frame = cs.map Context.frame := by
  induction cs with
  | nil => rfl
  | cons c cs ih =>
    rw [settle]
    cases hb : c.bodyIndent with
    | none => simp [Context.frame]
    | some b =>
      by_cases hle : b ≤ indent
      · simp [hle]
      · simp [hle, ih]

theorem frame_begun (indent : Nat) (cs : List Context) :
    (begun indent cs).map Context.frame = cs.map Context.frame := by
  cases cs <;> rfl

theorem exists_of_frame {cs ds : List Context} {c : Context} (h : cs.map Context.frame = ds.map Context.frame)
    (hc : c ∈ cs) : ∃ d ∈ ds, d.indent = c.indent ∧ d.node = c.node ∧ d.conditional = c.conditional := by
  have hm : c.frame ∈ ds.map Context.frame := h ▸ List.mem_map_of_mem hc
  obtain ⟨d, hd, hf⟩ := List.mem_map.1 hm
  simp only [Context.frame, Prod.mk.injEq] at hf
  exact ⟨d, hd, hf⟩

namespace Turn

def leading (t : Turn) : Text := Text.leading (Text.trimReturns t.line)

def content (t : Turn) : Text := Text.trim t.line

def indent (t : Turn) : Nat := t.leading.length

def origin (t : Turn) : Origin := ⟨t.index, t.index, t.leading⟩

def after (t : Turn) : Reading := (t.before.readLine t.index t.line t.following).1

def taken (t : Turn) : Nat := (t.before.readLine t.index t.line t.following).2

/-- The statement that the line is, if it is one, with the number of following lines that it takes; it is
unknown if no reader takes it. -/
def statement (t : Turn) : Statement × Nat :=
  (Statement.read? t.indent t.following t.content).getD (.simple (.unknown t.content), 0)

/-- The line is the header of a block, or looks like one, and does not continue an `if`. -/
def isHeader (t : Turn) : Bool :=
  isHeaderLine t.content && !Text.startsWith "else".toList t.content

/-- The blocks that stay open around a statement on this line: a header closes flat blocks of its indent
from the innermost one on, and every statement closes the blocks that do not contain it. -/
def kept (t : Turn) : List Context :=
  (if t.isHeader then t.before.stack.dropWhile fun c => c.isFlat && c.indent == t.indent
    else t.before.stack).dropWhile (!·.contains t.indent)

theorem kept_suffix (t : Turn) : t.kept <:+ t.before.stack := by
  rw [kept]
  split
  · exact (List.dropWhile_suffix _).trans (List.dropWhile_suffix _)
  · exact List.dropWhile_suffix _

theorem contains_of_head?_kept {t : Turn} {c : Context} (h : t.kept.head? = some c) :
    c.contains t.indent = true := by
  rw [kept] at h
  exact contains_of_head?_dropWhile h

def IsStatement (t : Turn) : Prop :=
  t.before.IsStatement t.index t.indent (some t.origin) t.content

def step (t : Turn) : Reading.Step := ⟨t.index, t.index + t.taken, t.indent, t.after⟩

end Turn

namespace Reading

def turnsFrom : (r : Reading) → (skip index : Nat) → List Text → List Turn
  | _, _, _, [] => []
  | r, skip + 1, index, _ :: lines => turnsFrom r skip (index + 1) lines
  | r, 0, index, line :: lines =>
    ⟨r, index, line, lines⟩ ::
      turnsFrom (r.readLine index line lines).1 (r.readLine index line lines).2 (index + 1) lines

def turns (s : Text) : List Turn := start.turnsFrom 0 0 s.lines

/-- The turns are the steps, each with what had been read before it. -/
theorem steps_eq_map_turns (r : Reading) (skip index : Nat) (lines : List Text) :
    r.steps skip index lines = (r.turnsFrom skip index lines).map Turn.step := by
  induction lines generalizing r skip index with
  | nil => cases skip <;> rfl
  | cons line lines ih =>
    cases skip with
    | succ skip => exact ih r skip (index + 1)
    | zero =>
      rw [steps, turnsFrom, List.map_cons, ih]
      rfl

/-- What holds at the start and is kept by every turn holds before and after every turn and at the end.
The first argument is the index of the line that is read next. -/
theorem turnsFrom_invariant {P : Nat → Reading → Prop} {r : Reading} {skip index : Nat}
    {lines : List Text} (start : P (index + skip) r)
    (turn : ∀ t ∈ r.turnsFrom skip index lines, P t.index t.before →
      P (t.index + t.taken + 1) t.after) :
    (∀ t ∈ r.turnsFrom skip index lines, P t.index t.before ∧ P (t.index + t.taken + 1) t.after) ∧
      ∃ next, P next (r.readLines skip index lines) := by
  induction lines generalizing r skip index with
  | nil =>
    have hnone : r.turnsFrom skip index [] = [] := by cases skip <;> rfl
    have hread : r.readLines skip index [] = r := by cases skip <;> rfl
    rw [hnone, hread]
    exact ⟨by simp, _, start⟩
  | cons line lines ih =>
    cases skip with
    | succ skip =>
      have he : index + (skip + 1) = index + 1 + skip := by omega
      rw [he] at start
      exact ih start turn
    | zero =>
      have hnext : P (index + (r.readLine index line lines).2 + 1) (r.readLine index line lines).1 :=
        turn ⟨r, index, line, lines⟩ List.mem_cons_self start
      rw [Nat.add_right_comm] at hnext
      obtain ⟨hall, hend⟩ := ih hnext fun t ht => turn t (List.mem_cons_of_mem _ ht)
      refine ⟨fun t ht => ?_, by simpa [readLines] using hend⟩
      rcases List.mem_cons.1 ht with rfl | ht
      · exact ⟨start, by rwa [Nat.add_right_comm] at hnext⟩
      · exact hall t ht

theorem turns_invariant {P : Reading → Prop} {s : Text} (start : P .start)
    (turn : ∀ t ∈ turns s, P t.before → P t.after) :
    (∀ t ∈ turns s, P t.before ∧ P t.after) ∧ P (ofText s) := by
  obtain ⟨hall, -, hend⟩ := turnsFrom_invariant (P := fun _ => P) start turn
  exact ⟨hall, hend⟩

end Reading

namespace Reading
variable {r r' : Reading} {index indent : Nat} {content : Text} {origin : Option Origin}

theorem addStatement_spec (r : Reading) (index : Nat) (leading content : Text) (following : List Text)
    {cs : List Context} (hcs : cs = r.stack.dropWhile (!·.contains leading.length)) :
    ∃ s n, (Statement.read? leading.length following content).getD (.simple (.unknown content), 0) =
        (s, n) ∧ s ≠ .simple .blank ∧
      (r.addStatement index leading content following).1.outline = r.outline.push
        ⟨s, some ⟨index, index + n, leading⟩, cs.head?.map Context.node, .body⟩ ∧
      (r.addStatement index leading content following).1.stack =
        s.opened leading.length r.outline.size ++ begun leading.length cs ∧
      ∀ m ∈ (r.addStatement index leading content following).1.remarks,
        m ∈ r.remarks ∨ m = .unknownStatement index content := by
  have hsettle : settle leading.length cs = (cs.head?.map Context.node, begun leading.length cs) := by
    refine settle_of_contains ?_
    rw [hcs]
    exact fun c => contains_of_head?_dropWhile
  simp only [addStatement, ← hcs]
  cases hr : Statement.read? leading.length following content with
  | none =>
    refine ⟨.simple (.unknown content), 0, rfl, by simp, ?_, ?_, ?_⟩
    · simp [add, remark, hsettle]
    · simp [add, remark, hsettle, Statement.opened]
    · simp [add, remark]
  | some x =>
    obtain ⟨s, n⟩ := x
    refine ⟨s, n, rfl, fun he => Statement.read?_ne_blank (he ▸ hr), ?_⟩
    cases s with
    | simple s =>
      refine ⟨?_, ?_, fun m hm => Or.inl hm⟩ <;> simp [add, hsettle, Statement.opened]
    | block b =>
      refine ⟨?_, ?_, fun m hm => Or.inl hm⟩ <;> simp [add, hsettle, Statement.opened]

theorem addBranch_keeps (hadd : r.addBranch index indent origin content = (r', none)) :
    r'.outline = r.outline ∧ r'.stack = r.stack ∧
      ∀ m ∈ r'.remarks, m ∈ r.remarks ∨ m = .branchWithoutIf index content ∨
        m = .secondElse index ∧ ∃ k, r.outline.hasAlternate k = true ∧
          ∃ c ∈ r.stack, c.conditional = some k := by
  rcases addBranch_eq_none hadd with ⟨-, rfl⟩ | ⟨-, rfl⟩ | ⟨⟨-, c, k, outer, hc, ha⟩, rfl⟩
  · exact ⟨rfl, rfl, fun m hm => Or.inl hm⟩
  · refine ⟨rfl, rfl, fun m hm => ?_⟩
    rcases Array.mem_push.1 hm with hm | rfl
    · exact Or.inl hm
    · exact Or.inr (Or.inl rfl)
  · refine ⟨rfl, rfl, fun m hm => ?_⟩
    rcases Array.mem_push.1 hm with hm | rfl
    · exact Or.inl hm
    · exact Or.inr (Or.inr ⟨rfl, k, ha, c, hc.suffix.subset List.mem_cons_self, hc.conditional⟩)

end Reading

namespace Turn
variable {s : Text} {t : Turn}

theorem effect (t : Turn) : t.before.Effect t.index t.leading t.content t.following t.taken t.after :=
  Reading.readLine_effect t.before t.index t.line t.following

theorem sound (ht : t ∈ Reading.turns s) : t.before.Sound t.index ∧ t.after.Sound (t.index + t.taken + 1) :=
  (Reading.turnsFrom_invariant (P := fun next r => r.Sound next) Reading.Sound.start
    fun t _ h => h.step t.effect).1 t ht

theorem ordered (ht : t ∈ Reading.turns s) : t.before.Ordered ∧ t.after.Ordered :=
  (Reading.turns_invariant Reading.Ordered.start fun t _ h => h.readLine t.index t.line t.following).1 t ht

/-- What a line does to the outline, the open blocks and the remarks. -/
inductive Move (t : Turn) : Prop where
  /-- A blank line goes to the innermost block, after a flat one has been closed. -/
  | blank (content : t.content = [])
      (outline : t.after.outline = t.before.outline.push
        ⟨.simple .blank, some t.origin, t.after.stack.head?.map Context.node, .body⟩)
      (stack : t.after.stack <:+ t.before.stack)
      (remarks : t.after.remarks = t.before.remarks)
  /-- A branch takes the place of an open block of its indent that has an `if`, and of the blocks
  inside of it. -/
  | branch (notStatement : ¬ t.IsStatement) (b : Header) (role : Role) (c : Context) (k : Nat)
      (outer : List Context) (conditional : Option Nat) (suffix : c :: outer <:+ t.before.stack)
      (continues : c.conditional = some k) (indent : c.indent = t.indent)
      (kind : (∃ x, b = .elseIf x) ∧ role = .elseIf ∧ conditional = some k ∨
        b = .otherwise ∧ role = .alternate ∧ conditional = none)
      (outline : t.after.outline = t.before.outline.push ⟨.block b, some t.origin, some k, role⟩)
      (stack : t.after.stack =
        ⟨b.label, t.indent, t.before.outline.size, none, conditional⟩ :: outer)
      (remarks : t.after.remarks = t.before.remarks)
  /-- A brace closes an open `param` block and the blocks inside of it. -/
  | close (content : t.content = ['}']) (c : Context)
      (param : t.before.outline[c.node]?.any (·.statement.isParam) = true)
      (outline : t.after.outline = t.before.outline.close c.node t.index)
      (stack : c :: t.after.stack <:+ t.before.stack)
      (remarks : t.after.remarks = t.before.remarks)
  /-- A brace that closes no `param` block is put where its indent says, and closes nothing. -/
  | stray (content : t.content = ['}'])
      (none : findParam t.before.outline t.before.stack = none)
      (outline : t.after.outline = t.before.outline.push
        ⟨.strayBrace, some t.origin, (settle t.indent t.before.stack).1, .body⟩)
      (stack : t.after.stack = (settle t.indent t.before.stack).2)
      (remarks : t.after.remarks = t.before.remarks.push (.noParam t.index))
  /-- A statement goes to the innermost of the blocks that stay open around it. -/
  | statement (isStatement : t.IsStatement) (s : Statement) (n : Nat) (reads : t.statement = (s, n))
      (nonblank : s ≠ .simple .blank)
      (outline : t.after.outline = t.before.outline.push
        ⟨s, some ⟨t.index, t.index + n, t.leading⟩, t.kept.head?.map Context.node, .body⟩)
      (stack : t.after.stack = s.opened t.indent t.before.outline.size ++ begun t.indent t.kept)
      (remarks : ∀ m ∈ t.after.remarks, m ∈ t.before.remarks ∨ m = .unknownStatement t.index t.content ∨
        m = .branchWithoutIf t.index t.content ∨
          m = .secondElse t.index ∧ ∃ k, t.before.outline.hasAlternate k = true ∧
            ∃ c ∈ t.before.stack, c.conditional = some k)

theorem move_of_branch {t : Turn} {r : Reading} {branch : Nat}
    (helse : Text.startsWith "else".toList t.content = true)
    (hadd : t.before.addBranch t.index t.indent (some t.origin) t.content = (r, some branch)) (hr : t.after = r) :
    t.Move := by
  have hnot : ¬ t.IsStatement := by
    intro hs
    have hnone := hs.branch helse
    rw [hadd] at hnone
    cases hnone
  obtain ⟨-, h, role, c, k, outer, -, hc, hkind, hstack, hout, hremarks⟩ := Reading.addBranch_eq_some hadd
  subst hr
  refine .branch hnot h role c k outer _ hc.suffix hc.conditional hc.indent ?_ hout hstack hremarks
  rcases hkind with ⟨hx, rfl⟩ | ⟨he, rfl, -⟩
  · exact Or.inl ⟨hx, rfl, rfl⟩
  · exact Or.inr ⟨he, rfl, rfl⟩

theorem move_of_statement {t : Turn} (hs : t.IsStatement) (r : Reading) (ho : r.outline = t.before.outline)
    (hk : r.stack.dropWhile (!·.contains t.indent) = t.kept)
    (hm : ∀ m ∈ r.remarks, m ∈ t.before.remarks ∨ m = .branchWithoutIf t.index t.content ∨
          m = .secondElse t.index ∧ ∃ k, t.before.outline.hasAlternate k = true ∧
            ∃ c ∈ t.before.stack, c.conditional = some k)
    (hr : t.after = (r.addStatement t.index t.leading t.content t.following).1) : t.Move := by
  obtain ⟨s, n, hreads, hne, hout, hstack, hremarks⟩ :=
    r.addStatement_spec t.index t.leading t.content t.following hk.symm
  rw [← hr] at hout hstack hremarks
  rw [ho] at hout hstack
  refine .statement hs s n hreads hne hout hstack fun m hmem => ?_
  rcases hremarks m hmem with hmem | rfl
  · rcases hm m hmem with hmem | hmem
    · exact Or.inl hmem
    · exact Or.inr (Or.inr hmem)
  · exact Or.inr (Or.inl rfl)

theorem after_eq (t : Turn) : t.after =
    (if t.content.isEmpty then (t.before.addBlank t.origin, 0)
    else if Text.startsWith "else".toList t.content then
      match t.before.addBranch t.index t.indent (some t.origin) t.content with
      | (r, some _) => (r, 0)
      | (r, none) => r.addStatement t.index t.leading t.content t.following
    else if t.content = ['}'] then (t.before.addBrace t.indent t.origin t.content, 0)
    else if isHeaderLine t.content then
      { t.before with stack := t.before.stack.dropWhile fun c => c.isFlat && c.indent == t.indent }.addStatement
        t.index t.leading t.content t.following
    else t.before.addStatement t.index t.leading t.content t.following).1 := rfl

theorem move_of_blank {t : Turn} (h : t.content = []) (hr : t.after = t.before.addBlank t.origin) :
    t.Move := by
  refine .blank h ?_ ?_ ?_
  · rw [hr]
    rfl
  · rw [hr]
    simp only [Reading.addBlank]
    cases hs : t.before.stack with
    | nil => exact List.suffix_rfl
    | cons c cs =>
      by_cases hf : c.isFlat = true
      · simp [hf]
      · simp [hf]
  · rw [hr]
    rfl

theorem move_of_brace {t : Turn} (h : t.content = ['}'])
    (hr : t.after = t.before.addBrace t.indent t.origin t.content) : t.Move := by
  rw [Reading.addBrace] at hr
  cases hf : findParam t.before.outline t.before.stack with
  | none =>
    rw [hf] at hr
    exact .stray h hf (by rw [hr, h]; rfl) (by rw [hr]; rfl) (by rw [hr]; rfl)
  | some x =>
    obtain ⟨k, outer⟩ := x
    rw [hf] at hr
    obtain ⟨c, hc, rfl, hp⟩ := findParam_eq_some hf
    exact .close h c hp (by rw [hr]; rfl) (by rw [hr]; exact hc) (by rw [hr])

theorem move (t : Turn) : t.Move := by
  have hafter := t.after_eq
  by_cases hne : t.content.isEmpty = true
  · rw [if_pos hne] at hafter
    exact move_of_blank (List.isEmpty_iff.1 hne) hafter
  rw [if_neg hne] at hafter
  have hnonempty : t.content ≠ [] := fun h => hne (List.isEmpty_iff.2 h)
  by_cases helse : Text.startsWith "else".toList t.content = true
  · rw [if_pos helse] at hafter
    have hbrace : t.content ≠ ['}'] := by
      intro h
      rw [h] at helse
      cases helse
    have hkept : t.kept = t.before.stack.dropWhile (!·.contains t.indent) := by
      rw [kept, isHeader, helse, Bool.not_true, Bool.and_false, if_neg (by simp)]
    split at hafter
    · rename_i r k hadd
      exact move_of_branch helse hadd hafter
    · rename_i r hadd
      obtain ⟨hout, hstack, hremarks⟩ := Reading.addBranch_keeps hadd
      exact move_of_statement ⟨hnonempty, hbrace, fun _ => by rw [hadd]⟩ r hout
        (by rw [hstack, hkept]) hremarks hafter
  rw [if_neg helse] at hafter
  by_cases hbrace : t.content = ['}']
  · rw [if_pos hbrace] at hafter
    exact move_of_brace hbrace hafter
  rw [if_neg hbrace] at hafter
  have hstatement : t.IsStatement := ⟨hnonempty, hbrace, fun h => absurd h helse⟩
  have hisHeader : t.isHeader = isHeaderLine t.content := by
    rw [isHeader, Bool.eq_false_iff.2 helse, Bool.not_false, Bool.and_true]
  by_cases hheader : isHeaderLine t.content = true
  · rw [if_pos hheader] at hafter
    refine move_of_statement hstatement { t.before with
      stack := t.before.stack.dropWhile fun c => c.isFlat && c.indent == t.indent } rfl ?_
      (fun m hm => Or.inl hm) hafter
    rw [kept, hisHeader, if_pos hheader]
  · rw [if_neg hheader] at hafter
    refine move_of_statement hstatement t.before rfl ?_ (fun m hm => Or.inl hm) hafter
    rw [kept, hisHeader, if_neg hheader]

/-- A line that is read as a statement adds it to the innermost of the blocks that stay open around it:
the search for a block that takes it stops at the first one. -/
theorem IsStatement.adds (h : t.IsStatement) :
    settle t.indent t.kept = (t.kept.head?.map Context.node, begun t.indent t.kept) ∧
      t.after.outline = t.before.outline.push ⟨t.statement.1,
        some ⟨t.index, t.index + t.statement.2, t.leading⟩, t.kept.head?.map Context.node, .body⟩ ∧
      t.after.stack = t.statement.1.opened t.indent t.before.outline.size ++ begun t.indent t.kept := by
  refine ⟨settle_of_contains fun c => contains_of_head?_kept, ?_⟩
  cases t.move with
  | blank content outline stack remarks => exact absurd content h.nonempty
  | branch notStatement b role c k outer conditional suffix continues indent kind outline stack remarks =>
    exact absurd h notStatement
  | close content c param outline stack remarks => exact absurd content h.brace
  | stray content none outline stack remarks => exact absurd content h.brace
  | statement isStatement s n reads nonblank outline stack remarks =>
    rw [reads]
    exact ⟨outline, stack⟩

end Turn

end Devalang
