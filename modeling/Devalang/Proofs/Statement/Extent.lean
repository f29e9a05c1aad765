import Devalang.Statement.Reader

/-! How many lines a statement takes. Only declarations, triggers and arrow calls go on over the lines
that follow, and never over more of them than there are. -/
namespace Devalang

theorem continueWhile_le (d : Delimiter) (indent : Nat) (s : Text) (following : List Text) :
    (continueWhile d indent s following).2 ≤ following.length := by
  induction following generalizing s with
  | nil => simp [continueWhile]
  | cons line following ih =>
    rw [continueWhile]
    split
    · exact Nat.succ_le_succ (ih _)
    · exact Nat.zero_le _

theorem continueChain_le (indent : Nat) (s : Text) (following : List Text) :
    (continueChain indent s following).2 ≤ following.length := by
  induction following generalizing s with
  | nil => simp [continueChain]
  | cons line following ih =>
    rw [continueChain]
    split
    · exact Nat.succ_le_succ (ih _)
    · exact Nat.zero_le _

namespace Simple
variable {indent n : Nat} {following : List Text} {s : Text} {r : Simple}

/-- The name of a declaration and what stands in its line after the equals sign. -/
def declaration? (s : Text) : Option (Text × Text) := do
  let t ← Text.afterBlanks? (← Text.after "let".toList s)
  let (name, rest) ← Text.run? (fun c => Text.notBlank c && c != '=') t
  let start := Text.trimStart (← Text.after ['='] (Text.trimStart rest))
  if start.all Text.inLine then return (name, start) else none

def triggering? (s : Text) : Option (Text × Text) := do
  let (name, rest) ← Text.run? (fun c => Text.notBlank c && c != '{' && c != '(' && c != ',')
    (← Text.after ['.'] s)
  let start := Text.trimStart rest
  if start.all Text.inLine then return ('.' :: name, start) else none

theorem readLet_eq_some_iff : readLet indent following s = some (r, n) ↔
    ∃ name start, declaration? s = some (name, start) ∧
      r = .declare name (let v := (continueWhile .brace indent start following).1
        if v.contains '\n' then .raw v else Value.read v) ∧
      n = (continueWhile .brace indent start following).2 := by
  simp [readLet, declaration?, Option.bind_eq_some_iff]
  grind

theorem readTrigger_eq_some_iff : readTrigger indent following s = some (r, n) ↔
    ∃ name start, triggering? s = some (name, start) ∧
      r = .trigger name (Argument.readAll (continueWhile .brace indent start following).1).1
        (Argument.readAll (continueWhile .brace indent start following).1).2 ∧
      n = (continueWhile .brace indent start following).2 := by
  simp [readTrigger, triggering?, Option.bind_eq_some_iff]
  grind

theorem readArrow_eq_some_iff : readArrow indent following s = some (r, n) ↔
    Text.hasArrow s = true ∧ n = (continueChain indent s following).2 ∧
      ∃ target first more call calls,
        Text.links (continueChain indent s following).1 = target :: first :: more ∧
        target ≠ [] ∧ Call.read first = some call ∧ more.mapM Call.read = some calls ∧
        r = .arrow target call calls := by
  simp only [readArrow]
  by_cases ha : Text.hasArrow s = true
  · rw [if_neg (by simp [ha])]
    cases Text.links (continueChain indent s following).1 with
    | nil => simp [ha]
    | cons target ts =>
      cases ts with
      | nil => simp [ha]
      | cons first more =>
        by_cases ht : target = []
        · simp [ha, ht]
        · simp [ha, ht, Option.bind_eq_some_iff]
          grind
  · simp [ha]

theorem readLet_le (h : readLet indent following s = some (r, n)) : n ≤ following.length := by
  obtain ⟨name, start, -, -, rfl⟩ := readLet_eq_some_iff.1 h
  exact continueWhile_le _ _ _ _

theorem readTrigger_le (h : readTrigger indent following s = some (r, n)) :
    n ≤ following.length := by
  obtain ⟨name, start, -, -, rfl⟩ := readTrigger_eq_some_iff.1 h
  exact continueWhile_le _ _ _ _

theorem readArrow_le (h : readArrow indent following s = some (r, n)) : n ≤ following.length := by
  obtain ⟨-, rfl, -⟩ := readArrow_eq_some_iff.1 h
  exact continueChain_le _ _ _

end Simple

/-- A statement is a header, or a simple one of a single line, or of one of the three kinds that may
go on. -/
theorem Statement.read?_cases {indent n : Nat} {following : List Text} {s : Text} {st : Statement}
    (h : Statement.read? indent following s = some (st, n)) :
    (∃ b, st = .block b ∧ n = 0) ∨
      ∃ r, st = .simple r ∧ (n = 0 ∨ Simple.readLet indent following s = some (r, n) ∨
        Simple.readTrigger indent following s = some (r, n) ∨
        Simple.readArrow indent following s = some (r, n)) := by
  obtain ⟨read, hm, hr⟩ := List.exists_of_findSome?_eq_some h
  simp only [readers, List.mem_cons, List.not_mem_nil, or_false] at hm
  rcases hm with rfl | rfl | rfl | rfl | rfl | rfl | rfl | rfl | rfl | rfl | rfl | rfl | rfl | rfl |
    rfl | rfl | rfl | rfl | rfl | rfl | rfl | rfl | rfl | rfl | rfl
  all_goals
    simp only [Option.map_eq_some_iff, Prod.mk.injEq, Prod.exists] at hr
    grind

theorem Statement.read?_le {indent n : Nat} {following : List Text} {s : Text} {st : Statement}
    (h : Statement.read? indent following s = some (st, n)) : n ≤ following.length := by
  rcases Statement.read?_cases h with ⟨b, -, rfl⟩ | ⟨r, -, rfl | hr | hr | hr⟩
  · exact Nat.zero_le _
  · exact Nat.zero_le _
  · exact Simple.readLet_le hr
  · exact Simple.readTrigger_le hr
  · exact Simple.readArrow_le hr

/-- How a line is read as a statement, whatever is open around it: an empty line is blank, a branch
is a header, all else is read by the readers or unknown to them. `n` of the following lines are taken. -/
inductive Statement.ReadsAs (indent : Nat) (following : List Text) (content : Text) :
    Statement → Nat → Prop where
  | blank (empty : content = []) : ReadsAs indent following content (.simple .blank) 0
  | branch (h : Header) (branch : Header.readBranch content = some h) :
    ReadsAs indent following content (.block h) 0
  | known (s : Statement) (n : Nat) (nonempty : content ≠ [])
    (read : Statement.read? indent following content = some (s, n)) :
    ReadsAs indent following content s n
  | unknown (nonempty : content ≠ []) (read : Statement.read? indent following content = none) :
    ReadsAs indent following content (.simple (.unknown content)) 0

theorem Statement.ReadsAs.congr {i j n : Nat} {following other : List Text} {content : Text} {s : Statement}
    (h : ReadsAs i following content s n) (hr : read? j other content = read? i following content) :
    ReadsAs j other content s n := by
  cases h with
  | blank empty => exact .blank empty
  | branch h branch => exact .branch h branch
  | known s n nonempty read => exact .known s n nonempty (hr.trans read)
  | unknown nonempty read => exact .unknown nonempty (hr.trans read)

theorem Statement.ReadsAs.eq_of_read {i n k : Nat} {following : List Text} {content : Text} {s t : Statement}
    (h : ReadsAs i following content s n) (hne : content ≠ []) (hb : Header.readBranch content = none)
    (hr : read? i following content = some (t, k)) : s = t ∧ n = k := by
  cases h with
  | blank empty => exact absurd empty hne
  | branch b branch =>
    rw [hb] at branch
    cases branch
  | known s n nonempty read =>
    rw [hr] at read
    cases read
    exact ⟨rfl, rfl⟩
  | unknown nonempty read =>
    rw [hr] at read
    cases read

theorem Statement.read?_brace (indent : Nat) (following : List Text) :
    Statement.read? indent following ['}'] = none := rfl

theorem Statement.read?_block {indent n : Nat} {following : List Text} {s : Text} {b : Header}
    (h : Statement.read? indent following s = some (.block b, n)) : n = 0 := by
  rcases Statement.read?_cases h with ⟨_, -, rfl⟩ | ⟨r, hr, -⟩
  · rfl
  · cases hr

end Devalang
