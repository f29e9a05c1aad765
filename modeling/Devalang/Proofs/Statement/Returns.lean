import Devalang.Proofs.Statement.Arrow
import Devalang.Proofs.Token.Returns

/-! Reading statements from lines that end with a carriage return. Which lines a statement takes does not
depend on the carriage returns, and a statement of a single line is the same. -/
namespace Devalang
open Text
variable {d : Delimiter} {s s' : Text}

theorem continuesChain_return (line : Text) : continuesChain (line ++ ['\r']) = continuesChain line :=
  (Returned.append_return line).trimStart.startsWith_eq (by simp)

theorem continueWhile_return (h : Returned s s') (d : Delimiter) (i : Nat) (following : List Text) :
    Returned (continueWhile d i s following).1
        (continueWhile d i s' (following.map (· ++ ['\r']))).1 ∧
      (continueWhile d i s' (following.map (· ++ ['\r']))).2 = (continueWhile d i s following).2 := by
  induction following generalizing s s' with
  | nil => exact ⟨h, rfl⟩
  | cons line following ih =>
    rw [List.map_cons, continueWhile, continueWhile, h.openDelimiters]
    split
    · obtain ⟨h1, h2⟩ := ih (h.newline (.dedent i line))
      exact ⟨h1, congrArg (· + 1) h2⟩
    · exact ⟨h, rfl⟩

theorem continueChain_return (h : Returned s s') (i : Nat) (following : List Text) :
    Returned (continueChain i s following).1 (continueChain i s' (following.map (· ++ ['\r']))).1 ∧
      (continueChain i s' (following.map (· ++ ['\r']))).2 = (continueChain i s following).2 := by
  induction following generalizing s s' with
  | nil => exact ⟨h, rfl⟩
  | cons line following ih =>
    rw [List.map_cons, continueChain_cons, continueChain_cons, h.openDelimiters, continuesChain_return]
    split
    · obtain ⟨h1, h2⟩ := ih (h.newline (.dedent i line))
      exact ⟨h1, congrArg (· + 1) h2⟩
    · exact ⟨h, rfl⟩

/-! Calls. -/

theorem Call.isSome_read_iff : (Call.read s).isSome = true ↔ s.takeWhile isMethodChar ≠ [] ∧
    (trimStart (s.dropWhile isMethodChar)).head? = some '(' ∧ s.getLast? = some ')' := by
  have hrun : run? (fun c => isWord c || c == '.') s = run? isMethodChar s := rfl
  rw [Call.read, hrun, run?]
  by_cases hm : s.takeWhile isMethodChar = []
  · simp [hm]
  · have hlast : s.getLast? = (trimStart (s.dropWhile isMethodChar)).getLast?.or
        (s.takeWhile isMethodChar ++ leading (s.dropWhile isMethodChar)).getLast? := by
      rw [← List.getLast?_append, List.append_assoc, leading_append_trimStart,
        List.takeWhile_append_dropWhile]
    rw [hlast]
    cases htrim : trimStart (s.dropWhile isMethodChar) with
    | nil => simp [hm, htrim, between?]
    | cons c t =>
      by_cases hc : c = '('
      · cases ht : t.getLast? with
        | none => simp [hm, htrim, between?, hc, ht, List.getLast?_cons]
        | some e => by_cases he : e = ')' <;> simp [hm, htrim, between?, hc, ht, he, List.getLast?_cons]
      · simp [hm, htrim, between?, hc]

theorem Call.isSome_read_return (h : Returned s s') (ht : Trimmed s') :
    (Call.read s').isSome = (Call.read s).isSome := by
  have hn : isMethodChar '\n' = false := by decide +kernel
  have hr : isMethodChar '\r' = false := by decide +kernel
  rw [Bool.eq_iff_iff, isSome_read_iff, isSome_read_iff, h.takeWhile_eq hn hr, h.getLast?_of_trimmed ht,
    (h.dropWhile (hn.trans hr.symm)).trimStart.head?_eq (by decide) (by decide)]

theorem isSome_mapM {α β : Type} (f : α → Option β) (as : List α) :
    (as.mapM f).isSome = as.all fun a => (f a).isSome := by
  induction as with
  | nil => rfl
  | cons a as ih =>
    rw [List.mapM_cons, List.all_cons, ← ih]
    cases f a <;> cases as.mapM f <;> rfl

/-! Statements. -/

/-- What was read from the lines with carriage returns takes as many lines, and is the same if it takes one
line. -/
def Simple.Rereads (x x' : Simple × Nat) : Prop := x'.2 = x.2 ∧ (x'.1 = x.1 ∨ 0 < x.2)

namespace Simple
variable (i : Nat) (following : List Text) (s : Text)

theorem rereads_continueWhile (make : Text → Simple) : Rereads
    (make (continueWhile .brace i s following).1, (continueWhile .brace i s following).2)
    (make (continueWhile .brace i s (following.map (· ++ ['\r']))).1,
      (continueWhile .brace i s (following.map (· ++ ['\r']))).2) := by
  have hn := (continueWhile_return (.refl s) .brace i following).2
  refine ⟨hn, ?_⟩
  by_cases hz : 0 = (continueWhile .brace i s following).2
  · left
    show make _ = make _
    rw [continueWhile_zero hz, continueWhile_zero (hz.trans hn.symm)]
  · exact Or.inr (Nat.pos_of_ne_zero (Ne.symm hz))

theorem readLet_return : Option.Rel Rereads (readLet i following s)
    (readLet i (following.map (· ++ ['\r'])) s) := by
  cases hd : declaration? s with
  | none =>
    rw [readLet_eq_none_iff.2 hd, readLet_eq_none_iff.2 hd]
    exact .none
  | some d =>
    have hread (following : List Text) := (@readLet_eq_some_iff i _ following s _).2 ⟨d.1, d.2, hd, rfl, rfl⟩
    rw [hread, hread]
    exact .some (rereads_continueWhile i following d.2 fun v =>
      .declare d.1 (if v.contains '\n' then .raw v else Value.read v))

theorem readTrigger_return : Option.Rel Rereads (readTrigger i following s)
    (readTrigger i (following.map (· ++ ['\r'])) s) := by
  cases hd : triggering? s with
  | none =>
    rw [readTrigger_eq_none_iff.2 hd, readTrigger_eq_none_iff.2 hd]
    exact .none
  | some d =>
    have hread (following : List Text) :=
      (@readTrigger_eq_some_iff i _ following s _).2 ⟨d.1, d.2, hd, rfl, rfl⟩
    rw [hread, hread]
    exact .some (rereads_continueWhile i following d.2 fun v =>
      .trigger d.1 (Argument.readAll v).1 (Argument.readAll v).2)

def ofLinks? : List Text → Option Simple
  | target :: first :: more => do
    if target.isEmpty then none
    return .arrow target (← Call.read first) (← more.mapM Call.read)
  | _ => none

theorem readArrow_eq : readArrow i following s = if hasArrow s = true then
    (ofLinks? (links (continueChain i s following).1)).map (·, (continueChain i s following).2)
      else none := by
  rw [readArrow]
  cases hasArrow s with
  | false => rfl
  | true =>
    simp only [Bool.not_true, Bool.false_eq_true, if_false, if_true]
    cases links (continueChain i s following).1 with
    | nil => rfl
    | cons target ts =>
      cases ts with
      | nil => rfl
      | cons first more =>
        simp only [ofLinks?]
        cases target.isEmpty <;> cases Call.read first <;> cases more.mapM Call.read <;> rfl

theorem isSome_ofLinks?_return {ts ts' : List Text} (h : List.Forall₂ Returned ts ts')
    (ht : ∀ t ∈ ts', Trimmed t) : (ofLinks? ts').isSome = (ofLinks? ts).isSome := by
  have hsome (target first : Text) (more : List Text) : (ofLinks? (target :: first :: more)).isSome =
      (!target.isEmpty && ((Call.read first).isSome && more.all fun t => (Call.read t).isSome)) := by
    rw [← isSome_mapM]
    simp only [ofLinks?]
    cases target.isEmpty <;> cases Call.read first <;> cases more.mapM Call.read <;> rfl
  cases h with
  | nil => rfl
  | @cons target target' _ _ htarget hrest =>
    cases hrest with
    | nil => rfl
    | @cons first first' more more' hfirst hmore =>
      have hall : (more'.all fun t => (Call.read t).isSome) = more.all fun t => (Call.read t).isSome := by
        have htrim : ∀ t ∈ more', Trimmed t := fun t hm => ht t (by simp [hm])
        induction hmore with
        | nil => rfl
        | cons h _ ih =>
          rw [List.all_cons, List.all_cons, Call.isSome_read_return h (htrim _ (by simp)),
            ih (fun t hm => ht t ?_) fun t hm => htrim t (by simp [hm])]
          simp only [List.mem_cons] at hm ⊢
          tauto
      have hempty : target'.isEmpty = target.isEmpty := by
        have hlast : target'.getLast? ≠ some '\r' := by
          intro hl
          have hb := (ht target' (by simp)).last _ hl
          rw [isBlank_return] at hb
          cases hb
        rw [Bool.eq_iff_iff, List.isEmpty_iff, List.isEmpty_iff, htarget.eq_nil_iff hlast]
      rw [hsome, hsome, hempty, hall, Call.isSome_read_return hfirst (ht first' (by simp))]

theorem readArrow_return : Option.Rel Rereads (readArrow i following s)
    (readArrow i (following.map (· ++ ['\r'])) s) := by
  obtain ⟨ht, hn⟩ := continueChain_return (.refl s) i following
  have hsome := isSome_ofLinks?_return ht.links fun _ => Returned.trimmed_of_mem_links
  rw [readArrow_eq, readArrow_eq, hn]
  split
  · by_cases hz : 0 = (continueChain i s following).2
    · rw [← hz, continueChain_zero hz, continueChain_zero (hz.trans hn.symm)]
      cases ofLinks? (links s) with
      | none => exact .none
      | some r => exact .some ⟨rfl, Or.inl rfl⟩
    · have hpos : 0 < (continueChain i s following).2 := Nat.pos_of_ne_zero (Ne.symm hz)
      generalize ofLinks? (links (continueChain i s following).1) = r at hsome ⊢
      generalize ofLinks? (links (continueChain i s (following.map (· ++ ['\r']))).1) = r' at hsome ⊢
      cases r with
      | none =>
        cases r' with
        | none => exact .none
        | some r' => cases hsome
      | some r =>
        cases r' with
        | none => cases hsome
        | some r' => exact .some ⟨rfl, Or.inr hpos⟩
  · exact .none

end Simple

theorem rel_or {α : Type} {R : α → α → Prop} {a a' b b' : Option α} (ha : Option.Rel R a a')
    (hb : Option.Rel R b b') : Option.Rel R (a.or b) (a'.or b') := by
  cases ha with
  | none => exact hb
  | some h => exact .some h

theorem Statement.going?_return (i : Nat) (following : List Text) (s : Text) :
    Option.Rel Simple.Rereads (going? i following s) (going? i (following.map (· ++ ['\r'])) s) :=
  rel_or (Simple.readLet_return i following s)
    (rel_or (Simple.readTrigger_return i following s) (Simple.readArrow_return i following s))

/-- A line is read as a statement in front of lines with carriage returns exactly if it is so in front of
the lines without them. It is the same statement, unless it goes on over some of them. -/
theorem Statement.read?_return (i : Nat) (following : List Text) (s : Text) :
    Option.Rel (fun x x' => x'.2 = x.2 ∧ (x'.1 = x.1 ∨ 0 < x.2 ∧ ∃ r r', x.1 = .simple r ∧ x'.1 = .simple r'))
      (read? i following s) (read? i (following.map (· ++ ['\r'])) s) := by
  rw [read?_eq, read?_eq]
  refine rel_or ?_ ?_
  · cases single? s with
    | none => exact .none
    | some st => exact .some ⟨rfl, Or.inl rfl⟩
  · have hrel := going?_return i following s
    generalize going? i following s = x at hrel
    generalize going? i (following.map (· ++ ['\r'])) s = x' at hrel
    cases hrel with
    | none => exact .none
    | some h => exact .some ⟨h.1, h.2.imp (congrArg Statement.simple) fun hn => ⟨hn, _, _, rfl, rfl⟩⟩

end Devalang
