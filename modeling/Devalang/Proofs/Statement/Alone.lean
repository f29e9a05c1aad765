import Devalang.Proofs.Statement.Again
import Devalang.Proofs.Document.Comparison

/-! A statement that no lines follow: its text is read as the same statement again, unless it calls a
target that is a keyword which takes the rest of its line. -/
namespace Devalang
open Text Nesting

/-- The statement that a text is when no lines follow it. -/
def Statement.alone (s : Text) : Statement :=
  ((read? 0 [] s).map (·.1)).getD (.simple (.unknown s))

/-- The keywords that take the rest of their line, whatever it is. -/
def restKeywords : List Text := ["emit", "print", "sleep"].map String.toList

def Simple.callsKeyword : Simple → Bool
  | arrow t _ [] => restKeywords.contains t
  | _ => false

namespace Statement
variable {s : Text} {st : Statement} {r : Simple} {n : Nat}

theorem alone_of_read (h : read? 0 [] s = some (st, n)) : alone s = st := by
  rw [alone, h]
  rfl

theorem alone_of_none (h : read? 0 [] s = none) : alone s = .simple (.unknown s) := by
  rw [alone, h]
  rfl

theorem read?_alone (h : read? 0 [] s = some (st, n)) : n = 0 := Nat.le_zero.1 (read?_le h)

theorem single?_keyword {k e : Text} (hk : k ∈ restKeywords) (hl : '\n' ∉ e) :
    single? (k ++ ' ' :: '-' :: '>' :: ' ' :: e) ≠ none := by
  have hline : '\n' ∉ '-' :: '>' :: ' ' :: e := by simpa using hl
  have hrest := restOfLine?_space (stops_cons (by decide) ('>' :: ' ' :: e)) (by simp) hline
  have hafter := after_self k (' ' :: '-' :: '>' :: ' ' :: e)
  intro h
  rw [single?, List.findSome?_eq_none_iff] at h
  have hnone (read : Text → Option Simple)
      (hm : (fun s => (read s).map Statement.simple) ∈ singleReaders) :
      read (k ++ ' ' :: '-' :: '>' :: ' ' :: e) = none := Option.map_eq_none_iff.1 (h _ hm)
  simp only [restKeywords, List.map_cons, List.map_nil, List.mem_cons, List.not_mem_nil, or_false] at hk
  rcases hk with rfl | rfl | rfl
  · have hr := hnone Simple.readEmit (by simp [singleReaders])
    rw [Calls.readEmit_arrow hl] at hr
    cases hr
  · have hr := hnone Simple.readPrint (by simp [singleReaders])
    rw [Calls.readPrint_eq, hafter, Option.bind_some, hrest] at hr
    cases hr
  · have hr := hnone Simple.readSleep (by simp [singleReaders])
    rw [Calls.readSleep_eq, hafter, Option.bind_some, hrest] at hr
    cases hr

end Statement

namespace Calls
variable {s t x y m z u v w : Text} {st : Statement}

/-- The text of a call is of a kind that takes one line only if the target is a keyword that takes the
rest of its line. -/
theorem target_of_single (hs : Calls s t x y m z v) (hw : Calls w t [' '] [' '] m [] u)
    (hl : '\n' ∉ s) (hlw : '\n' ∉ w) (h : Statement.single? s = none)
    (hr : Statement.single? w = some st) : t ∈ restKeywords := by
  have hrest {p e : Text} (hp : ∀ c ∈ p, c ≠ '-') (hpl : ∀ c, p.getLast? = some c → isBlank c = false)
      (hn : (after p s).bind restOfLine? = none) (he : (after p w).bind restOfLine? = some e) : t = p := by
    obtain ⟨hwe, rfl⟩ := hs.restOfLine?_cases hw hl hlw hp hpl hn he
    exact hw.target_eq hwe
  rcases hs.single?_cases hw hl h with hn | ⟨r, -, ⟨hn, he⟩ | ⟨hn, he⟩ | ⟨hn, he⟩⟩
  · rw [hn] at hr
    cases hr
  · obtain rfl := hw.target_eq (hs.emit_cases hw hl hn he)
    simp [restKeywords]
  · rw [readPrint_eq] at hn he
    obtain ⟨e, he, -⟩ := Option.map_eq_some_iff.1 he
    obtain rfl := hrest (p := "print".toList) (forall_of_all rfl)
      (trimmed_of_forall (forall_of_all rfl)).last (Option.map_eq_none_iff.1 hn) he
    simp [restKeywords]
  · rw [readSleep_eq] at hn he
    obtain ⟨e, he, -⟩ := Option.map_eq_some_iff.1 he
    obtain rfl := hrest (p := "sleep".toList) (forall_of_all rfl)
      (trimmed_of_forall (forall_of_all rfl)).last (Option.map_eq_none_iff.1 hn) he
    simp [restKeywords]

end Calls

namespace Simple
variable {s : Text} {r : Simple}

theorem read?_write_arrow (ht : Trimmed s) (hl : '\n' ∉ s) (hs : Statement.single? s = none)
    (hd : declaration? s = none) (htr : triggering? s = none) (h : readArrow 0 [] s = some (r, 0))
    (hr : r.isChain = false) (hw : '\n' ∉ r.write) (hk : r.callsKeyword = false) :
    Statement.read? 0 [] r.write = some (.simple r, 0) := by
  obtain ⟨t, x, y, m, z, u, hc, rfl⟩ := Calls.of_readArrow ht h hr
  have hcw := hc.write
  cases hst : Statement.single? (Simple.arrow t ⟨m, items u⟩ []).write with
  | none =>
    exact Statement.read?_eq_some_iff.2 (Or.inr ⟨hst, _, Statement.going?_eq_some_iff.2 (Or.inr (Or.inr
      ⟨hc.declaration?_eq_none hcw hl hd, hc.triggering?_eq_none hcw hl htr, hc.readArrow_write h rfl⟩)),
      rfl⟩)
  | some st =>
    have hm := hc.target_of_single hcw hl hw hs hst
    rw [callsKeyword, List.contains_iff_mem.2 hm] at hk
    cases hk

theorem isChain_of_write (hw : '\n' ∉ r.write) : r.isChain = false := by
  rw [Bool.eq_false_iff]
  intro hc
  match r, hc with
  | arrow t c (d :: ds), _ =>
    have hwrite : (arrow t c (d :: ds)).write = Text.join ['\n'] ((t ++ " -> ".toList ++ c.write) ::
      ("    -> ".toList ++ d.write) :: ds.map fun c => "    -> ".toList ++ c.write) := rfl
    rw [hwrite, Text.join] at hw
    exact hw (by simp)

theorem read?_write {n : Nat} (ht : Trimmed s) (hl : '\n' ∉ s)
    (h : Statement.read? 0 [] s = some (.simple r, n)) (hw : '\n' ∉ r.write)
    (hk : r.callsKeyword = false) : Statement.read? 0 [] r.write = some (.simple r, 0) := by
  obtain rfl := Statement.read?_alone h
  have hchain := isChain_of_write hw
  obtain ⟨s', halike, hreads⟩ := (restated_of_read ht hl h hchain hw).reads
  rcases halike.same with rfl | ⟨t, c, rfl⟩
  · exact hreads 0 [] rfl
  · rcases Statement.read?_eq_some_iff.1 h with ⟨hs, -⟩ | ⟨hs, q, hg, he⟩
    · have ho := Statement.isOrdinary_of_single hs
      cases ho
    · cases he
      rcases Statement.going?_eq_some_iff.1 hg with hr | ⟨-, hr⟩ | ⟨hd, htr, hr⟩
      · obtain ⟨_, _, -, he, -⟩ := readLet_eq_some_iff.1 hr
        cases he
      · obtain ⟨_, _, -, he, -⟩ := readTrigger_eq_some_iff.1 hr
        cases he
      · exact read?_write_arrow ht hl hs hd htr hr hchain hw hk

theorem read?_write_keyword (hk : r.callsKeyword = true) (hw : '\n' ∉ r.write) :
    Statement.read? 0 [] r.write ≠ some (.simple r, 0) := by
  match r, hk with
  | arrow t c [], hk =>
    have hwrite : (arrow t c []).write = t ++ ' ' :: '-' :: '>' :: ' ' :: c.write := by
      have h : (arrow t c []).write = t ++ " -> ".toList ++ c.write := rfl
      rw [h, List.append_assoc]
      rfl
    rw [hwrite] at hw ⊢
    have hl : '\n' ∉ c.write := fun hm =>
      hw (List.mem_append_right _ (List.mem_append_right [' ', '-', '>', ' '] hm))
    intro h
    rcases Statement.read?_eq_some_iff.1 h with ⟨hs, -⟩ | ⟨hs, -⟩
    · have ho := Statement.isOrdinary_of_single hs
      cases ho
    · exact Statement.single?_keyword (List.contains_iff_mem.1 hk) hl hs

end Simple

/-- The text of a simple statement that no lines follow is read as a statement with the same text. It is
the same statement unless it calls a target that is a keyword which takes the rest of its line. -/
theorem Statement.compare_alone_write {s : Text} {r : Simple} (ht : trim s = s) (hl : '\n' ∉ s)
    (h : alone s = .simple r) (hw : '\n' ∉ r.write) :
    (alone r.write).write = r.write ∧
      ((alone r.write).compare (.simple r) = .equal ↔ r.callsKeyword = false) := by
  have htrim : Trimmed s := ht ▸ trimmed_trim s
  cases hread : read? 0 [] s with
  | none =>
    rw [alone_of_none hread] at h
    cases h
    have hwrite : (Simple.unknown s).write = s := rfl
    rw [hwrite, alone_of_none hread]
    exact ⟨rfl, fun _ => rfl, fun _ => compare_self _⟩
  | some x =>
    obtain ⟨st, n⟩ := x
    rw [alone_of_read hread] at h
    subst h
    obtain rfl := read?_alone hread
    obtain ⟨s', halike, hreads⟩ :=
      (Simple.restated_of_read htrim hl hread (Simple.isChain_of_write hw) hw).reads
    rw [alone_of_read (hreads 0 [] rfl)]
    refine ⟨halike.write, fun heq => ?_, fun hk => ?_⟩
    · rw [Bool.eq_false_iff]
      intro hk
      refine Simple.read?_write_keyword hk hw ?_
      rcases Simple.eq_of_compare heq with rfl | ⟨n, d, d', as, -, rfl⟩
      · exact hreads 0 [] rfl
      · cases hk
    · have hagain := Simple.read?_write htrim hl hread hw hk
      rw [hreads 0 [] rfl, Option.some.injEq, Prod.mk.injEq, Statement.simple.injEq] at hagain
      rw [hagain.1]
      exact compare_self _

/-- A duration that was written last and an object are written and read again. -/
theorem Statement.compare_alone_write_trigger :
    let s := ".kick {a :1} , 1/4".toList
    let r : Simple := .trigger ".kick".toList (some (.beat "1/4".toList))
      [.property (.pair ['a'] (.number ['1']))]
    trim s = s ∧ '\n' ∉ s ∧ alone s = .simple r ∧ '\n' ∉ r.write ∧
      r.write = ".kick 1/4 {a: 1}".toList ∧ r.callsKeyword = false ∧
      (alone r.write).compare (.simple r) = .equal := by
  intro s r
  have ht : trim s = s := by decide +kernel
  have hl : '\n' ∉ s := by decide +kernel
  have h : alone s = .simple r := by decide +kernel
  have hw : r.write = ".kick 1/4 {a: 1}".toList := by decide +kernel
  have hlw : '\n' ∉ r.write := by decide +kernel
  exact ⟨ht, hl, h, hlw, hw, rfl, (compare_alone_write ht hl h hlw).2.2 rfl⟩

/-- A target that stands directly in front of its arrow may be a keyword; the spaces around the arrow
that is written make it one. -/
theorem Statement.alone_call_of_print :
    let s := "print->a(1)".toList
    let r : Simple := .arrow "print".toList ⟨['a'], [['1']]⟩ []
    s ≠ [] ∧ trim s = s ∧ '\n' ∉ s ∧ alone s = .simple r ∧ r.write = "print -> a(1)".toList ∧
      alone r.write = .simple (.print "-> a(1)".toList) ∧
      (alone r.write).compare (.simple r) = .differs := by
  decide +kernel

end Devalang
