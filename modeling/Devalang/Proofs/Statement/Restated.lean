import Devalang.Proofs.Statement.Start
import Devalang.Proofs.Value.RoundTrip
import Mathlib.Data.List.Basic

/-! The text of a statement in the place of the text that the statement was read from. -/
namespace Devalang
open Text Nesting

/-- A chain of calls, which is never written on one line. -/
def Simple.isChain : Simple → Bool
  | arrow _ _ (_ :: _) => true
  | _ => false

/-- Statements with the same text. A single call may have the text of a statement of another kind. -/
structure Simple.Alike (s s' : Simple) : Prop where
  write : s'.write = s.write
  chain : s'.isChain = s.isChain
  same : s' = s ∨ ∃ t c, s = .arrow t c []

theorem Simple.Alike.refl (s : Simple) : s.Alike s := ⟨rfl, rfl, Or.inl rfl⟩

/-- The text of a statement may take the place of `content`, in front of lines that go on with chains
where `following` do: around it all is read as before, and it is read as a statement alike. -/
structure Simple.Restated (following : List Text) (content : Text) (s : Simple) : Prop where
  trimmed : Trimmed s.write
  nonempty : s.write ≠ []
  header : isHeaderLine s.write = isHeaderLine content
  alternative : startsWith "else".toList s.write = startsWith "else".toList content
  branch : Header.readBranch s.write = none ∧ Header.readBranch content = none
  chain : startsWith ['-', '>'] s.write = startsWith ['-', '>'] content
  reads : ∃ s', s.Alike s' ∧ ∀ (j : Nat) (other : List Text),
    other.map continuesChain = following.map continuesChain →
      Statement.read? j other s.write = some (.simple s', 0)

theorem Header.readBranch_eq_none {s : Text} (h : startsWith "else".toList s = false) :
    readBranch s = none := by
  have ha : after "else".toList s = none := by simpa [startsWith] using h
  rw [readBranch, readElseIf, readElse, ha]
  rfl

namespace Simple
variable {indent : Nat} {s t : Text} {r : Simple} {following : List Text} {closes : Bool}

theorem restated_of_starts (hs : Statement.StartsAs s closes)
    (hw : Statement.StartsAs r.write closes) (hne : r.write ≠ [])
    (hlast : ∀ c, r.write.getLast? = some c → isBlank c = false)
    (hr : ∀ (j : Nat) (other : List Text), other.map continuesChain = following.map continuesChain →
      Statement.read? j other r.write = some (.simple r, 0)) : r.Restated following s where
  trimmed := ⟨hw.word, hlast⟩
  nonempty := hne
  header := by rw [hs.header, hw.header]
  alternative := by rw [hs.branch, hw.branch]
  branch := ⟨Header.readBranch_eq_none hw.branch, Header.readBranch_eq_none hs.branch⟩
  chain := by rw [hs.chain, hw.chain]
  reads := ⟨r, Alike.refl r, hr⟩

theorem restated_of_single (ht : Trimmed s) (hl : '\n' ∉ s)
    (h : Statement.single? s = some (.simple r)) (hw : '\n' ∉ r.write) : r.Restated following s := by
  have hfixed := Statement.fixed_of_single ht hl h hw
  refine restated_of_starts (Statement.startsAs_single h) (Statement.startsAs_single hfixed.reads) ?_
    hfixed.last fun j other _ => Statement.read?_eq_some_iff.2 (Or.inl ⟨hfixed.reads, rfl⟩)
  intro hn
  have hread := hfixed.reads
  rw [hn] at hread
  cases hread

/-! Declarations. -/

theorem stops_name {b : Text} (hb : Blank b) (c : Text) :
    Stops (fun x => notBlank x && x != '=') (b ++ '=' :: c) := by
  cases b with
  | nil => exact stops_cons (by decide) c
  | cons d b => exact stops_cons (by simp [notBlank, hb d (by simp)]) _

theorem declaration?_eq_some_iff {name start : Text} : declaration? s = some (name, start) ↔
    ∃ a b c, a ≠ [] ∧ Blank a ∧ Blank b ∧ name ≠ [] ∧
      (∀ x ∈ name, (notBlank x && x != '=') = true) ∧ start = trimStart c ∧ '\n' ∉ start ∧
      s = "let".toList ++ a ++ name ++ b ++ '=' :: c := by
  constructor
  · intro h
    simp only [declaration?, Option.bind_eq_bind, Option.bind_eq_some_iff, after_eq_some_iff,
      afterBlanks?_eq_some_iff, Prod.exists, run?_eq_some_iff, Option.ite_none_right_eq_some,
      inLine_iff, Option.pure_def, Option.some.injEq, Prod.mk.injEq] at h
    obtain ⟨_, rfl, _, ⟨a, ha, hblank, -, rfl⟩, n, rest, ⟨hne, hname, -, rfl⟩, c, hc, hline, rfl, rfl⟩ := h
    refine ⟨a, leading rest, c, ha, hblank, blank_leading rest, hne, hname, rfl, hline, ?_⟩
    have hrest : leading rest ++ '=' :: c = rest := by
      have h := leading_append_trimStart rest
      rwa [hc] at h
    rw [List.append_assoc _ (leading rest), hrest]
    simp
  · rintro ⟨a, b, c, ha, hblank, hb, hne, hname, rfl, hline, rfl⟩
    have hafter : after "let".toList ("let".toList ++ a ++ name ++ b ++ '=' :: c) =
        some (a ++ (name ++ (b ++ '=' :: c))) := after_eq_some_iff.2 (by simp)
    have hword : ∀ x ∈ name, isBlank x = false := fun x hx =>
      notBlank_iff.1 (Bool.and_eq_true_iff.1 (hname x hx)).1
    have hstop : Stops isBlank (name ++ (b ++ '=' :: c)) := (stops_word hword).append hne _
    have hblanks : afterBlanks? (a ++ (name ++ (b ++ '=' :: c))) = some (name ++ (b ++ '=' :: c)) :=
      afterBlanks?_eq_some_iff.2 ⟨a, ha, hblank, hstop, rfl⟩
    have hrun : run? (fun c => notBlank c && c != '=') (name ++ (b ++ '=' :: c)) =
        some (name, b ++ '=' :: c) := run?_eq_some_iff.2 ⟨hne, hname, stops_name hb c, rfl⟩
    have htrim : trimStart (b ++ '=' :: c) = '=' :: c := by
      rw [trimStart_blank_append hb, trimStart_of_head (stops_cons (by decide) c)]
    simp only [declaration?, hafter, hblanks, hrun, htrim, after_head, Option.bind_eq_bind,
      Option.bind_some, inLine_iff.2 hline, if_true, Option.pure_def]

theorem startsAs_of_readLet {n : Nat} (h : readLet indent following s = some (r, n)) :
    Statement.StartsAs s false := by
  obtain ⟨t, rfl⟩ := Statement.keyword_of_bind h
  exact ⟨stops_cons (by decide) _, rfl, rfl, rfl⟩

theorem read?_of_readLet {n : Nat} (h : readLet indent following s = some (r, n)) :
    Statement.read? indent following s = some (.simple r, n) := by
  have hs : Statement.single? s = none := by
    obtain ⟨t, rfl⟩ := Statement.keyword_of_bind h
    exact Statement.single?_let t
  exact Statement.read?_eq_some_iff.2 (Or.inr ⟨hs, _, Statement.going?_eq_some_iff.2 (Or.inl h), rfl⟩)

theorem stable_of_declaration? {name start : Text} (ht : Trimmed s)
    (h : declaration? s = some (name, start)) : (Value.read start).Stable start := by
  obtain ⟨a, b, c, -, -, -, -, -, rfl, -, hs⟩ := declaration?_eq_some_iff.1 h
  have htc : Trimmed (trimStart c) := by
    refine Trimmed.trimStart_right (a := "let".toList ++ a ++ name ++ b ++ ['=']) ?_
    rw [hs] at ht
    simpa using ht
  have hstable := Value.stable (trimStart c)
  rwa [htc.trim_eq] at hstable

theorem declaration?_write {name start : Text} {v : Value} (h : declaration? s = some (name, start))
    (hv : Trimmed v.write) (hl : '\n' ∉ v.write) :
    declaration? (declare name v).write = some (name, v.write) := by
  obtain ⟨-, -, -, -, -, -, hne, hname, -⟩ := declaration?_eq_some_iff.1 h
  have hstart : v.write = trimStart (' ' :: v.write) := (trimStart_space hv.head).symm
  have hwrite : (declare name v).write = "let ".toList ++ name ++ " = ".toList ++ v.write := rfl
  refine declaration?_eq_some_iff.2 ⟨[' '], [' '], ' ' :: v.write, by simp, blank_space, blank_space,
    hne, hname, hstart, hl, ?_⟩
  rw [hwrite]
  simp

theorem readLet_write {name start : Text} {v : Value} {other : List Text} {j : Nat}
    (hd : declaration? s = some (name, start)) (hv : v.Stable start) (hl : '\n' ∉ v.write)
    (hlen : other.length = following.length) (hn : 0 = (continueWhile .brace indent start following).2) :
    readLet j other (declare name v).write = some (declare name v, 0) := by
  have hopen : v.write.openDelimiters = start.openDelimiters := by
    rw [openDelimiters_eq, openDelimiters_eq, hv.run]
  have hc : continueWhile .brace j v.write other = (v.write, 0) :=
    continueWhile_alike (by rw [hopen]; exact id) hlen hn
  have hnl : v.write.contains '\n' = false := by simpa using hl
  refine readLet_eq_some_iff.2 ⟨name, v.write, declaration?_write hd hv.trimmed hl, ?_, ?_⟩
  · rw [hc]
    simp only [hnl, Bool.false_eq_true, if_false, hv.reads]
  · rw [hc]

theorem restated_of_let (ht : Trimmed s) (h : readLet indent following s = some (r, 0))
    (hw : '\n' ∉ r.write) : r.Restated following s := by
  obtain ⟨name, start, hd, hr, hn⟩ := readLet_eq_some_iff.1 h
  have hstable := stable_of_declaration? ht hd
  have hline : start.contains '\n' = false := by
    obtain ⟨_, _, _, -, -, -, -, -, -, hline, -⟩ := declaration?_eq_some_iff.1 hd
    simpa using hline
  obtain rfl : r = declare name (Value.read start) := by
    rw [hr, continueWhile_zero hn]
    simp only [hline, Bool.false_eq_true, if_false]
  have hwrite : (declare name (Value.read start)).write =
      "let ".toList ++ name ++ " = ".toList ++ (Value.read start).write := rfl
  have hl : '\n' ∉ (Value.read start).write := by
    intro hm
    rw [hwrite] at hw
    exact hw (List.mem_append_right _ hm)
  have hread (j : Nat) (other : List Text)
      (hother : other.map continuesChain = following.map continuesChain) :
      readLet j other (declare name (Value.read start)).write =
        some (declare name (Value.read start), 0) :=
    readLet_write hd hstable hl (by simpa using congrArg List.length hother) hn
  refine restated_of_starts (startsAs_of_readLet h) (startsAs_of_readLet (hread 0 following rfl)) ?_ ?_
    fun j other hother => read?_of_readLet (hread j other hother)
  · simp [hwrite]
  · intro d hd
    rw [hwrite, List.getLast?_append_of_ne_nil _ hstable.nonempty] at hd
    exact hstable.trimmed.last d hd

end Simple

end Devalang
