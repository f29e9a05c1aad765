import Devalang.Proofs.Statement.Quoted

/-! What statements end with: a header with a colon or an opening brace. -/
namespace Devalang
open Text

namespace Text
variable {a r s t : Text} {c : Char}

theorem last_append (h : s.getLast? = some c) (a : Text) : (a ++ s).getLast? = some c := by
  rw [List.getLast?_append, h]
  rfl

theorem last_of_trimStart (h : trimStart r = [c]) (a : Text) : (a ++ r).getLast? = some c := by
  rw [← leading_append_trimStart r, h, ← List.append_assoc]
  exact last_append rfl _

theorem last_of_untilColon? (h : untilColon? s = some t) : s.getLast? = some ':' := by
  obtain ⟨⟨b, u⟩, hb, hu⟩ := List.exists_of_findSome?_eq_some h
  obtain ⟨⟨part, rest⟩, hpart, hr⟩ := List.exists_of_findSome?_eq_some hu
  obtain ⟨hr, -⟩ := Option.ite_none_right_eq_some.1 hr
  obtain ⟨-, -, rfl⟩ := of_mem_someCuts hb
  obtain ⟨-, -, rfl⟩ := of_mem_someCuts (List.mem_reverse.1 hpart)
  exact last_append (last_of_trimStart hr part) b

end Text

namespace Header
variable {s t : Text} {h : Header}

theorem last_of_readColon {keyword : String} (hr : readColon keyword s = some t) :
    s.getLast? = some ':' := by
  obtain ⟨u, hu, hc⟩ := Option.bind_eq_some_iff.1 hr
  obtain rfl := after_eq_some_iff.1 hu
  exact last_append (last_of_untilColon? hc) _

theorem append_of_keyword {keyword u : Text} (h : (after keyword s).bind afterBlanks? = some u) :
    ∃ a, s = a ++ u := by
  obtain ⟨v, hv, hu⟩ := Option.bind_eq_some_iff.1 h
  obtain rfl := after_eq_some_iff.1 hv
  obtain ⟨b, -, -, -, rfl⟩ := afterBlanks?_eq_some_iff.1 hu
  exact ⟨keyword ++ b, by simp⟩

theorem last_of_readFn (hr : readFn s = some h) : s.getLast? = some ':' := by
  simp only [readFn, Option.bind_eq_bind, Option.bind_eq_some_iff, Prod.exists, run?_eq_some_iff,
    after_eq_some_iff, afterBlanks?_eq_some_iff] at hr
  obtain ⟨_, rfl, _, ⟨b, -, -, -, rfl⟩, name, rest, ⟨-, -, -, rfl⟩, u, hu, hr⟩ := hr
  obtain ⟨⟨parameters, rest'⟩, hm, hr⟩ := List.exists_of_findSome?_eq_some hr
  simp only [Option.bind_eq_some_iff, after_eq_some_iff, Option.ite_none_right_eq_some] at hr
  obtain ⟨v, rfl, hv, -⟩ := hr
  have hpart := append_of_mem_cuts hm
  have hlast := last_of_trimStart hv (parameters ++ [')'])
  rw [List.append_assoc, hpart] at hlast
  have hrest := last_append hlast (leading rest ++ ['('])
  rw [List.append_assoc, ← hu, leading_append_trimStart] at hrest
  exact last_append (last_append (last_append hrest name) b) _

theorem last_of_readLoop (hr : readLoop s = some h) : s.getLast? = some ':' := by
  simp only [readLoop, Option.bind_eq_bind, Option.bind_eq_some_iff, Prod.exists] at hr
  obtain ⟨u, hu, t, ht, iterator, rest, hi, hr⟩ := hr
  obtain ⟨hr, -⟩ := Option.ite_none_right_eq_some.1 hr
  obtain ⟨a, rfl⟩ := append_of_keyword (Option.bind_eq_some_iff.2 ⟨u, hu, ht⟩)
  have hsplit : t = iterator ++ rest := by
    cases hn : numberStart? t with
    | some x =>
      rw [hn] at hi
      cases hi
      exact Simple.append_numberStart? hn
    | none =>
      rw [hn] at hi
      cases t with
      | nil => cases hi
      | cons c t =>
        obtain ⟨-, hi⟩ := Option.ite_none_right_eq_some.1 hi
        cases hi
        simp [List.takeWhile_append_dropWhile]
  rw [hsplit]
  exact last_append (last_of_trimStart hr iterator) a

theorem last_of_readGroup (hr : readGroup s = some h) : s.getLast? = some ':' := by
  simp only [readGroup, Option.bind_eq_bind, Option.bind_eq_some_iff, Prod.exists,
    run?_eq_some_iff] at hr
  obtain ⟨u, hu, t, ht, name, rest, ⟨-, -, -, rfl⟩, hr⟩ := hr
  obtain ⟨hr, -⟩ := Option.ite_none_right_eq_some.1 hr
  obtain ⟨a, rfl⟩ := append_of_keyword (Option.bind_eq_some_iff.2 ⟨u, hu, ht⟩)
  exact last_append (last_of_trimStart hr name) a

theorem last_of_readFor (hr : readFor s = some h) : s.getLast? = some ':' := by
  simp only [readFor, Option.bind_eq_bind, Option.bind_eq_some_iff, Prod.exists,
    word?_eq_some_iff] at hr
  obtain ⟨u, hu, t, ht, item, rest, ⟨-, -, -, rfl⟩, v, hv, w, hw, -⟩ := hr
  obtain ⟨a, rfl⟩ := append_of_keyword (Option.bind_eq_some_iff.2 ⟨u, hu, ht⟩)
  obtain ⟨b, -, -, -, rfl⟩ := afterBlanks?_eq_some_iff.1 hv
  exact last_append (last_append (last_append (last_of_readColon hw) b) item) a

theorem last_of_readParam (hr : readParam s = some h) : s.getLast? = some '{' := by
  simp only [readParam, Option.bind_eq_bind, Option.bind_eq_some_iff] at hr
  obtain ⟨u, hu, t, ht, hr⟩ := hr
  obtain ⟨a, rfl⟩ := append_of_keyword (Option.bind_eq_some_iff.2 ⟨u, hu, ht⟩)
  obtain ⟨⟨name, rest⟩, hm, hr⟩ := List.exists_of_findSome?_eq_some hr
  obtain ⟨hc, -⟩ := Option.ite_none_right_eq_some.1 hr
  obtain ⟨-, -, rfl⟩ := of_mem_someCuts hm
  exact last_append (last_of_trimStart hc name) a

theorem last_of_readElseIf (hr : readElseIf s = some h) : s.getLast? = some ':' := by
  simp only [readElseIf, Option.bind_eq_bind, Option.bind_eq_some_iff] at hr
  obtain ⟨u, hu, t, ht, w, hw, -⟩ := hr
  obtain ⟨a, rfl⟩ := append_of_keyword (Option.bind_eq_some_iff.2 ⟨u, hu, ht⟩)
  exact last_append (last_of_readColon hw) a

theorem last_of_readElse (hr : readElse s = some h) : s.getLast? = some ':' := by
  obtain ⟨t, ht, hr⟩ := Option.bind_eq_some_iff.1 hr
  obtain rfl := after_eq_some_iff.1 ht
  obtain ⟨hc, -⟩ := Option.ite_none_right_eq_some.1 hr
  exact last_of_trimStart hc _

theorem last_of_readBranch (hr : readBranch s = some h) : s.getLast? = some ':' := by
  rw [readBranch] at hr
  cases he : readElseIf s with
  | some x => exact last_of_readElseIf he
  | none =>
    rw [he] at hr
    exact last_of_readElse hr

end Header

theorem Statement.last_of_block {s : Text} {b : Header} (h : single? s = some (.block b)) :
    s.getLast? = some ':' ∨ s.getLast? = some '{' := by
  cases ofLine_of_single h with
  | on _ read | conditional _ read | automate _ read =>
    obtain ⟨t, ht, -⟩ := Option.map_eq_some_iff.1 read
    exact Or.inl (Header.last_of_readColon ht)
  | fn _ _ read => exact Or.inl (Header.last_of_readFn read)
  | loop _ read => exact Or.inl (Header.last_of_readLoop read)
  | group _ read => exact Or.inl (Header.last_of_readGroup read)
  | each _ _ read => exact Or.inl (Header.last_of_readFor read)
  | param _ read => exact Or.inr (Header.last_of_readParam read)

/-! Some other kinds end with a quote or a closing brace. -/

namespace Simple
variable {s rest t : Text} {names : List Text} {r : Simple}

theorem append_of_readNames (h : readNames s = some (names, rest)) : ∃ a, s = a ++ '}' :: rest := by
  simp only [readNames, Option.bind_eq_bind, Option.bind_eq_some_iff, after_eq_some_iff,
    Option.pure_def, Option.some.injEq, Prod.mk.injEq] at h
  obtain ⟨t, ht, u, hu, -, rfl⟩ := h
  refine ⟨leading s ++ '{' :: t.takeWhile (· != '}'), ?_⟩
  have hsplit : t.takeWhile (· != '}') ++ '}' :: u = t := by
    have h := List.takeWhile_append_dropWhile (p := (· != '}')) (l := t)
    rwa [hu] at h
  rw [List.append_assoc, List.cons_append, hsplit]
  have h := leading_append_trimStart s
  rw [ht] at h
  exact h.symm

theorem last_of_readExport (h : readExport s = some r) : s.getLast? = some '}' := by
  simp only [readExport, Option.bind_eq_bind, Option.bind_eq_some_iff, Prod.exists,
    after_eq_some_iff, Option.ite_none_right_eq_some, List.isEmpty_iff] at h
  obtain ⟨u, rfl, names, rest, hn, rfl, -⟩ := h
  obtain ⟨a, rfl⟩ := append_of_readNames hn
  exact last_append (last_append rfl a) _

theorem last_of_readImport (h : readImport s = some r) : s.getLast? = some '"' := by
  simp only [readImport, Option.bind_eq_bind, Option.bind_eq_some_iff, Prod.exists,
    after_eq_some_iff, Option.ite_none_right_eq_some, List.isEmpty_iff] at h
  obtain ⟨u, rfl, names, rest, hn, v, hv, source, w, hq, rfl, -⟩ := h
  obtain ⟨a, rfl⟩ := append_of_readNames hn
  obtain ⟨-, hq⟩ := readQuoted_eq_some_iff.1 hq
  have hlast : v.getLast? = some '"' := by
    rw [← leading_append_trimStart v, hq, ← List.cons_append]
    exact last_append (last_append rfl _) _
  have hrest : rest.getLast? = some '"' := by
    rw [← leading_append_trimStart rest, hv]
    exact last_append (last_append hlast _) _
  rw [List.append_cons]
  exact last_append (last_append hrest _) _

theorem last_of_readPattern (h : readPattern s = some r) : s.getLast? = some '"' := by
  simp only [readPattern, Option.bind_eq_bind, Option.bind_eq_some_iff, Prod.exists,
    after_eq_some_iff, afterBlanks?_eq_some_iff, word?_eq_some_iff] at h
  obtain ⟨_, rfl, _, ⟨b, -, -, -, rfl⟩, name, _, ⟨-, -, -, rfl⟩, _, ⟨c, -, -, -, rfl⟩, _, rfl, w,
    ⟨d, -, -, -, rfl⟩, h⟩ := h
  obtain ⟨⟨i, rest⟩, hm, hf⟩ := List.exists_of_findSome?_eq_some h
  obtain ⟨-, -, rfl⟩ := of_mem_someCuts hm
  simp only [Option.bind_eq_some_iff, between?_eq_some_iff, after_eq_some_iff] at hf
  obtain ⟨x, hx, steps, hsteps, -⟩ := hf
  have hlast : x.getLast? = some '"' := by
    rw [← leading_append_trimStart x, hsteps, ← List.cons_append]
    exact last_append (last_append rfl _) _
  have hrest : rest.getLast? = some '"' := by
    rw [← leading_append_trimStart rest, hx]
    exact last_append (last_append hlast _) _
  exact last_append (last_append (last_append (last_append (last_append (last_append (last_append
    hrest _) _) _) _) _) _) _

end Simple

end Devalang
