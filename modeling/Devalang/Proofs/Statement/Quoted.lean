import Devalang.Proofs.Statement.Words
import Devalang.Proofs.Value.RoundTrip
import Devalang.Proofs.Text.Lines

/-! Statements with values, lists of names and quoted texts: their texts are read as the same. -/
namespace Devalang
open Text Nesting
namespace Simple
variable {s t rest : Text} {names : List Text} {r : Simple}

theorem fixed_sleep (h : readSleep s = some r) (hw : '\n' ∉ r.write) : r.Fixed := by
  simp only [readSleep, Option.bind_eq_bind, Option.bind_eq_some_iff, Option.pure_def,
    Option.some.injEq] at h
  obtain ⟨u, -, e, -, rfl⟩ := h
  have hv := Value.stable e
  have hwrite : (sleep (Value.read e)).write = "sleep".toList ++ ' ' :: (Value.read e).write := rfl
  have hnl : '\n' ∉ (Value.read e).write := by
    intro hm
    rw [hwrite] at hw
    exact hw (List.mem_append_right _ (List.mem_cons_of_mem _ hm))
  have hread : readSleep ("sleep".toList ++ ' ' :: (Value.read e).write) =
      some (.sleep (Value.read e)) := by
    simp only [readSleep, after_self, Option.bind_eq_bind, Option.bind_some, Option.pure_def,
      restOfLine?_space hv.trimmed.head hv.nonempty hnl, hv.reads]
  exact fixed_of_append hwrite (single?_of_line 16 rfl rfl hread) (x := "sleep ".toList) rfl
    hv.trimmed hv.nonempty

/-! Names between braces. -/

theorem split_first {c : Char} {rest' : Text} (h : after [c] (s.dropWhile (· != c)) = some rest') :
    c ∉ s.takeWhile (· != c) ∧ s = s.takeWhile (· != c) ++ c :: rest' := by
  have hd := after_eq_some_iff.1 h
  refine ⟨fun hm => ?_, ?_⟩
  · have := List.mem_takeWhile_imp hm
    simp at this
  · rw [show c :: rest' = s.dropWhile (· != c) from hd.symm, List.takeWhile_append_dropWhile]

theorem split_append {c : Char} (ht : c ∉ t) (rest : Text) :
    (t ++ c :: rest).takeWhile (· != c) = t ∧ (t ++ c :: rest).dropWhile (· != c) = c :: rest := by
  have hall : ∀ d ∈ t, (d != c) = true := by
    intro d hd
    have hne : d ≠ c := fun he => ht (he ▸ hd)
    simpa using hne
  have hstop : Stops (· != c) (c :: rest) := stops_cons (by simp) rest
  exact ⟨takeWhile_append hall hstop, dropWhile_append hall hstop⟩

theorem items_join (h : Tidy (· == .comma) names) : items (Text.join comma names) = names :=
  h.separatedBy_join rfl rfl (by rw [separates_comma]; rfl) blank_space

theorem exists_writeNames (htidy : Tidy (· == .comma) names) (hbrace : ∀ n ∈ names, '}' ∉ n) :
    ∃ u, writeNames names = '{' :: (u ++ ['}']) ∧ items u = names ∧ '}' ∉ u := by
  cases names with
  | nil => exact ⟨[], rfl, separatedBy_nil rfl rfl, by simp⟩
  | cons n ns =>
    refine ⟨' ' :: Text.join comma (n :: ns) ++ [' '], by simp [writeNames], ?_, ?_⟩
    · rw [items, separatedBy_append_blank rfl rfl rfl blank_space, ← List.singleton_append,
        separatedBy_blank_append rfl rfl blank_space]
      exact items_join htidy
    · intro hm
      have hm : '}' ∈ Text.join comma (n :: ns) := by simpa using hm
      rcases mem_join hm with hc | ⟨x, hx, hc⟩
      · revert hc
        decide
      · exact hbrace x hx hc

theorem readNames_append (htidy : Tidy (· == .comma) names) (hbrace : ∀ n ∈ names, '}' ∉ n)
    (rest : Text) : readNames (' ' :: (writeNames names ++ rest)) = some (names, rest) := by
  obtain ⟨u, hu, hitems, hnb⟩ := exists_writeNames htidy hbrace
  have htext : writeNames names ++ rest = '{' :: (u ++ '}' :: rest) := by simp [hu]
  have hstop : Stops isBlank ('{' :: (u ++ '}' :: rest)) := stops_cons (by decide) _
  obtain ⟨htake, hdrop⟩ := split_append hnb rest
  simp only [readNames, htext, trimStart_space hstop, after_head, Option.bind_eq_bind,
    Option.bind_some, hdrop, htake, hitems, Option.pure_def]

theorem names_of_readNames (h : readNames s = some (names, rest)) :
    Tidy (· == .comma) names ∧ ∀ n ∈ names, '}' ∉ n := by
  simp only [readNames, Option.bind_eq_bind, Option.bind_eq_some_iff, Option.pure_def,
    Option.some.injEq, Prod.mk.injEq] at h
  obtain ⟨t, -, u, hu, rfl, -⟩ := h
  refine ⟨tidy_separatedBy rfl rfl _, fun n hn hm => ?_⟩
  obtain ⟨a, b, he, -⟩ := exists_of_mem_separatedBy (K := (· == .comma)) rfl rfl hn
  refine (split_first hu).1 ?_
  rw [he]
  exact List.mem_append_left _ (List.mem_append_right _ hm)

theorem fixed_export (h : readExport s = some r) : r.Fixed := by
  simp only [readExport, Option.bind_eq_bind, Option.bind_eq_some_iff, Prod.exists] at h
  obtain ⟨u, -, names, rest, hn, h⟩ := h
  obtain ⟨-, hr⟩ := Option.ite_none_right_eq_some.1 h
  obtain rfl := Option.some.inj hr
  obtain ⟨htidy, hbrace⟩ := names_of_readNames hn
  have hwrite : (exports names).write = "@export".toList ++ ' ' :: (writeNames names ++ []) := by
    rw [List.append_nil]
    rfl
  have hread : readExport ("@export".toList ++ ' ' :: (writeNames names ++ [])) =
      some (.exports names) := by
    simp only [readExport, after_self, Option.bind_eq_bind, Option.bind_some,
      readNames_append htidy hbrace []]
    rfl
  obtain ⟨u, hu, -, -⟩ := exists_writeNames htidy hbrace
  exact fixed_of_append hwrite (single?_of_line 11 rfl rfl hread)
    (x := "@export".toList ++ ' ' :: '{' :: u) (by simp [hu]) (trimmed_singleton (c := '}') (by decide))
    (by simp)

theorem readQuoted_eq_some_iff : readQuoted s = some (t, rest) ↔
    '"' ∉ t ∧ s = '"' :: (t ++ '"' :: rest) := by
  constructor
  · intro h
    simp only [readQuoted, Option.bind_eq_bind, Option.bind_eq_some_iff, after_eq_some_iff,
      Option.pure_def, Option.some.injEq, Prod.mk.injEq] at h
    obtain ⟨u, rfl, v, hv, rfl, rfl⟩ := h
    obtain ⟨hn, he⟩ := split_first (after_eq_some_iff.2 hv)
    exact ⟨hn, by rw [← he]; rfl⟩
  · rintro ⟨hn, rfl⟩
    obtain ⟨htake, hdrop⟩ := split_append hn rest
    simp only [readQuoted, after_head, Option.bind_eq_bind, Option.bind_some, hdrop, htake,
      Option.pure_def]

theorem fixed_import (h : readImport s = some r) : r.Fixed := by
  simp only [readImport, Option.bind_eq_bind, Option.bind_eq_some_iff, Prod.exists] at h
  obtain ⟨u, -, names, rest, hn, v, -, source, rest', hs, h⟩ := h
  obtain ⟨-, hr⟩ := Option.ite_none_right_eq_some.1 h
  obtain rfl := Option.some.inj hr
  obtain ⟨htidy, hbrace⟩ := names_of_readNames hn
  obtain ⟨hsource, -⟩ := readQuoted_eq_some_iff.1 hs
  obtain ⟨tail, htail⟩ : ∃ tail, tail = " from \"".toList ++ source ++ ['"'] := ⟨_, rfl⟩
  have hwrite : (imports names source).write =
      "@import".toList ++ ' ' :: (writeNames names ++ tail) := by
    have h : (imports names source).write =
      "@import ".toList ++ writeNames names ++ " from \"".toList ++ source ++ ['"'] := rfl
    rw [h, htail]
    simp
  have hread : readImport ("@import".toList ++ ' ' :: (writeNames names ++ tail)) =
      some (.imports names source) := by
    have hfrom : trimStart tail = "from".toList ++ ' ' :: '"' :: (source ++ ['"']) := by
      have hsplit : tail = ' ' :: ("from".toList ++ ' ' :: '"' :: (source ++ ['"'])) := by simp [htail]
      rw [hsplit]
      exact trimStart_space (stops_cons (by decide) _)
    have hquote : Stops isBlank ('"' :: (source ++ ['"'])) := stops_cons (by decide) _
    have hq : readQuoted ('"' :: (source ++ ['"'])) = some (source, []) :=
      readQuoted_eq_some_iff.2 ⟨hsource, rfl⟩
    simp only [readImport, after_self, Option.bind_eq_bind, Option.bind_some,
      readNames_append htidy hbrace tail, hfrom, trimStart_space hquote, hq]
    rfl
  exact fixed_of_append hwrite (single?_of_line 10 rfl rfl hread)
    (x := "@import".toList ++ ' ' :: (writeNames names ++ " from \"".toList ++ source))
    (by simp [htail]) (trimmed_singleton (c := '"') (by decide)) (by simp)

theorem fixed_load (h : readLoad s = some r) : r.Fixed := by
  simp only [readLoad, Option.bind_eq_bind, Option.bind_eq_some_iff, Prod.exists, Option.pure_def,
    Option.some.injEq] at h
  obtain ⟨u, -, v, -, path, rest, hq, w, -, known, hk, rfl⟩ := h
  obtain ⟨hpath, -⟩ := readQuoted_eq_some_iff.1 hq
  obtain ⟨tail, htail⟩ : ∃ tail, tail = "as".toList ++ ' ' :: known := ⟨_, rfl⟩
  have hwrite : (load path known).write =
      "@load".toList ++ ' ' :: '"' :: (path ++ '"' :: ' ' :: tail) := by
    have h : (load path known).write =
      "@load \"".toList ++ path ++ "\" as ".toList ++ known := rfl
    rw [h, htail]
    simp
  have hread : readLoad ("@load".toList ++ ' ' :: '"' :: (path ++ '"' :: ' ' :: tail)) =
      some (.load path known) := by
    have hb : afterBlanks? (' ' :: '"' :: (path ++ '"' :: ' ' :: tail)) =
        some ('"' :: (path ++ '"' :: ' ' :: tail)) := afterBlanks?_space (stops_cons (by decide) _)
    have hq : readQuoted ('"' :: (path ++ '"' :: ' ' :: tail)) = some (path, ' ' :: tail) :=
      readQuoted_eq_some_iff.2 ⟨hpath, rfl⟩
    have hbt : afterBlanks? (' ' :: tail) = some tail := by
      rw [htail]
      exact afterBlanks?_space (stops_cons (by decide) _)
    have hkt : readWord "as" tail = some known := by
      rw [htail]
      exact readWord_space hk
    simp only [readLoad, after_self, Option.bind_eq_bind, Option.bind_some, hb, hq, hbt, hkt,
      Option.pure_def]
  obtain ⟨hkt, hkne⟩ := word_of_readWord hk
  exact fixed_of_append hwrite (single?_of_line 12 rfl rfl hread)
    (x := "@load".toList ++ ' ' :: '"' :: (path ++ '"' :: ' ' :: "as ".toList)) (by simp [htail])
    hkt hkne

theorem readPattern_write {name i steps : Text} (hname : name ≠ [])
    (hword : ∀ c ∈ name, isBlank c = false) (hi : i ≠ []) (hiword : ∀ c ∈ i, notBlank c = true)
    (hline : steps.all inLine = true) :
    readPattern (pattern name i steps).write = some (.pattern name i steps) := by
  obtain ⟨tail, htail⟩ : ∃ tail, tail = '=' :: ' ' :: '"' :: (steps ++ ['"']) := ⟨_, rfl⟩
  obtain ⟨more, hmore⟩ : ∃ more, more = "with".toList ++ ' ' :: (i ++ ' ' :: tail) := ⟨_, rfl⟩
  have hwrite : (pattern name i steps).write = "pattern".toList ++ ' ' :: (name ++ ' ' :: more) := by
    have h : (pattern name i steps).write =
      "pattern ".toList ++ name ++ " with ".toList ++ i ++ " = \"".toList ++ steps ++ ['"'] := rfl
    rw [h, hmore, htail]
    simp
  have hb : afterBlanks? (' ' :: (name ++ ' ' :: more)) = some (name ++ ' ' :: more) :=
    afterBlanks?_space ((stops_word hword).append hname _)
  have hw : word? (name ++ ' ' :: more) = some (name, ' ' :: more) :=
    word?_eq_some_iff.2 ⟨hname, hword, stops_space more, rfl⟩
  have hbm : afterBlanks? (' ' :: more) = some more := by
    rw [hmore]
    exact afterBlanks?_space (stops_cons (by decide) _)
  have hwith : after "with".toList more = some (' ' :: (i ++ ' ' :: tail)) := by
    rw [hmore, after_self]
  have hbi : afterBlanks? (' ' :: (i ++ ' ' :: tail)) = some (i ++ ' ' :: tail) :=
    afterBlanks?_space ((stops_word fun c hc => notBlank_iff.1 (hiword c hc)).append hi _)
  have hstart : trimStart (' ' :: tail) = tail := by
    rw [htail]
    exact trimStart_space (stops_cons (by decide) _)
  have heq : after ['='] tail = some (' ' :: '"' :: (steps ++ ['"'])) := by rw [htail, after_head]
  have hquote : Stops isBlank ('"' :: (steps ++ ['"'])) := stops_cons (by decide) _
  have hbetween : between? '"' '"' ('"' :: (steps ++ ['"'])) = some steps := between?_eq_some_iff.2 rfl
  simp only [hwrite, readPattern, after_self, Option.bind_eq_bind, Option.bind_some, hb, hw, hbm,
    hwith, hbi]
  refine findSome?_someCuts hi hiword (stops_space tail) ?_
  simp only [hstart, heq, Option.bind_some, trimStart_space hquote, hbetween, hline, if_true]
  rfl

theorem fixed_pattern (h : readPattern s = some r) : r.Fixed := by
  simp only [readPattern, Option.bind_eq_bind, Option.bind_eq_some_iff, Prod.exists] at h
  obtain ⟨u, -, v, -, name, rest, hword, w, -, x, -, y, -, h⟩ := h
  obtain ⟨hname, hnw, -, -⟩ := word?_eq_some_iff.1 hword
  obtain ⟨⟨i, rest'⟩, hm, h⟩ := List.exists_of_findSome?_eq_some h
  obtain ⟨hi, hiw, -⟩ := of_mem_someCuts hm
  simp only [Option.bind_eq_some_iff, Option.ite_none_right_eq_some] at h
  obtain ⟨z, -, steps, -, hline, h⟩ := h
  obtain rfl := Option.some.inj h
  exact fixed_of_append rfl (single?_of_line 17 rfl rfl (readPattern_write hname hnw hi hiw hline))
    (x := "pattern ".toList ++ name ++ " with ".toList ++ i ++ " = \"".toList ++ steps) rfl
    (trimmed_singleton (c := '"') (by decide)) (by simp)

/-! Keyframes. -/

theorem numberStart?_percent {n : Text} (h : numberStart? s = some (n, '%' :: rest)) (t : Text) :
    numberStart? (n ++ '%' :: t) = some (n, '%' :: t) := by
  have hp (u : Text) : Stops isDigit ('%' :: u) := stops_cons (by decide) u
  have hdot (u : Text) : Stops isDigit ('.' :: u) := stops_cons (by decide) u
  have hrun {a : Text} (hne : a ≠ []) (ha : ∀ c ∈ a, isDigit c = true) {b : Text}
      (hb : Stops isDigit b) : run? isDigit (a ++ b) = some (a, b) :=
    run?_eq_some_iff.2 ⟨hne, ha, hb, rfl⟩
  rw [numberStart?] at h
  split at h
  · cases h
  · rename_i whole u hw
    obtain ⟨hne, hall, -, -⟩ := run?_eq_some_iff.1 hw
    split at h
    · cases h
    · rename_i part rest' hpart
      cases h
      obtain ⟨hne', hall', -, -⟩ := run?_eq_some_iff.1 hpart
      rw [List.append_assoc, List.cons_append, numberStart?, hrun hne hall (hdot _)]
      simp only [hrun hne' hall' (hp t)]
  · rename_i whole rest' hnot hw
    cases h
    obtain ⟨hne, hall, -, -⟩ := run?_eq_some_iff.1 hw
    rw [numberStart?, hrun hne hall (hp t)]
    simp

theorem append_numberStart? {n : Text} (h : numberStart? s = some (n, rest)) : s = n ++ rest := by
  rw [numberStart?] at h
  split at h
  · cases h
  · rename_i whole u hw
    obtain ⟨-, -, -, rfl⟩ := run?_eq_some_iff.1 hw
    split at h
    · cases h
      rfl
    · rename_i part rest' hpart
      cases h
      obtain ⟨-, -, -, rfl⟩ := run?_eq_some_iff.1 hpart
      simp
  · rename_i hw
    cases h
    obtain ⟨-, -, -, rfl⟩ := run?_eq_some_iff.1 hw
    rfl

theorem head_numberStart? {n : Text} (h : numberStart? s = some (n, rest)) :
    ∃ c u, n = c :: u ∧ isDigit c = true := by
  have hhead {a b : Text} (hr : run? isDigit s = some (a, b)) :
      ∃ c u, a = c :: u ∧ isDigit c = true := by
    obtain ⟨hne, hall, -, -⟩ := run?_eq_some_iff.1 hr
    obtain ⟨c, u, rfl⟩ := List.exists_cons_of_ne_nil hne
    exact ⟨c, u, rfl, hall c (by simp)⟩
  rw [numberStart?] at h
  split at h
  · cases h
  · rename_i whole u hw
    split at h
    · cases h
      exact hhead hw
    · rename_i part rest' hpart
      cases h
      obtain ⟨c, v, rfl, hc⟩ := hhead hw
      exact ⟨c, v ++ '.' :: part, rfl, hc⟩
  · rename_i hw
    cases h
    exact hhead hw

/-- No statement but a keyframe or an arrow call starts with a digit. -/
theorem single?_digit {c : Char} (hc : isDigit c = true) (u : Text) :
    (Statement.singleReaders.take 21).findSome? (· (c :: u)) = none := by
  have ha (k : Char) (w : Text) (hk : isDigit k = false) : after (k :: w) (c :: u) = none := by
    rw [after, if_neg]
    rintro rfl
    rw [hc] at hk
    cases hk
  rw [List.findSome?_eq_none_iff]
  intro read hm
  simp only [Statement.singleReaders, List.take_succ_cons, List.take_zero, List.mem_cons,
    List.not_mem_nil, or_false] at hm
  rcases hm with rfl | rfl | rfl | rfl | rfl | rfl | rfl | rfl | rfl | rfl | rfl | rfl | rfl | rfl |
    rfl | rfl | rfl | rfl | rfl | rfl | rfl
  all_goals
    simp [readComment, readBpm, readBank, readUse, readEmit, readPrint, readImport, readExport,
      readLoad, readCall, readSpawn, readSleep, readPattern, readWord, readAliased, startsWith,
      Header.readOn, Header.readFn, Header.readIf, Header.readLoop, Header.readGroup, Header.readFor,
      Header.readAutomate, Header.readParam, Header.readColon, ha '#' _ (by decide),
      ha 'b' _ (by decide), ha '@' _ (by decide), ha 'o' _ (by decide), ha 'f' _ (by decide),
      ha 'e' _ (by decide), ha 'p' _ (by decide), ha 'i' _ (by decide), ha 'l' _ (by decide),
      ha 'g' _ (by decide), ha 'c' _ (by decide), ha 's' _ (by decide), ha 'a' _ (by decide)]

def keyframeValue? (s : Text) : Option Text :=
  (cuts isBlank s).findSome? fun (_, value) =>
    if !value.isEmpty && value.all inLine then some value else none

theorem keyframeValue?_append {b v : Text} (hb : Blank b) (hv : Stops isBlank v) (hne : v ≠ [])
    (hl : '\n' ∉ v) : keyframeValue? (b ++ v) = some v := by
  obtain ⟨more, hm⟩ := cuts_eq isBlank (b ++ v)
  have hcond : (!v.isEmpty && v.all inLine) = true := by
    rw [Bool.and_eq_true, inLine_iff]
    exact ⟨by simpa using hne, hl⟩
  simp only [keyframeValue?, hm, takeWhile_append hb hv, dropWhile_append hb hv, List.findSome?_cons,
    hcond, if_true]

theorem readKeyframe_eq : readKeyframe s =
    (numberStart? s).bind fun (number, rest) => (after ['%'] rest).bind fun rest =>
      (readSeparator (trimStart rest)).bind fun (separator, rest) =>
        (keyframeValue? rest).map (.keyframe (number ++ ['%']) separator) := by
  have hvalue (f : Text → Simple) (t : Text) : (keyframeValue? t).map f =
      (cuts isBlank t).findSome? fun (_, value) =>
        if !value.isEmpty && value.all inLine then some (f value) else none := by
    rw [keyframeValue?, List.map_findSome?]
    congr 1
    funext ⟨a, v⟩
    simp only [Function.comp]
    split <;> rfl
  simp only [readKeyframe, hvalue, Option.bind_eq_bind]

def separatorChar : Separator → Char
  | .equals => '='
  | .colon => ':'

theorem stops_separator (separator : Separator) (t : Text) :
    Stops isBlank (separatorChar separator :: t) :=
  stops_cons (by cases separator <;> decide) t

theorem readSeparator_eq_some_iff {separator : Separator} :
    readSeparator s = some (separator, t) ↔ s = separatorChar separator :: t := by
  constructor
  · intro h
    rw [readSeparator.eq_def] at h
    split at h <;> cases h <;> rfl
  · rintro rfl
    cases separator <;> rfl

theorem exists_write_keyframe (separator : Separator) : ∃ b, Blank b ∧ ∀ position v,
    (keyframe position separator v).write = position ++ (b ++ separatorChar separator :: ' ' :: v) := by
  cases separator with
  | equals =>
    refine ⟨[' '], blank_space, fun position v => ?_⟩
    have h : (keyframe position .equals v).write = position ++ " = ".toList ++ v := rfl
    rw [h, List.append_assoc]
    rfl
  | colon =>
    refine ⟨[], by simp [Blank], fun position v => ?_⟩
    have h : (keyframe position .colon v).write = position ++ ": ".toList ++ v := rfl
    rw [h, List.append_assoc]
    rfl

/-- A number that was read in front of a percent sign is read there again, whatever follows the
separator. -/
theorem readKeyframe_append {n b : Text} (hn : numberStart? s = some (n, '%' :: rest)) (hb : Blank b)
    (separator : Separator) (hne : trimStart t ≠ []) (hl : '\n' ∉ t) :
    readKeyframe (n ++ '%' :: (b ++ separatorChar separator :: t)) =
      some (.keyframe (n ++ ['%']) separator (trimStart t)) := by
  have htrim : trimStart (b ++ separatorChar separator :: t) = separatorChar separator :: t := by
    rw [trimStart_blank_append hb, trimStart_of_head (stops_separator separator t)]
  have hvalue := keyframeValue?_append (blank_leading t) (fun c hc => head_trimStart hc) hne
    fun hm => hl ((List.dropWhile_suffix _).subset hm)
  rw [leading_append_trimStart] at hvalue
  have hsep : readSeparator (separatorChar separator :: t) = some (separator, t) :=
    readSeparator_eq_some_iff.2 rfl
  rw [readKeyframe_eq, numberStart?_percent hn]
  simp only [Option.bind_some, after_head, htrim, hsep, hvalue, Option.map_some]

theorem eq_of_keyframeValue? {a v : Text} (ht : Trimmed (a ++ t)) (hl : '\n' ∉ a ++ t)
    (h : keyframeValue? t = some v) : Trimmed v ∧ v ≠ [] ∧ '\n' ∉ v := by
  have hne : t ≠ [] := by
    rintro rfl
    cases h
  have hnl : '\n' ∉ trimStart t := fun hm =>
    hl (List.mem_append_right _ ((List.dropWhile_suffix _).subset hm))
  have hvalue := keyframeValue?_append (blank_leading t) (fun c hc => head_trimStart hc)
    (ht.trimStart_ne_nil hne) hnl
  rw [leading_append_trimStart, h] at hvalue
  obtain rfl := Option.some.inj hvalue
  exact ⟨ht.trimStart_right, ht.trimStart_ne_nil hne, hnl⟩

theorem fixed_keyframe (ht : Trimmed s) (hl : '\n' ∉ s) (h : readKeyframe s = some r) : r.Fixed := by
  simp only [readKeyframe_eq, Option.bind_eq_some_iff, Option.map_eq_some_iff, after_eq_some_iff,
    readSeparator_eq_some_iff, Prod.exists] at h
  obtain ⟨number, _, hn, rest, rfl, separator, t, hs, value, hv, rfl⟩ := h
  have hsplit : s = number ++ '%' :: leading rest ++ [separatorChar separator] ++ t := by
    have hrest := leading_append_trimStart rest
    rw [hs] at hrest
    rw [append_numberStart? hn]
    simp [hrest]
  rw [hsplit] at ht hl
  obtain ⟨htv, hne, hnl⟩ := eq_of_keyframeValue? ht hl hv
  obtain ⟨b, hb, hwrite⟩ := exists_write_keyframe separator
  have hstart : trimStart (' ' :: value) = value := trimStart_space htv.head
  have hread := readKeyframe_append (t := ' ' :: value) hn hb separator (by rwa [hstart]) (by simpa using hnl)
  rw [hstart] at hread
  obtain ⟨c, u, rfl, hc⟩ := head_numberStart? hn
  exact fixed_of_append (by rw [hwrite, List.append_assoc]; rfl)
    (single?_of_line 21 rfl (single?_digit hc _) hread)
    (x := c :: u ++ '%' :: (b ++ [separatorChar separator, ' '])) (by simp) htv hne

end Simple

end Devalang
