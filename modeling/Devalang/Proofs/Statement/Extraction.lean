import Devalang.Argument.Item
import Devalang.Proofs.Statement.Trigger

/-! The duration in the arguments of a trigger. The loop over the arguments and the loop over the
properties of an object among them are one loop over the items, which takes out the first item that
describes a duration. What is left is read again from its text. -/
namespace Devalang
open Text

theorem Duration.ofText?_of_object {t : Text} {p : Property} {ps : List Property}
    (h : Value.read t = .object (p :: ps)) : ofText? t = none := by
  have hread := Value.readsAs t
  have htrim := trimmed_trim t
  rw [← ofText?_trim]
  rw [h] at hread
  generalize trim t = u at hread htrim
  generalize hv : Value.object (p :: ps) = v at hread
  cases hread with
  | empty _ => cases hv
  | synth b name _ _ _ _ _ => cases hv
  | object w _ _ hu =>
    rw [hu] at htrim ⊢
    exact ofText?_eq_none htrim (by decide)
  | plain _ _ _ other => exact absurd hv.symm (other _)

namespace Item
variable {found : Option Duration} {d : Duration} {i : Item} {is before after : List Item} {t : Text}

/-- Takes the duration out of items, unless it has been `found` before. -/
def takeDuration : (found : Option Duration) → List Item → Option Duration × List Argument
  | found, [] => (found, [])
  | found, i :: is =>
    match found, i.duration? with
    | none, some d => takeDuration (some d) is
    | found, _ => ((takeDuration found is).1, i.argument :: (takeDuration found is).2)

theorem takeDuration_taken (h : i.duration? = some d) (is : List Item) :
    takeDuration none (i :: is) = takeDuration (some d) is := by
  rw [takeDuration.eq_def]
  simp [h]

theorem takeDuration_kept (h : found = none → i.duration? = none) (is : List Item) :
    takeDuration found (i :: is) =
      ((takeDuration found is).1, i.argument :: (takeDuration found is).2) := by
  rw [takeDuration.eq_def]
  simp only
  split
  · rename_i e he
    rw [h rfl] at he
    cases he
  · rfl

theorem takeDuration_append (found : Option Duration) (is js : List Item) :
    takeDuration found (is ++ js) = ((takeDuration (takeDuration found is).1 js).1,
      (takeDuration found is).2 ++ (takeDuration (takeDuration found is).1 js).2) := by
  induction is generalizing found with
  | nil => rfl
  | cons i is ih =>
    by_cases h : found = none → i.duration? = none
    · rw [List.cons_append, takeDuration_kept h, takeDuration_kept h, ih]
      rfl
    · obtain ⟨rfl, hn⟩ := Classical.not_imp.1 h
      obtain ⟨d, hd⟩ := Option.ne_none_iff_exists'.1 hn
      rw [List.cons_append, takeDuration_taken hd, takeDuration_taken hd, ih]

theorem takeDuration_of_forall (h : found = none → ∀ i ∈ is, i.duration? = none) :
    takeDuration found is = (found, is.map argument) := by
  induction is with
  | nil => rfl
  | cons i is ih =>
    rw [takeDuration_kept fun hf => h hf i (by simp),
      ih fun hf j hj => h hf j (List.mem_cons_of_mem i hj)]
    rfl

theorem takeDuration_first (hb : ∀ j ∈ before, j.duration? = none) (hi : i.duration? = some d) :
    takeDuration none (before ++ i :: after) = (some d, (before ++ after).map argument) := by
  rw [takeDuration_append, takeDuration_of_forall fun _ => hb, takeDuration_taken hi,
    takeDuration_of_forall (by simp), List.map_append]

/-- The loop finds what the search for the first item finds. -/
theorem takeDuration_eq_extract (is : List Item) : takeDuration none is = extract is := by
  rw [extract]
  cases hf : is.findIdx? (·.duration?.isSome) with
  | none =>
    refine takeDuration_of_forall fun _ i hi => ?_
    simpa using List.findIdx?_eq_none_iff.1 hf i hi
  | some n =>
    obtain ⟨hn, hsome, hbefore⟩ := List.findIdx?_eq_some_iff_getElem.1 hf
    obtain ⟨d, hd⟩ := Option.isSome_iff_exists.1 hsome
    have hsplit : is = is.take n ++ is[n] :: is.drop (n + 1) := by
      rw [← List.drop_eq_getElem_cons hn, List.take_append_drop]
    have hb : ∀ j ∈ is.take n, j.duration? = none := by
      intro j hj
      obtain ⟨m, hm, rfl⟩ := List.mem_take_iff_getElem.1 hj
      simpa using hbefore m (by omega)
    have htake : takeDuration none (is.take n ++ is[n] :: is.drop (n + 1)) =
        (some d, (is.take n ++ is.drop (n + 1)).map argument) := takeDuration_first hb hd
    rw [← hsplit] at htake
    simp only [htake, List.getElem?_eq_getElem hn, Option.bind_some, hd,
      List.eraseIdx_eq_take_drop_succ]

theorem ofProperties_eq (found : Option Duration) (ps : List Property) :
    Argument.ofProperties found ps = takeDuration found (ps.map property) := by
  induction ps generalizing found with
  | nil => rfl
  | cons p ps ih =>
    rw [Argument.ofProperties.eq_def, List.map_cons, takeDuration.eq_def]
    simp only [ih]
    rfl

theorem ofToken_object {p : Property} {ps : List Property} (h : Value.read t = .object (p :: ps)) :
    ofToken t = (p :: ps).map property := by rw [ofToken, h]

theorem ofToken_other (h : ∀ p ps, Value.read t ≠ .object (p :: ps)) : ofToken t = [token t] := by
  rw [ofToken]
  split
  · rename_i p ps hr
    exact absurd hr (h p ps)
  · rfl

theorem ofTexts_eq (found : Option Duration) (ts : List Text) :
    Argument.ofTexts found ts = takeDuration found (ts.flatMap ofToken) := by
  induction ts generalizing found with
  | nil => rfl
  | cons t ts ih =>
    rw [List.flatMap_cons]
    rcases Argument.ofTexts_cons found t ts with ⟨d, rfl, hd, he⟩ | ⟨p, ps, hp, hr⟩ | ⟨hp, hv⟩
    · have hv : ∀ p ps, Value.read t ≠ .object (p :: ps) := by
        intro p ps hr
        rw [Duration.ofText?_of_object hr] at hd
        cases hd
      have hd' : (token t).duration? = some d := hd
      rw [he, ofToken_other hv, List.singleton_append, takeDuration_taken hd', ih]
    · rw [Argument.ofTexts_object hp hr, ofToken_object hr, takeDuration_append, ← ofProperties_eq, ih]
    · have hp' : found = none → (token t).duration? = none := hp
      rw [Argument.ofTexts_value hp hv, ofToken_other hv, List.singleton_append, takeDuration_kept hp',
        ih]
      rfl

end Item

namespace Argument

/-- Reading the arguments of a trigger takes out the duration of the first item that describes one.
All other items are its arguments in their order, also those after it that describe a duration. -/
theorem readAll_eq_extract (s : Text) : readAll s = Item.extract (Item.ofText s) := by
  rw [readAll, Item.ofTexts_eq, Item.takeDuration_eq_extract, Item.ofText]

example : (readAll "\x7ba: 1, duration: b\x7d, 1/4, 200".toList).1 = some (.beat "1/4".toList) ∧
    writeArguments [] (readAll "\x7ba: 1, duration: b\x7d, 1/4, 200".toList).2 =
      ["\x7ba: 1, duration: b\x7d".toList, "200".toList] := by decide +kernel

/-- The duration and the other arguments of a trigger are read again from their text. This text is what
follows the name in the text of the trigger. -/
theorem readAll_write (s name : Text) :
    let d := (readAll s).1
    let as := (readAll s).2
    let w := writeStart d (writeArguments [] as)
    readAll w = (d, as) ∧
      (Simple.trigger name d as).write = name ++ if w = [] then [] else ' ' :: w := by
  have hdur : ∀ e, (readAll s).1 = some e → ∃ t, Duration.ofText? t = some e :=
    fun e => ofText?_of_readAll
  refine ⟨readAll_writeStart hdur (rereads_readAll s), Simple.write_trigger name _ _ fun e he => ?_⟩
  obtain ⟨t, ht⟩ := hdur e he
  exact (Duration.toText_chars ht).1

end Argument

end Devalang
