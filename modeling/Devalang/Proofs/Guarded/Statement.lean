import Devalang.Guarded
import Devalang.Proofs.Draft.Form
import Devalang.Proofs.Statement.Following
import Devalang.Proofs.Statement.Arguments
import Devalang.Proofs.Statement.Header
import Devalang.Proofs.Value.Within

/-! Reading a statement meets no fault: what the readers let pass, passes all checks. -/
namespace Devalang
open Draft Text

/-! Values and durations. -/

theorem Value.draft_number {t : Text} (h : isNumber t = true) :
    (Value.number t).draft = .ok (Value.number t).form := by
  have hhead : Kind.checkHead .numberLiteral (.text t) = .ok () := if_pos h
  show (do Kind.checkHead .numberLiteral (.text t); return (Value.number t).form) = _
  rw [hhead]
  rfl

theorem Value.draft_read (s : Text) : (Value.read s).draft = .ok (Value.read s).form := by
  induction hn : s.length using Nat.strong_induction_on generalizing s with
  | _ n ih =>
    subst hn
    rw [Value.read_eq]
    simp only
    split
    · rfl
    split
    · rfl
    split
    · rfl
    split
    · rfl
    split
    · rename_i hnumber
      exact draft_number hnumber
    split
    · rfl
    · rfl
    split
    · rename_i inner hinner
      split
      · refine draft_object fun p hp => ?_
        obtain ⟨x, hx, rfl⟩ := List.mem_map.1 hp
        rw [Property.read]
        split
        · rfl
        · rename_i key v hkey
          refine Property.draft_pair (ih v.length ?_ v rfl)
          have h1 := length_between? hinner
          have h2 := length_of_mem_items hx
          have h3 := length_of_keyValue hkey
          have h4 := length_trim_le s
          omega
      · rfl
    · rfl

theorem Property.draft_read (x : Text) : (Property.read x).draft = .ok (Property.read x).form := by
  rw [Property.read]
  split
  · rfl
  · rename_i v _
    exact Property.draft_pair (Value.draft_read v)

theorem Value.described_read (s : Text) :
    (Value.read s).form.described = .ok (Value.read s).duration? := by
  cases hv : Value.read s with
  | number t =>
    have ht : (Datum.text t).toMilliseconds = .ok (.milliseconds (.written t)) :=
      if_pos (Value.isNumber_of_read hv)
    show (do return some (← (Datum.text t).toMilliseconds)) = _
    rw [ht]
    rfl
  | _ => rfl

theorem Duration.draft_of_ofText? {s : Text} {d : Duration} (h : ofText? s = some d) :
    d.draft = .ok (.duration d) := by
  simp only [ofText?] at h
  split at h
  · rename_i hfraction
    cases h
    have hbeat : (Datum.text s.trim).toBeat = .ok (.beat s.trim) := if_pos hfraction
    rw [draft, hbeat]
    rfl
  · split at h
    · rename_i hnumber
      cases h
      have hms : (Datum.text s.trim).toMilliseconds = .ok (.milliseconds (.written s.trim)) :=
        if_pos hnumber
      rw [draft, hms]
      rfl
    · split at h
      · cases h
        rfl
      · cases h

namespace Guarded

theorem makeDuration?_eq {d : Option Duration} (h : ∀ e, d = some e → ∃ t, Duration.ofText? t = some e) :
    makeDuration? d = .ok d := by
  cases d with
  | none => rfl
  | some e =>
    obtain ⟨t, ht⟩ := h e rfl
    rw [makeDuration?, Duration.draft_of_ofText? ht]
    rfl

theorem propertyDuration?_read (x : Text) :
    propertyDuration? (Property.read x) = .ok (Property.read x).duration? := by
  have hfound : ∀ e, (Property.read x).duration? = some e → ∃ t, Duration.ofText? t = some e :=
    fun _ => Duration.ofText?_of_property
  rw [Property.read] at hfound ⊢
  split at hfound
  · rfl
  · rename_i key v _
    by_cases hk : key = "duration".toList
    · have hvalue : (Property.pair key (Value.read v)).duration? = (Value.read v).duration? := if_pos hk
      rw [hvalue] at hfound ⊢
      rw [propertyDuration?, if_pos hk, Value.draft_read, ok_bind, Value.described_read, ok_bind]
      exact makeDuration?_eq hfound
    · have hvalue : (Property.pair key (Value.read v)).duration? = none := if_neg hk
      rw [hvalue, propertyDuration?, if_neg hk]
      rfl

theorem unlessFound_eq (found d : Option Duration) :
    unlessFound found (.ok d) = .ok (if found = none then d else none) := by
  cases found <;> rfl

theorem ofProperties_eq (found : Option Duration) {ps : List Property}
    (h : ∀ p ∈ ps, ∃ x, p = Property.read x) :
    ofProperties found ps = .ok (Argument.ofProperties found ps) := by
  induction ps generalizing found with
  | nil => rfl
  | cons p ps ih =>
    have hps := fun found => ih found fun q hq => h q (List.mem_cons_of_mem p hq)
    obtain ⟨x, rfl⟩ := h p (by simp)
    rw [ofProperties, propertyDuration?_read, unlessFound_eq, ok_bind, Argument.ofProperties.eq_def]
    cases found with
    | some e =>
      simp only [reduceCtorEq, if_false, hps]
      rfl
    | none =>
      cases hd : (Property.read x).duration? with
      | some d => simpa only [if_true, hd] using hps (some d)
      | none =>
        simp only [if_true, hd, hps]
        rfl

theorem ofTexts_eq (found : Option Duration) (ts : List Text) :
    ofTexts found ts = .ok (Argument.ofTexts found ts) := by
  induction ts generalizing found with
  | nil => rfl
  | cons t ts ih =>
    have hgiven : makeDuration? (Duration.ofText? t) = .ok (Duration.ofText? t) :=
      makeDuration?_eq fun _ he => ⟨t, he⟩
    rw [ofTexts, hgiven, unlessFound_eq, ok_bind]
    have hpasses (hp : Argument.Passes found t) :
        (if found = none then Duration.ofText? t else none) = none := by
      split
      · rename_i hfound
        exact hp hfound
      · rfl
    rcases Argument.ofTexts_cons found t ts with ⟨e, rfl, he, heq⟩ | ⟨p, ps, hp, hr⟩ | ⟨hp, hv⟩
    · rw [if_pos rfl, he, heq]
      exact ih (some e)
    · rw [hpasses hp, Argument.ofTexts_object hp hr]
      obtain ⟨u, hu, -⟩ := Value.eq_readAll_of_read hr
      have hps : ∀ q ∈ p :: ps, ∃ x, q = Property.read x := by
        intro q hq
        rw [hu] at hq
        obtain ⟨x, -, rfl⟩ := List.mem_map.1 hq
        exact ⟨x, rfl⟩
      have hdraft := Value.draft_read t
      rw [hr] at hdraft
      simp only [hr, hdraft, ok_bind, ofProperties_eq found hps, ih]
      rfl
    · rw [hpasses hp, Argument.ofTexts_value hp hv]
      simp only [Value.draft_read, ok_bind, ih]
      rfl

end Guarded

/-! Statements. -/

namespace Argument

theorem draft_ofTexts {found : Option Duration} {ts : List Text} :
    ∀ a ∈ (ofTexts found ts).2, a.draft = .ok a.form := by
  induction ts generalizing found with
  | nil => simp [ofTexts]
  | cons t ts ih =>
    intro a ha
    rcases ofTexts_cons found t ts with ⟨e, rfl, -, heq⟩ | ⟨p, ps, hp, hr⟩ | ⟨hp, hv⟩
    · exact ih a (heq ▸ ha)
    · rw [ofTexts_object hp hr] at ha
      rcases List.mem_append.1 ha with ha | ha
      · obtain ⟨qs, hqs, hmem, -⟩ := ofProperties_spec found (p :: ps)
        rw [hqs] at ha
        obtain ⟨q, hq, rfl⟩ := List.mem_map.1 ha
        obtain ⟨u, hu, -⟩ := Value.eq_readAll_of_read hr
        have hq := hmem q hq
        rw [hu] at hq
        obtain ⟨x, -, rfl⟩ := List.mem_map.1 hq
        exact Property.draft_read x
      · exact ih a ha
    · rw [ofTexts_value hp hv] at ha
      rcases List.mem_cons.1 ha with rfl | ha
      · exact Value.draft_read t
      · exact ih a ha

end Argument

/-- No values stand in the statement. -/
def Simple.isPlain : Simple → Bool
  | declare _ _ | sleep _ | trigger _ _ _ => false
  | _ => true

def Header.isPlain : Header → Bool
  | loop _ => false
  | _ => true

namespace Statement
variable {indent n : Nat} {following : List Text} {s : Text} {st : Statement}

theorem passes_simple {r : Simple} (h : r.isPlain = true) : (simple r).Passes := by
  cases r with
  | declare | sleep | trigger => cases h
  | arrow t c cs => cases cs <;> rfl
  | _ => rfl

theorem passes_block {b : Header} (h : b.isPlain = true) : (block b).Passes := by
  cases b with
  | loop => cases h
  | _ => rfl

theorem passes_declare {name : Text} {v : Value} (h : v.draft = .ok v.form) :
    (simple (.declare name v)).Passes := by
  show (do return (Kind.letDeclaration, [Datum.text name, ← v.draft])) = _
  rw [h]
  rfl

theorem passes_sleep {v : Value} (h : v.draft = .ok v.form) : (simple (.sleep v)).Passes := by
  show (do return (Kind.sleep, [← v.draft])) = _
  rw [h]
  rfl

theorem passes_loop {v : Value} (h : v.draft = .ok v.form) : (block (.loop v)).Passes := by
  show (do return (Kind.loop, [← v.draft])) = _
  rw [h]
  rfl

theorem passes_trigger {name : Text} {d : Option Duration} {as : List Argument}
    (hd : ∀ e, d = some e → ∃ t, Duration.ofText? t = some e) (has : ∀ a ∈ as, a.draft = .ok a.form) :
    (simple (.trigger name d as)).Passes := by
  cases d with
  | none =>
    show (do return (Kind.trigger, [Datum.text name, .none, .list (← as.mapM Argument.draft)])) = _
    rw [mapM_ok has]
    rfl
  | some e =>
    obtain ⟨t, ht⟩ := hd e rfl
    show (do
      let duration ← e.draft
      return (Kind.trigger, [Datum.text name, duration, .list (← as.mapM Argument.draft)])) = _
    rw [Duration.draft_of_ofText? ht, ok_bind, mapM_ok has]
    rfl

theorem value_of_single (h : single? s = some st) :
    (∃ r, st = .simple r ∧ (r.isPlain = true ∨ ∃ t, r = .sleep (Value.read t))) ∨
      ∃ b, st = .block b ∧ (b.isPlain = true ∨ ∃ t, b = .loop (Value.read t)) := by
  cases ofLine_of_single h with
  | sleep t => exact Or.inl ⟨_, rfl, Or.inr ⟨t, rfl⟩⟩
  | loop t => exact Or.inr ⟨_, rfl, Or.inr ⟨t, rfl⟩⟩
  | comment | bpm | bank | plugin | emit | print | imports | exports | load | call | spawn | pattern
  | keyframe => exact Or.inl ⟨_, rfl, Or.inl rfl⟩
  | on | fn | conditional | group | each | automate | param => exact Or.inr ⟨_, rfl, Or.inl rfl⟩

theorem passes_of_read? (h : read? indent following s = some (st, n)) : st.Passes := by
  rcases read?_eq_some_iff.1 h with ⟨hs, -⟩ | ⟨-, r, hg, rfl⟩
  · rcases value_of_single hs with ⟨r, rfl, hr | ⟨t, rfl⟩⟩ | ⟨b, rfl, hb | ⟨t, rfl⟩⟩
    · exact passes_simple hr
    · exact passes_sleep (Value.draft_read t)
    · exact passes_block hb
    · exact passes_loop (Value.draft_read t)
  · rcases going?_eq_some_iff.1 hg with hr | ⟨-, hr⟩ | ⟨-, -, hr⟩
    · obtain ⟨name, start, -, rfl, -⟩ := Simple.readLet_eq_some_iff.1 hr
      refine passes_declare ?_
      simp only
      split
      · rfl
      · exact Value.draft_read _
    · obtain ⟨name, start, -, rfl, -⟩ := Simple.readTrigger_eq_some_iff.1 hr
      refine passes_trigger (fun e he => ?_) Argument.draft_ofTexts
      rcases Argument.ofText?_of_ofTexts he with hfound | hread
      · cases hfound
      · exact hread
    · obtain ⟨-, -, t, first, more, call, calls, -, -, -, -, rfl⟩ := Simple.readArrow_eq_some_iff.1 hr
      exact passes_simple rfl

theorem passes_of_readBranch {b : Header} (h : Header.readBranch s = some b) : (block b).Passes := by
  have hb := Header.isBranch_of_readBranch h
  cases b with
  | loop => cases hb
  | _ => exact passes_block rfl

/-- Every statement is one that passes its checks, however its line is read. -/
theorem ReadsAs.passes (h : ReadsAs indent following s st n) : st.Passes := by
  cases h with
  | blank empty => rfl
  | branch b branch => exact passes_of_readBranch branch
  | known _ _ nonempty read => exact passes_of_read? read
  | unknown nonempty read => rfl

end Statement

/-! Reading with all checks in place. -/

namespace Guarded
variable {st : Statement}

theorem make_eq (h : st.Passes) : make st = .ok st := by
  have hdraft : (Node.node st none [] [] none).draft = .ok (Node.node st none [] [] none).form :=
    Node.draft_node h (by simp) (by simp) (by simp)
  rw [make, hdraft]
  rfl

theorem make?_eq {r : Option (Statement × Nat)} (h : ∀ st n, r = some (st, n) → st.Passes) :
    make? r = .ok r := by
  cases r with
  | none => rfl
  | some x =>
    obtain ⟨st, n⟩ := x
    rw [make?, make_eq (h st n rfl)]
    rfl

theorem readTrigger_eq (indent : Nat) (following : List Text) (s : Text) :
    readTrigger indent following s =
      make? ((Simple.readTrigger indent following s).map fun r => (.simple r.1, r.2)) := by
  rw [readTrigger, Simple.readTrigger]
  cases after ['.'] s with
  | none => rfl
  | some t =>
    simp only [Option.bind_eq_bind, Option.bind_some]
    cases run? _ t with
    | none => rfl
    | some x =>
      obtain ⟨name, rest⟩ := x
      by_cases hline : (trimStart rest).all inLine = true
      · simp only [Option.bind_some, if_pos hline, ofTexts_eq, ok_bind]
        rfl
      · simp only [Option.bind_some, if_neg hline]
        rfl

/-- The links of a chain are never none, and neither are its calls if there are links to call. -/
theorem readArrow_eq (indent : Nat) (following : List Text) (s : Text) :
    readArrow indent following s =
      make? ((Simple.readArrow indent following s).map fun r => (.simple r.1, r.2)) := by
  rw [readArrow, Simple.readArrow]
  by_cases harrow : hasArrow s = true
  · simp only [harrow, Bool.not_true, Bool.false_eq_true, if_false]
    obtain ⟨target, calls, hlinks⟩ :=
      List.exists_cons_of_ne_nil (links_ne_nil (continueChain indent s following).1)
    rw [hlinks, uncons, ok_bind]
    cases calls with
    | nil =>
      simp only [List.isEmpty_nil, Bool.or_true, if_true]
      rfl
    | cons first more =>
      by_cases ht : target = []
      · subst ht
        simp only [List.isEmpty_nil, Bool.true_or, if_true]
        rfl
      · simp only [List.isEmpty_iff, ht, List.isEmpty_cons, Bool.or_false, if_false, List.mapM_cons,
          Option.bind_eq_bind]
        cases Call.read first with
        | none => rfl
        | some call =>
          simp only [Option.bind_some]
          cases more.mapM Call.read <;> rfl
  · simp only [harrow]
    rfl

theorem findSomeM?_make (l : List (Text → Option (Statement × Nat))) (s : Text) :
    (l.map fun read s => make? (read s)).findSomeM? (· s) = make? (l.findSome? (· s)) := by
  induction l with
  | nil => rfl
  | cons read l ih =>
    rw [List.map_cons, List.findSomeM?, List.findSome?_cons, ih]
    cases hr : read s with
    | none =>
      simp only [hr]
      rfl
    | some x =>
      obtain ⟨st, n⟩ := x
      simp only [hr, make?]
      cases make st <;> rfl

theorem readers_eq (indent : Nat) (following : List Text) :
    readers indent following = (Statement.readers indent following).map fun read s => make? (read s) := by
  rw [readers, funext (readTrigger_eq indent following), funext (readArrow_eq indent following)]
  rfl

theorem read?_eq (indent : Nat) (following : List Text) (s : Text) :
    read? indent following s = .ok (Statement.read? indent following s) := by
  rw [read?, readers_eq, findSomeM?_make]
  exact make?_eq fun st n h => Statement.passes_of_read? h

end Guarded

end Devalang
