import Devalang.Draft.Write
import Devalang.Proofs.Draft.Form

/-! The text of an element of a statement or a value is the text of the statement or the value. -/
namespace Devalang
open Draft Written

namespace Draft

theorem writtenAll_eq_map (ds : List Datum) : writtenAll ds = ds.map written := by
  induction ds with
  | nil => rfl
  | cons d ds ih => rw [writtenAll, ih, List.map_cons]

@[simp] theorem datum_written (d : Datum) : (written d).datum = d := by
  cases d <;> rfl

theorem write_form (k : Kind) (fields : List Datum) (o : Option Origin) (cs : List Datum) :
    (Datum.form k fields o cs).write =
      elementText k ((fields ++ Origin.slots o).map written) (cs.map written) := by
  rw [← writtenAll_eq_map, ← writtenAll_eq_map]
  rfl

/-! Texts put together of texts. -/

@[simp] theorem format_text (t : Text) : (Datum.text t).format = t := rfl

theorem joinTexts_text (sep : Text) (ts : List Text) :
    Datum.joinTexts sep (ts.map .text) = .ok (Text.join sep ts) := by
  have h : (ts.map Datum.text).mapM Datum.asText = .ok (ts.map id) := by
    rw [List.mapM_map]
    exact mapM_ok fun t _ => rfl
  rw [Datum.joinTexts, h, List.map_id]
  rfl

theorem sentence_ok (ts : List Text) (t : Text) (h : ts.flatten = t) :
    (.ok (sentence (ts.map .text)) : Except Fault Datum) = .ok (.text t) := by
  have hs : (ts.map Datum.text).flatMap Datum.format = ts.flatten := by
    rw [List.flatMap_map]
    simp [List.flatMap_def]
  rw [sentence, hs, h]

theorem object_ok (ts : List Text) :
    object (ts.map fun t => .ok (.text t)) = .ok (writeObject ts) := by
  have h : (ts.map fun t => Except.ok (ε := Fault) (Datum.text t)).mapM id = .ok (ts.map Datum.text) := by
    rw [List.mapM_map]
    exact mapM_ok fun t _ => rfl
  rw [object, h, ok_bind, joinTexts_text]
  rfl

theorem aliased_ofOption (k : String) (t : Text) (a : Option Text) :
    elementText.aliased [lit k, .text t] (written (.ofOption a)).datum =
      .text (withAlias (k.toList ++ t) a) := by
  rw [datum_written]
  match a with
  | none | some [] => simp [elementText.aliased, sentence, lit, Datum.ofOption, Datum.isSet, withAlias]
  | some (c :: a) => simp [elementText.aliased, sentence, lit, Datum.ofOption, Datum.isSet, withAlias]

theorem names_ofTexts (ns : List Text) : elementText.names (.ofTexts ns) = .ok (writeNames ns) := by
  cases ns with
  | nil => rfl
  | cons n ns =>
    show (do return '{' :: ' ' :: (← Datum.joinTexts comma ((n :: ns).map .text)) ++ [' ', '}']) = _
    rw [joinTexts_text]
    rfl

end Draft

/-! Values. -/

mutual

theorem Value.write_form : (v : Value) → v.form.write = .ok (.text v.write)
  | .identifier _ | .number _ | .raw _ | .string _ | .boolean true | .boolean false => rfl
  | .synth n => sentence_ok ["synth ".toList, n] ("synth ".toList ++ n) (by simp)
  | .object ps => by
    rw [Value.form, Draft.write_form]
    show (do return Datum.text (← object (((Property.formAll ps).map written).map Written.own))) =
      .ok (.text (writeObject (Property.writeAll ps)))
    rw [Property.own_formAll ps, object_ok]
    rfl

theorem Property.write_form : (p : Property) → p.form.write = .ok (.text p.write)
  | .bare _ => rfl
  | .pair k v => by
    show (do return sentence [.text k, lit ": ", ← v.form.write]) = _
    rw [v.write_form]
    exact sentence_ok [k, ": ".toList, v.write] (k ++ ": ".toList ++ v.write) (by simp)

theorem Property.own_formAll : (ps : List Property) →
    ((Property.formAll ps).map written).map (·.own) = (Property.writeAll ps).map fun t => .ok (.text t)
  | [] => rfl
  | p :: ps => by
    rw [Property.formAll, Property.writeAll, List.map_cons, List.map_cons, List.map_cons,
      Property.own_formAll ps]
    exact congrArg (· :: _) (Property.write_form p)

end

/-! Arguments and calls. -/

theorem Argument.kind_form (a : Argument) : a.form.kind? = some .objectProperty ↔ ∃ p, a = .property p := by
  cases a with
  | property p => cases p <;> simp [Argument.form, Property.form, Datum.form, Datum.kind?]
  | value v => cases v <;> simp [Argument.form, Value.form, Datum.form, Datum.kind?]

theorem flush_form (ps : List Property) :
    argumentTexts.flush (ps.map fun p => .ok (.text p.write)) = .ok ((writePending ps).map .text) := by
  cases ps with
  | nil => rfl
  | cons p ps =>
    have h := object_ok ((p :: ps).map Property.write)
    rw [List.map_map] at h
    exact congrArg (fun r => do return [Datum.text (← r)]) h

/-- Properties next to one another are written as one object, `pending` ones before the others. -/
theorem argumentTexts_form (pending : List Property) (as : List Argument) :
    argumentTexts (pending.map fun p => .ok (.text p.write)) (as.map fun a => (a.form, a.form.write)) =
      .ok ((writeArguments pending as).map .text) := by
  induction as generalizing pending with
  | nil => exact flush_form pending
  | cons a as ih =>
    rw [List.map_cons, argumentTexts]
    cases a with
    | property p =>
      have h := ih (pending ++ [p])
      rw [List.map_append, List.map_singleton, ← p.write_form] at h
      rw [if_pos ((Argument.property p).kind_form.2 ⟨p, rfl⟩)]
      exact h
    | value v =>
      have hk : (Argument.value v).form.kind? ≠ some .objectProperty := by
        rw [Ne, Argument.kind_form]
        rintro ⟨p, hp⟩
        cases hp
      have hv : (Argument.value v).form.write = .ok (.text v.write) := v.write_form
      have hrest := ih []
      rw [List.map_nil] at hrest
      rw [if_neg hk, flush_form, hv, hrest, writeArguments, List.map_append]
      rfl

theorem parts_arguments (as : List Argument) :
    (written (.list (as.map Argument.form))).parts = .ok (as.map fun a => (a.form, a.form.write)) := by
  rw [written, writtenAll_eq_map, List.map_map, List.map_map]
  refine congrArg Except.ok (List.map_congr_left fun a _ => ?_)
  exact congrArg (·, a.form.write) (datum_written a.form)

theorem callText_draft (c : Call) : callText c.draft = .ok c.write := by
  show (do return c.method ++ '(' :: (← Datum.joinTexts comma (c.arguments.map .text)) ++ [')']) = _
  rw [joinTexts_text]
  rfl

/-! Statements. -/

theorem elementText_trigger (n : Text) (d : Option Duration) (as : List Argument)
    (more cs : List Written) :
    elementText .trigger ((Simple.trigger n d as).fields.map written ++ more) cs =
      .ok (.text (writeTrigger n d as)) := by
  have hargs : argumentTexts [] (as.map fun a => (a.form, a.form.write)) =
      .ok ((writeArguments [] as).map .text) := argumentTexts_form [] as
  -- the text of the duration comes in front of the others, if there is one
  have hwrite : elementText .trigger ((Simple.trigger n d as).fields.map written ++ more) cs = (do
      let args ← Datum.joinTexts comma
        (← argumentTexts [] (← (written (.list (as.map Argument.form))).parts))
      return Datum.text (← Datum.joinTexts [' '] (.text n ::
        ((d.map Duration.toText).toList.map .text ++ if args.isEmpty then [] else [.text args])))) := by
    cases d <;> rfl
  rw [hwrite, parts_arguments, ok_bind, hargs, ok_bind, joinTexts_text, ok_bind, writeTrigger]
  -- the text of the arguments is left out if it is empty
  have htexts (args : Text) : Datum.text n :: ((d.map Duration.toText).toList.map .text ++
      if args.isEmpty then [] else [.text args]) =
      (n :: ((d.map Duration.toText).toList ++ if args.isEmpty then [] else [args])).map .text := by
    cases args <;> simp
  rw [htexts, joinTexts_text]
  rfl

theorem elementText_arrow (t : Text) (c : Call) (cs : List Call) (more ds : List Written) :
    elementText .arrowCall ((Simple.arrow t c cs).fields.map written ++ more) ds =
      .ok (.text (Simple.arrow t c cs).write) := by
  cases cs with
  | nil =>
    show (do return sentence [.text t, lit " -> ", .text (← callText c.draft)]) = _
    rw [callText_draft]
    exact sentence_ok [t, " -> ".toList, c.write] (t ++ " -> ".toList ++ c.write) (by simp)
  | cons d cs =>
    have hmore : ((d :: cs).map Call.draft).mapM (fun c => return "    -> ".toList ++ (← callText c)) =
        .ok ((d :: cs).map fun c => "    -> ".toList ++ c.write) := by
      rw [List.mapM_map]
      refine mapM_ok fun c _ => ?_
      simp only [Function.comp_apply, callText_draft, ok_bind]
      rfl
    show (do
      let first ← callText c.draft
      let more ← ((d :: cs).map Call.draft).mapM fun c => return "    -> ".toList ++ (← callText c)
      return Datum.text (Text.join ['\n'] ((t ++ " -> ".toList ++ first) :: more))) = _
    rw [callText_draft, ok_bind, hmore]
    rfl

theorem Simple.elementText_fields (s : Simple) (more cs : List Written) :
    elementText s.kind (s.fields.map written ++ more) cs = .ok (.text s.write) := by
  cases s with
  | blank | comment t | unknown t => rfl
  | bpm i => exact sentence_ok ["bpm ".toList, i] ("bpm ".toList ++ i) (by simp)
  | bank i a => exact congrArg Except.ok (aliased_ofOption "bank " i a)
  | plugin n a => exact congrArg Except.ok (aliased_ofOption "@use " n a)
  | declare n v =>
    show (do return sentence [lit "let ", .text n, lit " = ", ← v.form.write]) = _
    rw [v.write_form]
    exact sentence_ok ["let ".toList, n, " = ".toList, v.write]
      ("let ".toList ++ n ++ " = ".toList ++ v.write) (by simp)
  | emit n p =>
    match p with
    | none | some [] => exact sentence_ok ["emit ".toList, n] ("emit ".toList ++ n) (by simp)
    | some (c :: p) =>
      exact sentence_ok ["emit ".toList, n, [' '], c :: p] ("emit ".toList ++ n ++ ' ' :: c :: p) (by simp)
  | print e => exact sentence_ok ["print ".toList, e] ("print ".toList ++ e) (by simp)
  | imports ns s =>
    show (do return sentence [lit "@import ", .text (← elementText.names (.ofTexts ns)), lit " from \"",
      .text s, lit "\""]) = _
    rw [names_ofTexts]
    exact sentence_ok ["@import ".toList, writeNames ns, " from \"".toList, s, ['"']]
      ("@import ".toList ++ writeNames ns ++ " from \"".toList ++ s ++ ['"']) (by simp)
  | exports ns =>
    show (do return sentence [lit "@export ", .text (← elementText.names (.ofTexts ns))]) = _
    rw [names_ofTexts]
    exact sentence_ok ["@export ".toList, writeNames ns] ("@export ".toList ++ writeNames ns) (by simp)
  | load p a =>
    exact sentence_ok ["@load \"".toList, p, "\" as ".toList, a]
      ("@load \"".toList ++ p ++ "\" as ".toList ++ a) (by simp)
  | call i => exact sentence_ok ["call ".toList, i] ("call ".toList ++ i) (by simp)
  | spawn i => exact sentence_ok ["spawn ".toList, i] ("spawn ".toList ++ i) (by simp)
  | sleep v =>
    show (do return sentence [lit "sleep ", ← v.form.write]) = _
    rw [v.write_form]
    exact sentence_ok ["sleep ".toList, v.write] ("sleep ".toList ++ v.write) (by simp)
  | pattern n i s =>
    exact sentence_ok ["pattern ".toList, n, " with ".toList, i, " = \"".toList, s, ['"']]
      ("pattern ".toList ++ n ++ " with ".toList ++ i ++ " = \"".toList ++ s ++ ['"']) (by simp)
  | keyframe p s v =>
    cases s with
    | equals => exact sentence_ok [p, " = ".toList, v] (p ++ " = ".toList ++ v) (by simp)
    | colon => exact sentence_ok [p, ": ".toList, v] (p ++ ": ".toList ++ v) (by simp)
  | trigger n d as => exact elementText_trigger n d as more cs
  | arrow t c ds => exact elementText_arrow t c ds more cs

theorem Header.elementText_fields (h : Header) (more cs : List Written) :
    elementText h.kind (h.fields.map written ++ more) cs = .ok (.text h.write) := by
  cases h with
  | loop i =>
    show (do return sentence [lit "loop ", ← i.form.write, lit ":"]) = _
    rw [i.write_form]
    exact sentence_ok ["loop ".toList, i.write, [':']] ("loop ".toList ++ i.write ++ [':']) (by simp)
  | group n => exact sentence_ok ["group ".toList, n, [':']] ("group ".toList ++ n ++ [':']) (by simp)
  | on e => exact sentence_ok ["on ".toList, e, [':']] ("on ".toList ++ e ++ [':']) (by simp)
  | fn n ps =>
    show (do return sentence [lit "fn ", .text n, lit "(",
      .text (← Datum.joinTexts comma (ps.map .text)), lit "):"]) = _
    rw [joinTexts_text]
    exact sentence_ok ["fn ".toList, n, ['('], Text.join comma ps, "):".toList]
      ("fn ".toList ++ n ++ '(' :: Text.join comma ps ++ "):".toList) (by simp)
  | each v i =>
    exact sentence_ok ["for ".toList, v, " in ".toList, i, [':']]
      ("for ".toList ++ v ++ " in ".toList ++ i ++ [':']) (by simp)
  | automate t =>
    exact sentence_ok ["automate ".toList, t, [':']] ("automate ".toList ++ t ++ [':']) (by simp)
  | param n =>
    exact sentence_ok ["param ".toList, n, [' ', '{']] ("param ".toList ++ n ++ [' ', '{']) (by simp)
  | conditional c => exact sentence_ok ["if ".toList, c, [':']] ("if ".toList ++ c ++ [':']) (by simp)
  | elseIf c =>
    exact sentence_ok ["else if ".toList, c, [':']] ("else if ".toList ++ c ++ [':']) (by simp)
  | otherwise => rfl

/-- The element of a statement is written as the statement, whatever belongs to it. -/
theorem Statement.write_form (s : Statement) (more : List Datum) (o : Option Origin) (cs : List Datum) :
    (Datum.form s.kind (s.fields ++ more) o cs).write = .ok (.text s.write) := by
  rw [Draft.write_form, List.append_assoc, List.map_append]
  cases s with
  | simple s => exact s.elementText_fields _ _
  | block h => exact h.elementText_fields _ _

theorem Node.write_form (n : Node) : n.form.write = .ok (.text n.write) := by
  obtain ⟨s, o, b, es, a⟩ := n
  rw [form, write]
  by_cases hk : s.kind = .conditional
  · rw [if_pos hk]
    exact s.write_form _ o _
  · rw [if_neg hk]
    have h := s.write_form [] o (formAll b)
    rwa [List.append_nil] at h

end Devalang
