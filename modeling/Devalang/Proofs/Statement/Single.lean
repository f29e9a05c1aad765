import Devalang.Proofs.Statement.Extent

/-! The kinds of statement that take one line, tried apart from the three that may go on. -/
namespace Devalang

def Simple.isOrdinary : Simple → Bool
  | arrow _ _ _ | unknown _ => false
  | _ => true

def Simple.isTrigger : Simple → Bool
  | trigger _ _ _ => true
  | _ => false

namespace Statement
variable {indent n k : Nat} {following : List Text} {s : Text} {st : Statement}

/-- The kinds of statement that take one line whatever follows. -/
def singleReaders : List (Text → Option Statement) :=
  let line (read : Text → Option Simple) (s : Text) := (read s).map Statement.simple
  let head (read : Text → Option Header) (s : Text) := (read s).map Statement.block
  [line Simple.readComment, line Simple.readBpm, line Simple.readBank, line Simple.readUse,
   head Header.readOn, head Header.readFn, line Simple.readEmit, line Simple.readPrint,
   head Header.readIf, head Header.readLoop, line Simple.readImport, line Simple.readExport,
   line Simple.readLoad, head Header.readGroup, line Simple.readCall, line Simple.readSpawn,
   line Simple.readSleep, line Simple.readPattern, head Header.readFor, head Header.readAutomate,
   head Header.readParam, line Simple.readKeyframe]

def single? (s : Text) : Option Statement := singleReaders.findSome? (· s)

def going? (indent : Nat) (following : List Text) (s : Text) : Option (Simple × Nat) :=
  (Simple.readLet indent following s).or
    ((Simple.readTrigger indent following s).or (Simple.readArrow indent following s))

theorem findSome?_lift (l : List (Text → Option Statement)) :
    (l.map fun read s => (read s).map (·, 0)).findSome? (· s) = (l.findSome? (· s)).map (·, 0) := by
  induction l with
  | nil => rfl
  | cons read l ih =>
    simp only [List.map_cons, List.findSome?_cons, ih]
    cases read s <;> rfl

theorem readers_eq : readers indent following =
    (singleReaders.take 4).map (fun read s => (read s).map (·, 0)) ++
      [fun s => (Simple.readLet indent following s).map fun r => (.simple r.1, r.2)] ++
      ((singleReaders.drop 4).take 6).map (fun read s => (read s).map (·, 0)) ++
      [fun s => (Simple.readTrigger indent following s).map fun r => (.simple r.1, r.2)] ++
      (singleReaders.drop 10).map (fun read s => (read s).map (·, 0)) ++
      [fun s => (Simple.readArrow indent following s).map fun r => (.simple r.1, r.2)] := by
  simp [readers, singleReaders, Function.comp_def]

/-- A declaration or trigger is of no other kind but, perhaps, an arrow call. -/
theorem single?_let (s : Text) : single? ("let".toList ++ s) = none := rfl

theorem single?_trigger (s : Text) : single? ('.' :: s) = none := rfl

theorem readLet_eq_none (h : ∀ t, s ≠ "let".toList ++ t) : Simple.readLet indent following s = none := by
  have ha : Text.after "let".toList s = none := by
    cases he : Text.after "let".toList s with
    | none => rfl
    | some t => exact absurd (Text.after_eq_some_iff.1 he) (h t)
  rw [Simple.readLet, ha]
  rfl

theorem readTrigger_eq_none (h : ∀ t, s ≠ '.' :: t) : Simple.readTrigger indent following s = none := by
  have ha : Text.after ['.'] s = none := by
    cases he : Text.after ['.'] s with
    | none => rfl
    | some t => exact absurd (Text.after_eq_some_iff.1 he) (h t)
  rw [Simple.readTrigger, ha]
  rfl

theorem read?_eq : read? indent following s = ((single? s).map (·, 0)).or
    ((going? indent following s).map fun r => (.simple r.1, r.2)) := by
  have hsplit : single? s = ((singleReaders.take 4).findSome? (· s)).or
      ((((singleReaders.drop 4).take 6).findSome? (· s)).or
        ((singleReaders.drop 10).findSome? (· s))) := by
    rw [← List.findSome?_append, ← List.findSome?_append]
    rfl
  have hread : read? indent following s = (((singleReaders.take 4).findSome? (· s)).map (·, 0)).or
      (((Simple.readLet indent following s).map fun r => (.simple r.1, r.2)).or
        ((((singleReaders.drop 4).take 6).findSome? (· s)).map (·, 0) |>.or
          (((Simple.readTrigger indent following s).map fun r => (.simple r.1, r.2)).or
            (((singleReaders.drop 10).findSome? (· s)).map (·, 0) |>.or
              ((Simple.readArrow indent following s).map fun r => (.simple r.1, r.2)))))) := by
    simp only [read?, readers_eq, List.findSome?_append, findSome?_lift, List.findSome?_singleton,
      Option.or_assoc]
  by_cases hl : ∃ t, s = "let".toList ++ t
  · obtain ⟨t, rfl⟩ := hl
    have ht : Simple.readTrigger indent following ("let".toList ++ t) = none :=
      readTrigger_eq_none (by simp)
    have h1 : (singleReaders.take 4).findSome? (· ("let".toList ++ t)) = none := rfl
    have h2 : ((singleReaders.drop 4).take 6).findSome? (· ("let".toList ++ t)) = none := rfl
    have h3 : (singleReaders.drop 10).findSome? (· ("let".toList ++ t)) = none := rfl
    rw [hread, single?_let, going?, ht, h1, h2, h3]
    simp [Option.map_or]
  have hlet : Simple.readLet indent following s = none := readLet_eq_none fun t he => hl ⟨t, he⟩
  by_cases hd : ∃ t, s = '.' :: t
  · obtain ⟨t, rfl⟩ := hd
    have h1 : (singleReaders.take 4).findSome? (· ('.' :: t)) = none := rfl
    have h2 : ((singleReaders.drop 4).take 6).findSome? (· ('.' :: t)) = none := rfl
    have h3 : (singleReaders.drop 10).findSome? (· ('.' :: t)) = none := rfl
    rw [hread, single?_trigger, going?, hlet, h1, h2, h3]
    simp [Option.map_or]
  have htrigger : Simple.readTrigger indent following s = none :=
    readTrigger_eq_none fun t he => hd ⟨t, he⟩
  rw [hread, hsplit, going?, hlet, htrigger]
  simp only [Option.map_none, Option.none_or, Option.map_or, Option.or_assoc]

/-- The reader that a statement of one line comes from, and the form of what it reads. -/
inductive OfLine (s : Text) : Statement → Prop where
  | comment (read : Simple.readComment s = some (.comment s)) : OfLine s (.simple (.comment s))
  | bpm (t : Text) (read : Simple.readBpm s = some (.bpm t)) : OfLine s (.simple (.bpm t))
  | bank (t : Text) (known : Option Text) (read : Simple.readBank s = some (.bank t known)) :
    OfLine s (.simple (.bank t known))
  | plugin (t : Text) (known : Option Text) (read : Simple.readUse s = some (.plugin t known)) :
    OfLine s (.simple (.plugin t known))
  | emit (t : Text) (payload : Option Text) (read : Simple.readEmit s = some (.emit t payload)) :
    OfLine s (.simple (.emit t payload))
  | print (t : Text) (read : Simple.readPrint s = some (.print t)) : OfLine s (.simple (.print t))
  | imports (names : List Text) (t : Text) (read : Simple.readImport s = some (.imports names t)) :
    OfLine s (.simple (.imports names t))
  | exports (names : List Text) (read : Simple.readExport s = some (.exports names)) :
    OfLine s (.simple (.exports names))
  | load (path known : Text) (read : Simple.readLoad s = some (.load path known)) :
    OfLine s (.simple (.load path known))
  | call (t : Text) (read : Simple.readCall s = some (.call t)) : OfLine s (.simple (.call t))
  | spawn (t : Text) (read : Simple.readSpawn s = some (.spawn t)) : OfLine s (.simple (.spawn t))
  | sleep (t : Text) (read : Simple.readSleep s = some (.sleep (Value.read t))) :
    OfLine s (.simple (.sleep (Value.read t)))
  | pattern (t instrument steps : Text)
    (read : Simple.readPattern s = some (.pattern t instrument steps)) :
    OfLine s (.simple (.pattern t instrument steps))
  | keyframe (t : Text) (separator : Separator) (v : Text)
    (read : Simple.readKeyframe s = some (.keyframe t separator v)) :
    OfLine s (.simple (.keyframe t separator v))
  | on (t : Text) (read : Header.readOn s = some (.on t)) : OfLine s (.block (.on t))
  | fn (t : Text) (parameters : List Text) (read : Header.readFn s = some (.fn t parameters)) :
    OfLine s (.block (.fn t parameters))
  | conditional (t : Text) (read : Header.readIf s = some (.conditional t)) :
    OfLine s (.block (.conditional t))
  | loop (t : Text) (read : Header.readLoop s = some (.loop (Value.read t))) :
    OfLine s (.block (.loop (Value.read t)))
  | group (t : Text) (read : Header.readGroup s = some (.group t)) : OfLine s (.block (.group t))
  | each (item t : Text) (read : Header.readFor s = some (.each item t)) :
    OfLine s (.block (.each item t))
  | automate (t : Text) (read : Header.readAutomate s = some (.automate t)) :
    OfLine s (.block (.automate t))
  | param (t : Text) (read : Header.readParam s = some (.param t)) : OfLine s (.block (.param t))

theorem ofLine_of_single (h : single? s = some st) : OfLine s st := by
  obtain ⟨read, hm, hr⟩ := List.exists_of_findSome?_eq_some h
  simp only [singleReaders, List.mem_cons, List.not_mem_nil, or_false] at hm
  rcases hm with rfl | rfl | rfl | rfl | rfl | rfl | rfl | rfl | rfl | rfl | rfl | rfl | rfl | rfl |
    rfl | rfl | rfl | rfl | rfl | rfl | rfl | rfl
  all_goals
    obtain ⟨x, hx, rfl⟩ := Option.map_eq_some_iff.1 hr
    have hform := hx
    clear h hr
    simp only [Simple.readComment, Simple.readBpm, Simple.readBank, Simple.readUse, Simple.readEmit,
      Simple.readPrint, Simple.readImport, Simple.readExport, Simple.readLoad, Simple.readCall,
      Simple.readSpawn, Simple.readSleep, Simple.readPattern, Simple.readKeyframe,
      Header.readOn, Header.readFn, Header.readIf, Header.readLoop, Header.readGroup, Header.readFor,
      Header.readAutomate, Header.readParam,
      Option.bind_eq_bind, Option.bind_eq_some_iff, Option.map_eq_some_iff,
      List.findSome?_eq_some_iff] at hform
    grind [OfLine]

theorem kind_of_single {r : Simple} (h : single? s = some (.simple r)) :
    r.isOrdinary = true ∧ r.isTrigger = false := by
  cases ofLine_of_single h <;> exact ⟨rfl, rfl⟩

theorem isOrdinary_of_single {r : Simple} (h : single? s = some (.simple r)) : r.isOrdinary = true :=
  (kind_of_single h).1

end Statement

end Devalang
