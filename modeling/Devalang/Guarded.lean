import Devalang.Draft.OfDocument
import Devalang.Draft.Print
import Devalang.Outline.Reading

/-! Reading and formatting with all checks in place. The element of a statement, of a value or of a
duration is made, and so checked, where it is read, and a list is taken apart only if it is long
enough. The first check that does not hold is reported. -/
namespace Devalang.Guarded

open Draft Text

/-- Makes the element of a statement, to which nothing belongs yet. -/
def make (s : Statement) : Except Fault Statement := do
  let _ ← (Node.node s none [] [] none).draft
  return s

def make? : Option (Statement × Nat) → Except Fault (Option (Statement × Nat))
  | none => .ok none
  | some (s, n) => return some (← make s, n)

def makeDuration? : Option Duration → Except Fault (Option Duration)
  | none => .ok none
  | some d => do
    let _ ← d.draft
    return some d

def uncons {α : Type} (f : Fault) : List α → Except Fault (α × List α)
  | [] => .error f
  | x :: xs => .ok (x, xs)

/-! The arguments of a trigger. -/

def propertyDuration? : Property → Except Fault (Option Duration)
  | .pair k v => do
    if k = "duration".toList then
      let value ← v.draft
      makeDuration? (← value.described)
    else return none
  | .bare _ => .ok none

/-- What gives a duration is asked for it unless one has been `found` before. -/
def unlessFound (found : Option Duration) (given : Except Fault (Option Duration)) :
    Except Fault (Option Duration) :=
  if found.isNone then given else .ok none

def ofProperties : (found : Option Duration) → List Property →
    Except Fault (Option Duration × List Argument)
  | found, [] => .ok (found, [])
  | found, p :: ps => do
    match ← unlessFound found (propertyDuration? p) with
    | some d => ofProperties (some d) ps
    | none =>
      let (found, as) ← ofProperties found ps
      return (found, .property p :: as)

def ofTexts : (found : Option Duration) → List Text →
    Except Fault (Option Duration × List Argument)
  | found, [] => .ok (found, [])
  | found, t :: ts => do
    match ← unlessFound found (makeDuration? (Duration.ofText? t)) with
    | some d => ofTexts (some d) ts
    | none =>
      let _ ← (Value.read t).draft
      match Value.read t with
      | .object (p :: ps) =>
        let (found, as) ← ofProperties found (p :: ps)
        let (found, bs) ← ofTexts found ts
        return (found, as ++ bs)
      | v =>
        let (found, bs) ← ofTexts found ts
        return (found, .value v :: bs)

/-! Statements. -/

def readTrigger (indent : Nat) (following : List Text) (s : Text) :
    Except Fault (Option (Statement × Nat)) := do
  let some s := after ['.'] s | return none
  let some (name, rest) := run? (fun c => notBlank c && c != '{' && c != '(' && c != ',') s
    | return none
  let start := trimStart rest
  if start.all inLine then
    let (args, n) := continueWhile .brace indent start following
    let (duration, arguments) ← ofTexts none (Text.arguments args)
    make? (some (.simple (.trigger ('.' :: name) duration arguments), n))
  else return none

/-- The target is taken off the links of a chain, and the first call off the calls. -/
def readArrow (indent : Nat) (following : List Text) (s : Text) :
    Except Fault (Option (Statement × Nat)) := do
  if !hasArrow s then return none
  let (t, n) := continueChain indent s following
  let (target, calls) ← uncons .wrongCount (links t)
  if target.isEmpty || calls.isEmpty then return none
  let some calls := calls.mapM Call.read | return none
  let (first, more) ← uncons .noSuchLine calls
  make? (some (.simple (.arrow target first more), n))

def readers (indent : Nat) (following : List Text) :
    List (Text → Except Fault (Option (Statement × Nat))) :=
  let line (read : Text → Option Simple) (s : Text) :=
    make? ((read s).map fun r => (Statement.simple r, 0))
  let head (read : Text → Option Header) (s : Text) :=
    make? ((read s).map fun h => (Statement.block h, 0))
  let declaration (s : Text) :=
    make? ((Simple.readLet indent following s).map fun (r, n) => (Statement.simple r, n))
  [line Simple.readComment, line Simple.readBpm, line Simple.readBank, line Simple.readUse,
   declaration, head Header.readOn, head Header.readFn, line Simple.readEmit,
   line Simple.readPrint, head Header.readIf, head Header.readLoop, readTrigger indent following,
   line Simple.readImport, line Simple.readExport, line Simple.readLoad, head Header.readGroup,
   line Simple.readCall, line Simple.readSpawn, line Simple.readSleep, line Simple.readPattern,
   head Header.readFor, head Header.readAutomate, head Header.readParam, line Simple.readKeyframe,
   readArrow indent following]

def read? (indent : Nat) (following : List Text) (s : Text) :
    Except Fault (Option (Statement × Nat)) :=
  (readers indent following).findSomeM? (· s)

/-! Documents. -/

def addStatement (r : Reading) (index : Nat) (leading content : Text) (following : List Text) :
    Except Fault (Reading × Nat) := do
  let indent := leading.length
  let r := { r with stack := r.stack.dropWhile (!·.contains indent) }
  match ← read? indent following content with
  | none =>
    let s ← make (.simple (.unknown content))
    return ((r.remark (.unknownStatement index content)).add indent s ⟨index, index, leading⟩, 0)
  | some (s, n) =>
    let node := r.outline.size
    let r := r.add indent s ⟨index, index + n, leading⟩
    match s with
    | .simple _ => return (r, n)
    | .block h =>
      let k := if s.isConditional then some node else none
      return ({ r with stack := ⟨h.label, indent, node, none, k⟩ :: r.stack }, n)

def readLine (r : Reading) (index : Nat) (line : Text) (following : List Text) :
    Except Fault (Reading × Nat) := do
  let leading := Text.leading (Text.trimReturns line)
  let content := Text.trim line
  let indent := leading.length
  let origin : Origin := ⟨index, index, leading⟩
  if content.isEmpty then
    let _ ← make (.simple .blank)
    return (r.addBlank origin, 0)
  else if Text.startsWith "else".toList content then
    let _ ← make? ((Header.readBranch content).map fun h => (.block h, 0))
    match r.addBranch index indent (some origin) content with
    | (r, some _) => return (r, 0)
    | (r, none) => addStatement r index leading content following
  else if content = ['}'] then
    if (findParam r.outline r.stack).isNone then
      let _ ← make (.simple (.unknown content))
    return (r.addBrace indent origin content, 0)
  else if isHeaderLine content then
    addStatement { r with stack := r.stack.dropWhile fun c => c.isFlat && c.indent == indent }
      index leading content following
  else addStatement r index leading content following

def readLines : (r : Reading) → (skip index : Nat) → List Text → Except Fault Reading
  | r, _, _, [] => .ok r
  | r, skip + 1, index, _ :: lines => readLines r skip (index + 1) lines
  | r, 0, index, line :: lines => do
    let (r, skip) ← readLine r index line lines
    readLines r skip (index + 1) lines

def read (s : Text) : Except Fault Document := do
  let r ← readLines .start 0 0 s.lines
  return ⟨s.lines, r.outline.nodes⟩

/-- Reads a source text, puts the elements of its tree together and prints them in place. -/
def format (settings : Settings) (s : Text) : Except Fault Datum := do
  let d ← read s
  let program ← d.draft
  program.print (.ofSettings settings)

end Devalang.Guarded
