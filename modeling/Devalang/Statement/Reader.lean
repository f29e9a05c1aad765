import Devalang.Statement
import Devalang.Value.Reader
import Devalang.Text.Cut

/-! Reading statements. The kinds of statement are tried in a fixed order; some of them go on over
the lines that follow. -/
namespace Devalang

open Text

/-! Kinds of statement that take one line. -/

namespace Simple

def readComment (s : Text) : Option Simple := if startsWith ['#'] s then some (.comment s) else none

def readWord (keyword : String) (s : Text) : Option Text := do
  onlyWord? (← afterBlanks? (← after keyword.toList s))

def readBpm (s : Text) : Option Simple := (readWord "bpm" s).map .bpm

def readAliased (keyword : String) (s : Text) : Option (Text × Option Text) := do
  let (name, rest) ← word? (← afterBlanks? (← after keyword.toList s))
  if rest.isEmpty then return (name, none)
  let known ← readWord "as" (← afterBlanks? rest)
  return (name, some known)

def readBank (s : Text) : Option Simple := (readAliased "bank" s).map fun (i, a) => .bank i a

def readUse (s : Text) : Option Simple := (readAliased "@use" s).map fun (n, a) => .plugin n a

def readEmit (s : Text) : Option Simple := do
  let (name, rest) ← word? (← afterBlanks? (← after "emit".toList s))
  if rest.isEmpty then return .emit name none
  let payload := trimStart rest
  if payload.all inLine then return .emit name (some payload) else none

def readPrint (s : Text) : Option Simple := do
  return .print (← restOfLine? (← after "print".toList s))

def readNames (s : Text) : Option (List Text × Text) := do
  let t ← after ['{'] (trimStart s)
  let rest ← after ['}'] (t.dropWhile (· != '}'))
  return (items (t.takeWhile (· != '}')), rest)

def readQuoted (s : Text) : Option (Text × Text) := do
  let t ← after ['"'] s
  let rest ← after ['"'] (t.dropWhile (· != '"'))
  return (t.takeWhile (· != '"'), rest)

def readImport (s : Text) : Option Simple := do
  let (names, rest) ← readNames (← after "@import".toList s)
  let (source, rest) ← readQuoted (trimStart (← after "from".toList (trimStart rest)))
  if rest.isEmpty then return .imports names source else none

def readExport (s : Text) : Option Simple := do
  let (names, rest) ← readNames (← after "@export".toList s)
  if rest.isEmpty then return .exports names else none

def readLoad (s : Text) : Option Simple := do
  let (path, rest) ← readQuoted (← afterBlanks? (← after "@load".toList s))
  return .load path (← readWord "as" (← afterBlanks? rest))

def readCall (s : Text) : Option Simple := (readWord "call" s).map .call

def readSpawn (s : Text) : Option Simple := (readWord "spawn" s).map .spawn

def readSleep (s : Text) : Option Simple := do
  return .sleep (Value.read (← restOfLine? (← after "sleep".toList s)))

/-- The instrument of a pattern is the longest word before an equals sign that lets the steps
stand between quotes. -/
def readPattern (s : Text) : Option Simple := do
  let (name, rest) ← word? (← afterBlanks? (← after "pattern".toList s))
  let rest ← afterBlanks? (← after "with".toList (← afterBlanks? rest))
  (someCuts notBlank rest).findSome? fun (instrument, rest) => do
    let steps ← between? '"' '"' (trimStart (← after ['='] (trimStart rest)))
    if steps.all inLine then return .pattern name instrument steps else none

def readSeparator (s : Text) : Option (Separator × Text) :=
  match s with
  | '=' :: t => some (.equals, t)
  | ':' :: t => some (.colon, t)
  | _ => none

def readKeyframe (s : Text) : Option Simple := do
  let (number, rest) ← numberStart? s
  let (separator, rest) ← readSeparator (trimStart (← after ['%'] rest))
  (cuts isBlank rest).findSome? fun (_, value) =>
    if !value.isEmpty && value.all inLine then
      some (.keyframe (number ++ ['%']) separator value)
    else none

end Simple

/-! Headers of blocks. -/

namespace Header

def readColon (keyword : String) (s : Text) : Option Text := do
  untilColon? (← after keyword.toList s)

def readOn (s : Text) : Option Header := (readColon "on" s).map .on

def readIf (s : Text) : Option Header := (readColon "if" s).map .conditional

def readAutomate (s : Text) : Option Header := (readColon "automate" s).map .automate

def readFn (s : Text) : Option Header := do
  let t ← afterBlanks? (← after "fn".toList s)
  let (name, rest) ← run? (fun c => notBlank c && c != '(') t
  let rest ← after ['('] (trimStart rest)
  (cuts inLine rest).findSome? fun (parameters, rest) => do
    let rest ← after [')'] rest
    if trimStart rest = [':'] then return .fn name (items parameters) else none

def readLoop (s : Text) : Option Header := do
  let t ← afterBlanks? (← after "loop".toList s)
  let (iterator, rest) ← (numberStart? t).orElse fun _ => nameStart? t
  if trimStart rest = [':'] then return .loop (Value.read iterator) else none

def readGroup (s : Text) : Option Header := do
  let t ← afterBlanks? (← after "group".toList s)
  let (name, rest) ← run? (fun c => notBlank c && c != ':') t
  if trimStart rest = [':'] then return .group name else none

def readFor (s : Text) : Option Header := do
  let (item, rest) ← word? (← afterBlanks? (← after "for".toList s))
  return .each item (← readColon "in" (← afterBlanks? rest))

def readParam (s : Text) : Option Header := do
  let t ← afterBlanks? (← after "param".toList s)
  (someCuts notBlank t).findSome? fun (name, rest) =>
    if trimStart rest = ['{'] then some (.param name) else none

def readElseIf (s : Text) : Option Header := do
  return .elseIf (← readColon "if" (← afterBlanks? (← after "else".toList s)))

def readElse (s : Text) : Option Header := do
  if trimStart (← after "else".toList s) = [':'] then return .otherwise else none

def readBranch (s : Text) : Option Header := (readElseIf s).orElse fun _ => readElse s

end Header

/-! Kinds of statement that may go on over the lines that follow. They are read together with the
number of those lines that they take. -/

/-- Lengthens a text by the lines that follow as long as `d` is open in it. -/
def continueWhile (d : Delimiter) (indent : Nat) : (s : Text) → (following : List Text) → Text × Nat
  | s, [] => (s, 0)
  | s, line :: following =>
    if s.openDelimiters.contains d then
      let (t, n) := continueWhile d indent (s ++ '\n' :: dedent indent line) following
      (t, n + 1)
    else (s, 0)

/-- Lengthens an arrow call by the lines that follow as long as a parenthesis is open in it or the
next line starts with an arrow. -/
def continueChain (indent : Nat) : (s : Text) → (following : List Text) → Text × Nat
  | s, [] => (s, 0)
  | s, line :: following =>
    if s.openDelimiters.contains .paren || startsWith ['-', '>'] (trimStart line) then
      let (t, n) := continueChain indent (s ++ '\n' :: dedent indent line) following
      (t, n + 1)
    else (s, 0)

def Value.duration? : Value → Option Duration
  | .number t => some (.milliseconds (.written t))
  | .identifier t => Duration.ofText? t
  | .string t => Duration.ofText? t
  | _ => none

/-- The duration that a property gives, if it does: its key is `duration` and its value describes
one. -/
def Property.duration? : Property → Option Duration
  | .pair k v => if k = "duration".toList then v.duration? else none
  | .bare _ => none

namespace Argument

def ofProperties : (found : Option Duration) → List Property → Option Duration × List Argument
  | found, [] => (found, [])
  | found, p :: ps =>
    match found, p.duration? with
    | none, some d => ofProperties (some d) ps
    | found, _ => ((ofProperties found ps).1, .property p :: (ofProperties found ps).2)

/-- Reads arguments one by one. The first one that gives a duration is taken out, unless it has been
`found` before; an object that is not empty stands for its properties. -/
def ofTexts : (found : Option Duration) → List Text → Option Duration × List Argument
  | found, [] => (found, [])
  | found, t :: ts =>
    match found, Duration.ofText? t with
    | none, some d => ofTexts (some d) ts
    | found, _ =>
      match Value.read t with
      | .object (p :: ps) =>
        let (found, as) := ofProperties found (p :: ps)
        ((ofTexts found ts).1, as ++ (ofTexts found ts).2)
      | v => ((ofTexts found ts).1, .value v :: (ofTexts found ts).2)

def readAll (s : Text) : Option Duration × List Argument := ofTexts none (arguments s)

end Argument

namespace Simple

def readLet (indent : Nat) (following : List Text) (s : Text) : Option (Simple × Nat) := do
  let t ← afterBlanks? (← after "let".toList s)
  let (name, rest) ← run? (fun c => notBlank c && c != '=') t
  let start := trimStart (← after ['='] (trimStart rest))
  if start.all inLine then
    let (value, n) := continueWhile .brace indent start following
    return (.declare name (if value.contains '\n' then .raw value else Value.read value), n)
  else none

def readTrigger (indent : Nat) (following : List Text) (s : Text) : Option (Simple × Nat) := do
  let (name, rest) ← run? (fun c => notBlank c && c != '{' && c != '(' && c != ',') (← after ['.'] s)
  let start := trimStart rest
  if start.all inLine then
    let (args, n) := continueWhile .brace indent start following
    let (duration, arguments) := Argument.readAll args
    return (.trigger ('.' :: name) duration arguments, n)
  else none

end Simple

def Call.read (s : Text) : Option Call := do
  let (method, rest) ← run? (fun c => isWord c || c == '.') s
  return ⟨method, items (← between? '(' ')' (trimStart rest))⟩

def Text.hasArrow : Text → Bool
  | '-' :: '>' :: _ => true
  | _ :: s => hasArrow s
  | [] => false

def Simple.readArrow (indent : Nat) (following : List Text) (s : Text) : Option (Simple × Nat) :=
  if !hasArrow s then none
  else
    let (t, n) := continueChain indent s following
    match links t with
    | target :: first :: more => do
      if target.isEmpty then none
      let first ← Call.read first
      let more ← more.mapM Call.read
      return (.arrow target first more, n)
    | _ => none

/-- The kinds of statement, in the order in which they are tried. -/
def Statement.readers (indent : Nat) (following : List Text) :
    List (Text → Option (Statement × Nat)) :=
  let line (read : Text → Option Simple) (s : Text) := (read s).map fun r => (Statement.simple r, 0)
  let lines (read : Nat → List Text → Text → Option (Simple × Nat)) (s : Text) :=
    (read indent following s).map fun (r, n) => (Statement.simple r, n)
  let head (read : Text → Option Header) (s : Text) := (read s).map fun h => (Statement.block h, 0)
  [line Simple.readComment, line Simple.readBpm, line Simple.readBank, line Simple.readUse,
   lines Simple.readLet, head Header.readOn, head Header.readFn, line Simple.readEmit,
   line Simple.readPrint, head Header.readIf, head Header.readLoop, lines Simple.readTrigger,
   line Simple.readImport, line Simple.readExport, line Simple.readLoad, head Header.readGroup,
   line Simple.readCall, line Simple.readSpawn, line Simple.readSleep, line Simple.readPattern,
   head Header.readFor, head Header.readAutomate, head Header.readParam, line Simple.readKeyframe,
   lines Simple.readArrow]

/-- Reads the statement `s`, none if it is of no known kind. `indent` is the width of the blanks in
front of it, and `following` are the lines after it. -/
def Statement.read? (indent : Nat) (following : List Text) (s : Text) : Option (Statement × Nat) :=
  (readers indent following).findSome? (· s)

/-- The words that start a header which closes flat blocks of its own indent. -/
def headerWords : List Text :=
  ["if", "else", "group", "loop", "on", "fn", "for", "automate", "pattern"].map String.toList

def isHeaderLine (s : Text) : Bool :=
  headerWords.any fun w => match after w s with
    | some (c :: _) => !isWord c
    | some [] => true
    | none => false

end Devalang
