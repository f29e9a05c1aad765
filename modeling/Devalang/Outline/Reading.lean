import Devalang.Outline
import Devalang.About
import Devalang.Statement.Reader

/-! Reading a document line by line. The open blocks are kept on a stack; the indent of a line tells
which of them it belongs to. -/
namespace Devalang

structure Context where
  label : Text
  /-- The indent of the header. -/
  indent : Nat
  /-- The index of the block, which receives the statements of the body. -/
  node : Nat
  /-- The indent of the first line of the body, once it has been read. -/
  bodyIndent : Option Nat
  /-- The index of the `if` to which the next branch would be added. -/
  conditional : Option Nat
deriving DecidableEq, Repr

namespace Context

/-- The body is not indented further than the header. -/
def isFlat (c : Context) : Bool := c.bodyIndent == some c.indent

def contains (c : Context) (indent : Nat) : Bool :=
  match c.bodyIndent with
  | none => c.indent ≤ indent
  | some b => b ≤ indent

def caption (c : Context) : Text :=
  "<BlockContext ".toList ++ c.label ++ " indent=".toList ++ Text.ofNat c.indent ++
    " body_indent=".toList ++ (match c.bodyIndent with
      | none => "None".toList
      | some b => Text.ofNat b) ++ ['>']

end Context

/-- Finds the block that a line of the given indent is added to, from the innermost one outwards:
one whose body has no indent yet, which then gets it, or one whose body is not indented further.
None stands for the document itself. -/
def settle (indent : Nat) : List Context → Option Nat × List Context
  | [] => (none, [])
  | c :: cs =>
    match c.bodyIndent with
    | none => (some c.node, { c with bodyIndent := some indent } :: cs)
    | some b =>
      if b ≤ indent then (some c.node, c :: cs)
      else ((settle indent cs).1, c :: (settle indent cs).2)

/-- The `if` of the innermost open block of the given indent that has one, and the blocks outside
of that block. -/
def findConditional (indent : Nat) : List Context → Option (Nat × List Context)
  | [] => none
  | c :: cs =>
    match c.conditional with
    | some k => if c.indent = indent then some (k, cs) else findConditional indent cs
    | none => findConditional indent cs

def findParam (o : Outline) : List Context → Option (Nat × List Context)
  | [] => none
  | c :: cs =>
    if o[c.node]?.any (·.statement.isParam) then some (c.node, cs) else findParam o cs

/-- What has been read so far: the open blocks, innermost first, the outline and the remarks. -/
structure Reading where
  stack : List Context
  outline : Outline
  remarks : Array Remark

namespace Reading

def start : Reading := ⟨[], #[], #[]⟩

def remark (r : Reading) (m : Remark) : Reading := { r with remarks := r.remarks.push m }

def add (r : Reading) (indent : Nat) (s : Statement) (origin : Origin) : Reading :=
  let (owner, stack) := settle indent r.stack
  { r with stack := stack, outline := r.outline.push ⟨s, some origin, owner, .body⟩ }

/-- A blank line closes a flat block and belongs to the innermost one that is left. -/
def addBlank (r : Reading) (origin : Origin) : Reading :=
  let stack := match r.stack with
    | [] => []
    | c :: cs => if c.isFlat then cs else c :: cs
  { r with
    stack := stack
    outline := r.outline.push ⟨.simple .blank, some origin, stack.head?.map (·.node), .body⟩ }

/-- Adds a branch to the `if` of the innermost open block of its indent and opens it instead of that
block. The index of the branch is none if the line is no branch or there is no such `if`; then
nothing changes but the remarks. -/
def addBranch (r : Reading) (index indent : Nat) (origin : Option Origin) (content : Text) :
    Reading × Option Nat :=
  match Header.readBranch content with
  | none => (r, none)
  | some h =>
    match findConditional indent r.stack with
    | none => (r.remark (.branchWithoutIf index content), none)
    | some (k, outer) =>
      let branch := r.outline.size
      if h = .otherwise then
        if r.outline.hasAlternate k then (r.remark (.secondElse index), none)
        else
          ({ r with
              stack := ⟨h.label, indent, branch, none, none⟩ :: outer
              outline := r.outline.push ⟨.block h, origin, some k, .alternate⟩ }, some branch)
      else
        ({ r with
            stack := ⟨h.label, indent, branch, none, some k⟩ :: outer
            outline := r.outline.push ⟨.block h, origin, some k, .elseIf⟩ }, some branch)

/-- A closing brace closes the innermost open `param` block; without one it is an unknown line. -/
def addBrace (r : Reading) (indent : Nat) (origin : Origin) (content : Text) : Reading :=
  match findParam r.outline r.stack with
  | some (k, outer) => { r with stack := outer, outline := r.outline.close k origin.last }
  | none => (r.remark (.noParam origin.line)).add indent (.simple (.unknown content)) origin

/-- Adds the statement that `content` is, together with the number of following lines that it takes.
The blocks that do not contain it are closed, and a block that it starts is opened. -/
def addStatement (r : Reading) (index : Nat) (leading content : Text) (following : List Text) :
    Reading × Nat :=
  let indent := leading.length
  let r := { r with stack := r.stack.dropWhile (!·.contains indent) }
  match Statement.read? indent following content with
  | none =>
    ((r.remark (.unknownStatement index content)).add indent (.simple (.unknown content))
      ⟨index, index, leading⟩, 0)
  | some (s, n) =>
    let node := r.outline.size
    let r := r.add indent s ⟨index, index + n, leading⟩
    match s with
    | .simple _ => (r, n)
    | .block h =>
      let k := if s.isConditional then some node else none
      ({ r with stack := ⟨h.label, indent, node, none, k⟩ :: r.stack }, n)

/-- Reads the line of the given index, together with the number of following lines that its statement
takes. The header of a block closes flat blocks of its indent, unless it continues an `if`. -/
def readLine (r : Reading) (index : Nat) (line : Text) (following : List Text) : Reading × Nat :=
  let leading := Text.leading (Text.trimReturns line)
  let content := Text.trim line
  let indent := leading.length
  let origin : Origin := ⟨index, index, leading⟩
  if content.isEmpty then (r.addBlank origin, 0)
  else if Text.startsWith "else".toList content then
    match r.addBranch index indent (some origin) content with
    | (r, some _) => (r, 0)
    | (r, none) => r.addStatement index leading content following
  else if content = ['}'] then (r.addBrace indent origin content, 0)
  else if isHeaderLine content then
    { r with stack := r.stack.dropWhile fun c => c.isFlat && c.indent == indent }.addStatement
      index leading content following
  else r.addStatement index leading content following

/-- Reads lines, the first of which has the given index, after `skip` lines that the statement before
them has taken. -/
def readLines : (r : Reading) → (skip index : Nat) → List Text → Reading
  | r, _, _, [] => r
  | r, skip + 1, index, _ :: lines => readLines r skip (index + 1) lines
  | r, 0, index, line :: lines =>
    readLines (r.readLine index line lines).1 (r.readLine index line lines).2 (index + 1) lines

/-- One statement that was read: its first and its last line, its indent, and what had been read
after it. -/
structure Step where
  line : Nat
  last : Nat
  indent : Nat
  reading : Reading

def steps : (r : Reading) → (skip index : Nat) → List Text → List Step
  | _, _, _, [] => []
  | r, skip + 1, index, _ :: lines => steps r skip (index + 1) lines
  | r, 0, index, line :: lines =>
    let next := r.readLine index line lines
    ⟨index, index + next.2, (Text.leading (Text.trimReturns line)).length, next.1⟩ ::
      steps next.1 next.2 (index + 1) lines

theorem readLines_eq_getLast (r : Reading) (skip index : Nat) (lines : List Text) :
    r.readLines skip index lines = ((r.steps skip index lines).getLast?.map (·.reading)).getD r := by
  fun_induction readLines r skip index lines with
  | case1 => simp [steps]
  | case2 r skip index line lines ih => simpa [steps] using ih
  | case3 r index line lines ih =>
    rw [ih, steps]
    simp only [List.getLast?_cons]
    cases (steps _ _ _ lines).getLast? <;> simp

def ofText (s : Text) : Reading := start.readLines 0 0 s.lines

end Reading

/-- Reads a document. This never fails: a line that is no statement is kept as an unknown one. -/
def Document.read (s : Text) : Document := ⟨s.lines, (Reading.ofText s).outline.nodes⟩

end Devalang
