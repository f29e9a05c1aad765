import Devalang.Draft.Bench

/-! Attributes of nodes on the bench: those that are stored, and those that follow from them. -/
namespace Devalang.Draft

namespace Record

def slot? (r : Record) (name : String) : Option Handle :=
  if r.kind.slots.contains name then r.slots[r.kind.slots.idxOf name]? else none

def setSlot (r : Record) (name : String) (h : Handle) : Record :=
  { r with slots := r.slots.set (r.kind.slots.idxOf name) h }

end Record

namespace Work

def headNumber : Handle → Work Handle
  | .plain (.text t) => return .plain (.ofNumber (← ofExcept t.readNumber))
  | h => return h

/-- An attribute of an element that is not stored. -/
def derived (on : Handle) (r : Record) (name : String) : Work Handle := do
  let head := r.slots.headD .none
  match r.kind, name with
  | _, "type" => return match r.kind.tag? with
    | some t => .plain (.text t)
    | none => .none
  | _, "body" => return on
  | _, "is_block" => return .plain (.bool r.kind.isBlock)
  | .headElement, "head" => return .none
  | .blankLine, "head" => return .plain (.text [])
  | .numberLiteral, "value" => headNumber head
  | .objectProperty, "value" => return .ofPlace r.children.head?
  | .comment, "value" | .unknown, "value" | .objectProperty, "key" | .identifier, "name"
  | .call, "identifier" | .spawn, "identifier" => return head
  | .objectLiteral, "properties" => layList (r.children.map .place)
  | _, _ => throw .noSuchAttribute

def fetch (on : Handle) (name : String) : Work Handle := do
  match on, name with
  | .plain (.duration d), "value" => return .plain (.ofDuration d)
  | .plain (.duration d), "type" => return .plain (.text d.label)
  | .call method _, "method" => return method
  | .call _ arguments, "args" => return arguments
  | on, name =>
    let (_, r) ← record on
    if name = "parent" then return .ofPlace r.parent
    else match r.slot? name with
      | some h => return h
      | none => if r.kind.isElement then derived on r name else throw .noSuchAttribute

/-- Sets a stored attribute or the parent, without a check on the value of the former. -/
def assign (on : Handle) (name : String) (value : Handle) : Work Unit := do
  let (i, r) ← record on
  if name = "parent" then assignParent on value
  else if r.kind.slots.contains name then modifyRecord i (·.setSlot name value)
  else throw .noSuchAttribute

/-- Records where an element was read. The last line is the first one unless it is given. -/
def setOrigin (on line leading last : Handle) : Work Unit := do
  assign on "line" line
  assign on "leading" leading
  assign on "indent" (.plain (.int (← count leading)))
  assign on "end_line" (match last with
    | .plain .none => line
    | h => h)

def isMultiline (on : Handle) : Work Bool := do
  match ← view (← fetch on "line") with
  | .none => return false
  | line => return !(← view (← fetch on "end_line")).same line

def isLast (on : Handle) : Work Bool := do
  let (i, _) ← record on
  ofExcept ((← get).isLast i)

def lookup (on key fallback : Handle) : Work Handle := do
  let (_, r) ← record on
  if r.kind = .objectLiteral then find (← glance key) r.children
  else throw .noSuchAttribute
where
  find (key : Datum) : List Nat → Work Handle
    | [] => return fallback
    | p :: ps => do
      if (← glance (← fetch (.place p) "key")).same key then fetch (.place p) "value"
      else find key ps

end Work

end Devalang.Draft
