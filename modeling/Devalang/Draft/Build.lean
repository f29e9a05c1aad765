import Devalang.Draft.Bench
import Devalang.Draft.Check

/-! Building elements by hand. -/
namespace Devalang.Draft

/-- What an element is built from: first the parts that have to be given, then those that may be left
out, with their values in that case, and last its children, for elements that take them. -/
structure Form where
  required : Nat
  optional : List Handle
  takesChildren : Bool

def Form.arrange (f : Form) (given : List Handle) : Except Fault (List Handle × List Handle) :=
  let most := f.required + f.optional.length
  if given.length < f.required ∨ (most < given.length ∧ !f.takesChildren) then .error .unsuitable
  else .ok (given.take most ++ f.optional.drop (given.length - f.required), given.drop most)

namespace Kind

def form : Kind → Form
  | bpm | print | exportStatement | sleep => ⟨1, [], false⟩
  | bank | usePlugin | emit => ⟨1, [.none], false⟩
  | letDeclaration | importStatement | loadSample => ⟨2, [], false⟩
  | pattern => ⟨3, [], false⟩
  | keyframe => ⟨2, [.plain (.text ['='])], false⟩
  | trigger => ⟨1, [.none, .plain (.list [])], false⟩
  | arrowCall => ⟨2, [.plain (.list []), .none], false⟩
  | loop | group | on | automate | param | conditional | elseIf => ⟨1, [], true⟩
  | fn => ⟨1, [.plain (.list [])], true⟩
  | each => ⟨2, [], true⟩
  | k => ⟨if k.hasHead then 1 else 0, [], true⟩

/-- The fields that hold the parts of what is given in a list of their own. -/
def ownsList : Kind → String → Bool
  | importStatement, "identifiers" | exportStatement, "identifiers" | trigger, "args"
  | arrowCall, "args" | fn, "params" => true
  | _, _ => false

end Kind

namespace Work

def chainCall (h : Handle) : Work Handle := do
  match ← parts h with
  | [method, arguments] => return .call method arguments
  | _ => throw .unsuitable

def field (k : Kind) (name : String) (h : Handle) : Work Handle := do
  if k.ownsList name then layList (← parts h)
  else match k, name, h with
    | _, _, .plain .none => return h
    | .arrowCall, "chain", h => layList (← (← parts h).mapM chainCall)
    | _, _, h => return h

/-- The attributes that are not given: an `if` starts without branches, and nothing has an origin. -/
def unset : Kind → Work (List Handle)
  | .node => return []
  | .conditional => return [← layList [], .none, .none, .none, .none, .none]
  | .program => return [.none, .none, .none, .none, .none]
  | _ => return [.none, .none, .none, .none]

/-- Builds a node from the given values. A head is checked before the children, and children before
the other parts. -/
def build (k : Kind) (given : List Handle) : Work Handle := do
  let (parts, children) ← ofExcept (k.form.arrange given)
  match k.hasHead, parts with
  | true, head :: _ => ofExcept (k.checkHead (← glance head))
  | _, _ => pure ()
  let children ← children.mapM fun c => return (← record c).1
  let fields ← (k.fields.zip parts).mapM fun (name, h) => field k name h
  return .place (← layNode k (fields ++ (← unset k)) children)

def addElseIf (on branch : Handle) : Work Unit := do
  let (i, r) ← record on
  if r.kind = .conditional then
    let (child, _) ← record branch
    setParent child (some i)
    append (r.slots.getD 1 .none) branch
  else throw .noSuchAttribute

def setAlternate (on branch : Handle) : Work Unit := do
  let (i, r) ← record on
  if r.kind = .conditional then
    let (child, _) ← record branch
    setParent child (some i)
    modifyRecord i fun r => { r with slots := r.slots.set 2 branch }
  else throw .noSuchAttribute

def branches (on : Handle) : Work (List Handle) := do
  let (_, r) ← record on
  if r.kind = .conditional then
    let elseIfs ← parts (r.slots.getD 1 .none)
    return elseIfs ++ (match r.slots.getD 2 .none with
      | .plain .none => []
      | h => [h])
  else if r.kind.isElement then return []
  else throw .noSuchAttribute

def adopt (index : Nat) : Work Unit := do
  (← branches (.place index)).forM fun
    | .place i => setParent i (some index)
    | _ => pure ()

mutual

def insert : Datum → Work Handle
  | .list xs => do layList (← insertAll xs)
  | .call m as => return .call (← insert m) (← insert as)
  | .element _ k ss cs => do
    let slots ← insertAll ss
    let children ← insertAll cs
    let place ← layNode k slots (children.filterMap fun
      | .place i => some i
      | _ => none)
    if k = .conditional then adopt place
    return .place place
  | d => return .plain d

def insertAll : List Datum → Work (List Handle)
  | [] => return []
  | d :: ds => return (← insert d) :: (← insertAll ds)

end

end Work

end Devalang.Draft
