import Devalang.Draft.Datum

/-! The bench on which documents are put together by hand. Nodes and lists lie on it once; they can
be changed, and each can be a part of several others. A node has at most one parent, which is the
node that it was given to last. -/
namespace Devalang.Draft

/-- A value on the bench: one that never changes, or the place of a node or a list. -/
inductive Handle where
  | plain (value : Datum)
  | place (index : Nat)
  | call (method arguments : Handle)

/-- A node on the bench. Its children are places of nodes. -/
structure Record where
  kind : Kind
  slots : List Handle
  children : List Nat
  parent : Option Nat

inductive Cell where
  | node (record : Record)
  | list (items : List Handle)

structure Bench where
  cells : Array Cell

/-- What is done on the bench. A fault keeps what was done before it. -/
abbrev Work := ExceptT Fault (StateM Bench)

namespace Handle

def none : Handle := plain .none

def ofPlace : Option Nat → Handle
  | .none => none
  | some i => place i

def viewWith (value : Nat → Except Fault Datum) : Handle → Except Fault Datum
  | plain d => .ok d
  | place i => value i
  | call m as => return .call (← viewWith value m) (← viewWith value as)

end Handle

namespace Bench

def empty : Bench := ⟨#[]⟩

def record? (b : Bench) : Handle → Option Record
  | .place i => match b.cells[i]? with
    | some (.node r) => some r
    | _ => none
  | _ => none

/-- The value that lies at a place. Unless it is wanted `deep`, the children of nodes only count.
Nodes that contain one another have no value. -/
def viewAt (b : Bench) (deep : Bool) : (fuel : Nat) → (index : Nat) → Except Fault Datum
  | 0, _ => .error .endless
  | fuel + 1, i =>
    match b.cells[i]? with
    | none => .ok .none
    | some (.list items) =>
      return .list (← items.mapM (Handle.viewWith (viewAt b deep fuel)))
    | some (.node r) => do
      let slots ← r.slots.mapM (Handle.viewWith (viewAt b deep fuel))
      let children ←
        if deep then r.children.mapM (viewAt b deep fuel)
        else .ok (r.children.map fun _ => Datum.none)
      return .element i r.kind slots children

def view (b : Bench) (h : Handle) : Except Fault Datum :=
  h.viewWith (b.viewAt true (b.cells.size + 1))

/-- The value of a handle, but of children only their number. -/
def glance (b : Bench) (h : Handle) : Except Fault Datum :=
  h.viewWith (b.viewAt false (b.cells.size + 1))

def parts (b : Bench) : Handle → Except Fault (List Handle)
  | .plain d => return (← d.parts).map .plain
  | .call m as => .ok [m, as]
  | .place i => match b.cells[i]? with
    | some (.node r) => .ok (r.children.map .place)
    | some (.list items) => .ok items
    | none => .error .unsuitable

def parent? (b : Bench) (index : Nat) : Option Nat := (b.record? (.place index)).bind (·.parent)

def isLast (b : Bench) (index : Nat) : Except Fault Bool :=
  match (b.parent? index).bind fun p => b.record? (.place p) with
  | none => .error .unsuitable
  | some r => match r.children.getLast? with
    | none => .error .noChildren
    | some last => .ok (last == index)

end Bench

namespace Work

variable {α : Type}

def run (w : Work α) (b : Bench) : Except Fault α × Bench := ExceptT.run w b

def ofExcept : Except Fault α → Work α
  | .ok a => pure a
  | .error f => throw f

def view (h : Handle) : Work Datum := do ofExcept ((← get).view h)

def glance (h : Handle) : Work Datum := do ofExcept ((← get).glance h)

def caption (h : Handle) : Work Text := return (← glance h).caption

def parts (h : Handle) : Work (List Handle) := do ofExcept ((← get).parts h)

def lay (c : Cell) : Work Nat := do
  let b ← get
  set (Bench.mk (b.cells.push c))
  return b.cells.size

def layList (items : List Handle) : Work Handle := return .place (← lay (.list items))

def record (h : Handle) : Work (Nat × Record) := do
  match h, (← get).record? h with
  | .place i, some r => return (i, r)
  | _, _ => throw .noSuchAttribute

def modifyRecord (index : Nat) (f : Record → Record) : Work Unit :=
  modify fun b => ⟨b.cells.modify index fun
    | .node r => .node (f r)
    | c => c⟩

def setParent (index : Nat) (parent : Option Nat) : Work Unit :=
  modifyRecord index fun r => { r with parent := parent }

/-- Lays a new node on the bench and makes it the parent of its children. -/
def layNode (k : Kind) (slots : List Handle) (children : List Nat) : Work Nat := do
  let place ← lay (.node ⟨k, slots, children, none⟩)
  children.forM fun c => setParent c (some place)
  return place

/-- Appends to a list, or a child to a node, which becomes its parent. -/
def append (on part : Handle) : Work Unit := do
  match on, (← get).record? on with
  | .place i, some _ => do
    let (child, _) ← record part
    setParent child (some i)
    modifyRecord i fun r => { r with children := r.children ++ [child] }
  | .place i, none =>
    modify fun b => ⟨b.cells.modify i fun
      | .list items => .list (items ++ [part])
      | c => c⟩
  | _, _ => throw .noSuchAttribute

/-- The parent of a node is set to a node or to none; children are not changed. -/
def assignParent (on parent : Handle) : Work Unit := do
  let (i, _) ← record on
  match parent, (← get).record? parent with
  | .plain .none, _ => setParent i none
  | .place p, some _ => setParent i (some p)
  | _, _ => throw .unsuitable

def count (h : Handle) : Work Nat := return (← parts h).length

/-- The position of a child, or of the first equal item of a list. -/
def position (on part : Handle) : Work Nat := do
  match on, (← get).record? on with
  | .plain (.text _), _ => throw .unsuitable
  | .plain _, _ => throw .noSuchAttribute
  | _, _ =>
    let d ← glance part
    let items ← (← parts on).mapM glance
    match items.findIdx? (·.same d) with
    | some n => return n
    | none => throw .notListed

end Work

end Devalang.Draft
