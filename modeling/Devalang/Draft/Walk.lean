import Devalang.Draft.Datum

/-! Document order of hand-built trees. -/
namespace Devalang.Draft

/-- Elements in document order, up to the fault that ends the walk, if there is one. -/
structure Trail where
  elements : List Datum
  fault : Option Fault

namespace Trail

def empty : Trail := ⟨[], none⟩

def ofFault (f : Fault) : Trail := ⟨[], some f⟩

def append (a b : Trail) : Trail :=
  match a.fault with
  | some f => ⟨a.elements, some f⟩
  | none => ⟨a.elements ++ b.elements, b.fault⟩

def concat (ts : List Trail) : Trail := ts.foldr append empty

end Trail

structure Walked where
  datum : Datum
  own : Trail
  parts : Trail

namespace Walked

def plain (d : Datum) : Walked where
  datum := d
  own := .ofFault .noSuchAttribute
  parts := match d.parts with
    | .ok [] => .empty
    | .ok _ => .ofFault .noSuchAttribute
    | .error f => .ofFault f

def branches (kind : Kind) (slots : List Walked) : Trail :=
  match kind, slots with
  | .conditional, _ :: elseIfs :: alternate :: _ =>
    elseIfs.parts.append (match alternate.datum with
      | .none => .empty
      | _ => alternate.own)
  | _, _ => .empty

end Walked

namespace Datum

mutual

def walked : Datum → Walked
  | list xs => ⟨list xs, .ofFault .noSuchAttribute, .concat ((walkedAll xs).map (·.own))⟩
  | element id k ss cs =>
    let d := element id k ss cs
    let children := Trail.concat ((walkedAll cs).map (·.own))
    let own :=
      if k.isElement then
        Trail.append ⟨[d], Option.none⟩ (children.append (Walked.branches k (walkedAll ss)))
      else .ofFault .noSuchAttribute
    ⟨d, own, children⟩
  | d => .plain d

def walkedAll : List Datum → List Walked
  | [] => []
  | d :: ds => walked d :: walkedAll ds

end

def walk (d : Datum) : Trail := d.walked.own

end Datum

end Devalang.Draft
