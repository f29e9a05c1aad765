import Devalang.Draft.Datum

/-! Comparing hand-built trees by their contents, origins left out. -/
namespace Devalang.Draft

/-- What a value is to the comparison: a node as such, a field of an element, or an item of a list
in a field. -/
inductive Manner where
  | whole | field | item
deriving DecidableEq, Repr

namespace Datum

mutual

/-- Nodes are equal if they are of one kind, have equally many children, equal fields and equal
children. In fields, elements and lists are compared by their contents and all other values as
such; a bare node there counts as the list of its children. A list can only be compared with a
value that has parts. -/
def equalAs : Manner → Datum → Datum → Except Fault Bool
  | manner, element i k ss cs, b =>
    if k = .node ∧ manner = .field then do
      let ys ← b.parts
      if cs.length = ys.length then equalAll .item cs ys else return false
    else if k = .node ∧ manner = .item then return same (element i k ss cs) b
    else
      match b with
      | element _ k' ss' cs' =>
        if k = k' ∧ cs.length = cs'.length then do
          if ← equalFirst k.fields.length ss ss' then equalAll .whole cs cs' else return false
        else return false
      | _ => return false
  | .field, list xs, b => do
    let ys ← b.parts
    if xs.length = ys.length then equalAll .item xs ys else return false
  | .whole, _, _ => .error .noSuchAttribute
  | _, a, b => return same a b

def equalAll : Manner → List Datum → List Datum → Except Fault Bool
  | _, [], _ => .ok true
  | _, _, [] => .ok true
  | manner, x :: xs, y :: ys => do
    if ← equalAs manner x y then equalAll manner xs ys else return false

def equalFirst : (n : Nat) → List Datum → List Datum → Except Fault Bool
  | 0, _, _ => .ok true
  | n + 1, x :: xs, y :: ys => do
    if ← equalAs .field x y then equalFirst n xs ys else return false
  | _, _, _ => .ok true

end

def equals (a b : Datum) : Except Fault Bool := equalAs .whole a b

end Datum

end Devalang.Draft
