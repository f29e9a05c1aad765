import Devalang.Statement.Reader

/-! The items that the arguments of a trigger consist of, one of which can be its duration. -/
namespace Devalang

/-- An argument as it is written, or a property of an object among the arguments. -/
inductive Item where
  | token (text : Text)
  | property (p : Property)
deriving DecidableEq

namespace Item

/-- The items of one argument: the properties of an object, if it has any, or the argument itself. -/
def ofToken (t : Text) : List Item :=
  match Value.read t with
  | .object (p :: ps) => (p :: ps).map property
  | _ => [token t]

def ofText (s : Text) : List Item := (Text.arguments s).flatMap ofToken

def duration? : Item → Option Duration
  | token t => Duration.ofText? t
  | property p => p.duration?

def argument : Item → Argument
  | token t => .value (Value.read t)
  | property p => .property p

/-- The duration of the first item that describes one, and all other items. -/
def extract (items : List Item) : Option Duration × List Argument :=
  match items.findIdx? (·.duration?.isSome) with
  | none => (none, items.map argument)
  | some i => (items[i]?.bind duration?, (items.eraseIdx i).map argument)

end Item

end Devalang
