import Devalang.Draft.Datum

/-! What the parts of a hand-built document are checked for. -/
namespace Devalang.Draft

/-- No head is an element. The head of a number is a number or the text of one, that of a boolean a
truth value. -/
def Kind.admits (k : Kind) (head : Datum) : Bool :=
  match k, head with
  | .numberLiteral, .text t => t.isNumber
  | .numberLiteral, .int _ | .numberLiteral, .double _ => true
  | .numberLiteral, _ => false
  | .booleanLiteral, .bool _ => true
  | .booleanLiteral, _ => false
  | _, head => !head.isElement

def Kind.checkHead (k : Kind) (head : Datum) : Except Fault Unit :=
  if k.admits head then .ok () else .error (.invalidHead k.name.toList head.caption)

namespace Datum

def toBeat : Datum → Except Fault Duration
  | text t => if t.isFraction then .ok (.beat t) else .error (.invalidBeat (text t).caption)
  | d => .error (.invalidBeat d.caption)

def toMilliseconds : Datum → Except Fault Duration
  | text t =>
    if t.isNumber then .ok (.milliseconds (.written t))
    else .error (.invalidMilliseconds (text t).caption)
  | int i => .ok (.milliseconds (.integer i))
  | double x => .ok (.milliseconds (.double x))
  | d => .error (.invalidMilliseconds d.caption)

def described (d : Datum) : Except Fault (Option Duration) :=
  match d.kind?, d.slot? "head" with
  | some .numberLiteral, some head => return some (← head.toMilliseconds)
  | some .identifier, some head | some .stringLiteral, some head =>
    match head with
    | text t => .ok (Duration.ofText? t)
    | _ => .error .noSuchAttribute
  | _, _ => .ok Option.none

end Datum

end Devalang.Draft
