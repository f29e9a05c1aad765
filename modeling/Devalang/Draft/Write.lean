import Devalang.Draft.Datum
import Devalang.Statement

/-! The texts of hand-built elements. Any part may be missing or of the wrong sort; the first fault
in the order of writing is reported. -/
namespace Devalang.Draft

open Datum

/-- A value with the outcome of writing it and of writing its parts. -/
structure Written where
  datum : Datum
  own : Except Fault Datum
  parts : Except Fault (List (Datum × Except Fault Datum))

namespace Written

def plain (d : Datum) : Written :=
  ⟨d, .error .noSuchAttribute, d.parts.map fun ps => ps.map fun p => (p, .error .noSuchAttribute)⟩

def numberText : Datum → Text
  | text t => t
  | double x => x.plain
  | d => d.caption

def object (properties : List (Except Fault Datum)) : Except Fault Text := do
  let texts ← properties.mapM id
  return '{' :: (← joinTexts comma texts) ++ ['}']

def callText (c : Datum) : Except Fault Text := do
  match ← c.parts with
  | [method, arguments] =>
    return method.format ++ '(' :: (← joinTexts comma (← arguments.parts)) ++ [')']
  | _ => .error .unsuitable

def argumentTexts : (pending : List (Except Fault Datum)) → List (Datum × Except Fault Datum) →
    Except Fault (List Datum)
  | pending, [] => flush pending
  | pending, (d, own) :: rest =>
    if d.kind? = some .objectProperty then argumentTexts (pending ++ [own]) rest
    else return (← flush pending) ++ (← own) :: (← argumentTexts [] rest)
where
  flush : List (Except Fault Datum) → Except Fault (List Datum)
    | [] => .ok []
    | ps => return [text (← object ps)]

def durationText : Datum → Except Fault Datum
  | duration d => .ok (text d.toText)
  | element _ k ss cs =>
    match k, ss with
    | .numberLiteral, (text t) :: _ => t.readNumber.map ofNumber
    | .numberLiteral, d :: _ | .comment, d :: _ | .unknown, d :: _ => .ok d
    | .letDeclaration, _ :: d :: _ | .sleep, d :: _ | .keyframe, _ :: d :: _ => .ok d
    | .objectProperty, _ => .ok (cs.headD Datum.none)
    | _, _ => .error .noSuchAttribute
  | _ => .error .noSuchAttribute

def sentence (words : List Datum) : Datum := text (words.flatMap format)

def lit (s : String) : Datum := text s.toList

def elementText (kind : Kind) (slots children : List Written) : Except Fault Datum :=
  match kind, slots with
  | .headElement, _ | .program, _ => .ok Datum.none
  | .blankLine, _ => .ok (text [])
  | .textElement, h :: _ | .identifier, h :: _ | .rawLiteral, h :: _ | .comment, h :: _
  | .unknown, h :: _ => .ok h.datum
  | .numberLiteral, h :: _ => .ok (text (numberText h.datum))
  | .stringLiteral, h :: _ => .ok (sentence [lit "\"", h.datum, lit "\""])
  | .booleanLiteral, h :: _ => .ok (lit (if h.datum.isSet then "true" else "false"))
  | .synthReference, h :: _ => .ok (sentence [lit "synth ", h.datum])
  | .objectProperty, h :: _ =>
    match children with
    | [] => .ok h.datum
    | v :: _ => return sentence [h.datum, lit ": ", ← v.own]
  | .objectLiteral, _ => return text (← object (children.map (·.own)))
  | .bpm, i :: _ => .ok (sentence [lit "bpm ", i.datum])
  | .bank, i :: a :: _ => .ok (aliased [lit "bank ", i.datum] a.datum)
  | .usePlugin, n :: a :: _ => .ok (aliased [lit "@use ", n.datum] a.datum)
  | .letDeclaration, n :: v :: _ => return sentence [lit "let ", n.datum, lit " = ", ← v.own]
  | .emit, n :: p :: _ =>
    .ok (sentence ([lit "emit ", n.datum] ++ if p.datum.isSet then [lit " ", p.datum] else []))
  | .print, e :: _ => .ok (sentence [lit "print ", e.datum])
  | .importStatement, ns :: s :: _ =>
    return sentence [lit "@import ", text (← names ns.datum), lit " from \"", s.datum, lit "\""]
  | .exportStatement, ns :: _ => return sentence [lit "@export ", text (← names ns.datum)]
  | .loadSample, p :: a :: _ => .ok (sentence [lit "@load \"", p.datum, lit "\" as ", a.datum])
  | .call, h :: _ => .ok (sentence [lit "call ", h.datum])
  | .spawn, h :: _ => .ok (sentence [lit "spawn ", h.datum])
  | .sleep, v :: _ => return sentence [lit "sleep ", ← v.own]
  | .pattern, n :: i :: s :: _ =>
    .ok (sentence [lit "pattern ", n.datum, lit " with ", i.datum, lit " = \"", s.datum, lit "\""])
  | .keyframe, p :: v :: s :: _ =>
    .ok (sentence [p.datum, lit (if s.datum.same (lit ":") then ": " else " = "), v.datum])
  | .trigger, n :: d :: as :: _ => do
    let duration ← match d.datum with
      | .none => pure []
      | d => (durationText d).map ([·])
    let args ← joinTexts comma (← argumentTexts [] (← as.parts))
    return text (← joinTexts [' '] (n.datum :: (duration ++ if args.isEmpty then [] else [text args])))
  | .arrowCall, t :: m :: as :: chain :: _ =>
    if chain.datum.isSet then do
      match ← chain.datum.parts with
      | [] => .error .wrongCount
      | first :: more =>
        let start := t.datum.format ++ " -> ".toList ++ (← callText first)
        let more ← more.mapM fun c => return "    -> ".toList ++ (← callText c)
        return text (Text.join ['\n'] (start :: more))
    else return sentence [t.datum, lit " -> ", text (← callText (.call m.datum as.datum))]
  | .loop, i :: _ => return sentence [lit "loop ", ← i.own, lit ":"]
  | .group, n :: _ => .ok (sentence [lit "group ", n.datum, lit ":"])
  | .on, e :: _ => .ok (sentence [lit "on ", e.datum, lit ":"])
  | .fn, n :: ps :: _ =>
    return sentence [lit "fn ", n.datum, lit "(", text (← joinTexts comma (← ps.datum.parts)), lit "):"]
  | .each, v :: i :: _ => .ok (sentence [lit "for ", v.datum, lit " in ", i.datum, lit ":"])
  | .automate, t :: _ => .ok (sentence [lit "automate ", t.datum, lit ":"])
  | .param, n :: _ => .ok (sentence [lit "param ", n.datum, lit " \x7b"])
  | .conditional, c :: _ => .ok (sentence [lit "if ", c.datum, lit ":"])
  | .elseIf, c :: _ => .ok (sentence [lit "else if ", c.datum, lit ":"])
  | .otherwise, _ => .ok (lit "else:")
  | .node, _ => .error .noSuchAttribute
  | _, _ => .error .abstractKind
where
  aliased (words : List Datum) (other : Datum) : Datum :=
    sentence (words ++ if other.isSet then [lit " as ", other] else [])
  names (d : Datum) : Except Fault Text := do
    if d.isSet then return '{' :: ' ' :: (← joinTexts comma (← d.parts)) ++ [' ', '}']
    else return ['{', '}']

end Written

mutual

def written : Datum → Written
  | .list xs => ⟨.list xs, .error .noSuchAttribute, .ok ((writtenAll xs).map fun w => (w.datum, w.own))⟩
  | .element id k ss cs =>
    ⟨.element id k ss cs, Written.elementText k (writtenAll ss) (writtenAll cs),
      .ok ((writtenAll cs).map fun w => (w.datum, w.own))⟩
  | d => .plain d

def writtenAll : List Datum → List Written
  | [] => []
  | d :: ds => written d :: writtenAll ds

end

/-- The text of an element, of a block its first line. It is a value of any sort if the head is. -/
def Datum.write (d : Datum) : Except Fault Datum := (written d).own

def Datum.tail (d : Datum) : Datum :=
  if d.kind? = some .param then text ['}'] else Datum.none

end Devalang.Draft
