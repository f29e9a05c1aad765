import Devalang.Draft.Check
import Devalang.Document

/-! Documents that were read, taken apart as if they had been built by hand: all heads and durations
pass the checks for hand-built ones. -/
namespace Devalang

open Draft

def Origin.slots : Option Origin → List Datum
  | none => [.none, .none, .none, .none]
  | some o => [.int o.line, .int o.last, .int o.indent, .text o.leading]

/-- An element with the given fields, whose head is checked if it has one. -/
def Draft.Datum.compose (k : Kind) (fields : List Datum) (origin : Option Origin)
    (children : List Datum) : Except Fault Datum := do
  match k.hasHead, fields with
  | true, head :: _ => k.checkHead head
  | _, _ => pure ()
  return .element 0 k (fields ++ Origin.slots origin) children

open Draft.Datum (compose)

mutual

def Value.draft : Value → Except Fault Datum
  | .identifier n => compose .identifier [.text n] none []
  | .number t => compose .numberLiteral [.text t] none []
  | .string c => compose .stringLiteral [.text c] none []
  | .boolean b => compose .booleanLiteral [.bool b] none []
  | .raw t => compose .rawLiteral [.text t] none []
  | .synth n => compose .synthReference [.text n] none []
  | .object ps => do compose .objectLiteral [] none (← Property.draftAll ps)

def Property.draft : Property → Except Fault Datum
  | .bare k => compose .objectProperty [.text k] none []
  | .pair k v => do compose .objectProperty [.text k] none [← v.draft]

def Property.draftAll : List Property → Except Fault (List Datum)
  | [] => .ok []
  | p :: ps => return (← p.draft) :: (← Property.draftAll ps)

end

def Argument.draft : Argument → Except Fault Datum
  | property p => p.draft
  | value v => v.draft

/-- A duration, checked if it is written as a text. -/
def Duration.draft : Duration → Except Fault Datum
  | beat t => (Datum.text t).toBeat.map .duration
  | milliseconds (.written t) => (Datum.text t).toMilliseconds.map .duration
  | d => .ok (.duration d)

def Draft.Datum.ofOption : Option Text → Datum
  | .none => .none
  | .some t => .text t

def Draft.Datum.ofTexts (ts : List Text) : Datum := .list (ts.map .text)

def Call.draft (c : Call) : Datum := .call (.text c.method) (.ofTexts c.arguments)

def Separator.draft : Separator → Datum
  | equals => .text ['=']
  | colon => .text [':']

def Simple.draft : Simple → Except Fault (Kind × List Datum)
  | blank => .ok (.blankLine, [])
  | comment t => .ok (.comment, [.text t])
  | unknown t => .ok (.unknown, [.text t])
  | bpm i => .ok (.bpm, [.text i])
  | bank i a => .ok (.bank, [.text i, .ofOption a])
  | plugin n a => .ok (.usePlugin, [.text n, .ofOption a])
  | declare n v => return (.letDeclaration, [.text n, ← v.draft])
  | emit n p => .ok (.emit, [.text n, .ofOption p])
  | print e => .ok (.print, [.text e])
  | imports ns s => .ok (.importStatement, [.ofTexts ns, .text s])
  | exports ns => .ok (.exportStatement, [.ofTexts ns])
  | load p a => .ok (.loadSample, [.text p, .text a])
  | call i => .ok (.call, [.text i])
  | spawn i => .ok (.spawn, [.text i])
  | sleep v => return (.sleep, [← v.draft])
  | pattern n i s => .ok (.pattern, [.text n, .text i, .text s])
  | keyframe p s v => .ok (.keyframe, [.text p, .text v, s.draft])
  | trigger n d as => do
    let duration ← match d with
      | none => pure Datum.none
      | some d => d.draft
    return (.trigger, [.text n, duration, .list (← as.mapM Argument.draft)])
  | arrow t c cs =>
    let chain := match cs with
      | [] => Datum.none
      | cs => .list ((c :: cs).map Call.draft)
    .ok (.arrowCall, [.text t, .text c.method, .ofTexts c.arguments, chain])

def Header.draft : Header → Except Fault (Kind × List Datum)
  | loop i => return (.loop, [← i.draft])
  | group n => .ok (.group, [.text n])
  | on e => .ok (.on, [.text e])
  | fn n ps => .ok (.fn, [.text n, .ofTexts ps])
  | each v i => .ok (.each, [.text v, .text i])
  | automate t => .ok (.automate, [.text t])
  | param n => .ok (.param, [.text n])
  | conditional c => .ok (.conditional, [.text c])
  | elseIf c => .ok (.elseIf, [.text c])
  | otherwise => .ok (.otherwise, [])

def Statement.draft : Statement → Except Fault (Kind × List Datum)
  | simple s => s.draft
  | block h => h.draft

namespace Node

mutual

def draft : Node → Except Fault Datum
  | node s o b es a => do
    let (k, fields) ← s.draft
    let body ← draftAll b
    let elseIfs ← draftAll es
    let alternate ← draftOption a
    compose k (if k = .conditional then fields ++ [.list elseIfs, alternate] else fields) o body

def draftAll : List Node → Except Fault (List Datum)
  | [] => .ok []
  | n :: ns => return (← n.draft) :: (← draftAll ns)

def draftOption : Option Node → Except Fault Datum
  | none => .ok .none
  | some n => n.draft

end

end Node

def Node.draftProgram (session : Datum) (ns : List Node) : Except Fault Datum := do
  compose .program [session] none (← Node.draftAll ns)

def Document.draft (d : Document) : Except Fault Datum := Node.draftProgram (.session d.lines) d.nodes

end Devalang
