import Devalang.Draft.OfDocument
import Devalang.Proofs.Outline.Listing

/-! The elements of statements and values. A part of a document passes its checks if its draft is this
element. -/
namespace Devalang
open Draft

@[simp] theorem Draft.ok_bind {α β : Type} (x : α) (f : α → Except Fault β) : (.ok x >>= f) = f x := rfl

theorem Draft.mapM_ok {α β : Type} {f : α → Except Fault β} {g : α → β} {xs : List α}
    (h : ∀ x ∈ xs, f x = .ok (g x)) : xs.mapM f = .ok (xs.map g) := by
  induction xs with
  | nil => rfl
  | cons x xs ih =>
    rw [List.mapM_cons, h x (by simp), ih fun y hy => h y (List.mem_cons_of_mem x hy)]
    rfl

/-- An element with the given fields and children, none of which is checked. -/
def Draft.Datum.form (k : Kind) (fields : List Datum) (o : Option Origin) (children : List Datum) :
    Datum :=
  .element 0 k (fields ++ Origin.slots o) children

open Draft.Datum (form)

mutual

def Value.form : Value → Datum
  | .identifier n => Datum.form .identifier [.text n] none []
  | .number t => Datum.form .numberLiteral [.text t] none []
  | .string c => Datum.form .stringLiteral [.text c] none []
  | .boolean b => Datum.form .booleanLiteral [.bool b] none []
  | .raw t => Datum.form .rawLiteral [.text t] none []
  | .synth n => Datum.form .synthReference [.text n] none []
  | .object ps => Datum.form .objectLiteral [] none (Property.formAll ps)

def Property.form : Property → Datum
  | .bare k => Datum.form .objectProperty [.text k] none []
  | .pair k v => Datum.form .objectProperty [.text k] none [v.form]

def Property.formAll : List Property → List Datum
  | [] => []
  | p :: ps => p.form :: Property.formAll ps

end

theorem Property.formAll_eq_map (ps : List Property) : formAll ps = ps.map Property.form := by
  induction ps with
  | nil => rfl
  | cons p ps ih => rw [formAll, ih, List.map_cons]

theorem Property.draftAll_eq_mapM (ps : List Property) :
    draftAll ps = ps.mapM Property.draft := by
  induction ps with
  | nil => rfl
  | cons p ps ih => rw [draftAll, ih, List.mapM_cons]

theorem Value.draft_object {ps : List Property} (h : ∀ p ∈ ps, p.draft = .ok p.form) :
    (Value.object ps).draft = .ok (Value.object ps).form := by
  rw [Value.draft, Property.draftAll_eq_mapM, mapM_ok h, Value.form, Property.formAll_eq_map]
  rfl

theorem Property.draft_pair {k : Text} {v : Value} (h : v.draft = .ok v.form) :
    (Property.pair k v).draft = .ok (Property.pair k v).form := by
  rw [Property.draft, h]
  rfl

def Argument.form : Argument → Datum
  | property p => p.form
  | value v => v.form

/-! The kinds of statements, and the fields that are read with them. -/

def Simple.kind : Simple → Kind
  | blank => .blankLine
  | comment _ => .comment
  | unknown _ => .unknown
  | bpm _ => .bpm
  | bank _ _ => .bank
  | plugin _ _ => .usePlugin
  | declare _ _ => .letDeclaration
  | emit _ _ => .emit
  | print _ => .print
  | imports _ _ => .importStatement
  | exports _ => .exportStatement
  | load _ _ => .loadSample
  | call _ => .call
  | spawn _ => .spawn
  | sleep _ => .sleep
  | pattern _ _ _ => .pattern
  | keyframe _ _ _ => .keyframe
  | trigger _ _ _ => .trigger
  | arrow _ _ _ => .arrowCall

def Simple.fields : Simple → List Datum
  | blank => []
  | comment t | unknown t | bpm t | print t | call t | spawn t => [.text t]
  | bank t a | plugin t a | emit t a => [.text t, .ofOption a]
  | declare n v => [.text n, v.form]
  | imports ns s => [.ofTexts ns, .text s]
  | exports ns => [.ofTexts ns]
  | load p a => [.text p, .text a]
  | sleep v => [v.form]
  | pattern n i s => [.text n, .text i, .text s]
  | keyframe p s v => [.text p, .text v, s.draft]
  | trigger n d as => [.text n, (d.map .duration).getD .none, .list (as.map Argument.form)]
  | arrow t c [] => [.text t, .text c.method, .ofTexts c.arguments, .none]
  | arrow t c (d :: cs) =>
    [.text t, .text c.method, .ofTexts c.arguments, .list ((c :: d :: cs).map Call.draft)]

def Header.kind : Header → Kind
  | loop _ => .loop
  | group _ => .group
  | on _ => .on
  | fn _ _ => .fn
  | each _ _ => .each
  | automate _ => .automate
  | param _ => .param
  | conditional _ => .conditional
  | elseIf _ => .elseIf
  | otherwise => .otherwise

def Header.fields : Header → List Datum
  | loop i => [i.form]
  | group t | on t | automate t | param t | conditional t | elseIf t => [.text t]
  | fn n ps => [.text n, .ofTexts ps]
  | each v i => [.text v, .text i]
  | otherwise => []

namespace Statement

def kind : Statement → Kind
  | simple s => s.kind
  | block h => h.kind

def fields : Statement → List Datum
  | simple s => s.fields
  | block h => h.fields

def Passes (s : Statement) : Prop := s.draft = .ok (s.kind, s.fields)

theorem compose_fields (s : Statement) (more : List Datum) (o : Option Origin) (cs : List Datum) :
    Datum.compose s.kind (s.fields ++ more) o cs = .ok (Datum.form s.kind (s.fields ++ more) o cs) := by
  cases s with
  | simple s => cases s <;> rfl
  | block h => cases h <;> rfl

end Statement

namespace Node

mutual

def form : Node → Datum
  | node s o b es a =>
    Datum.form s.kind
      (if s.kind = .conditional then s.fields ++ [.list (formAll es), formOption a] else s.fields) o
      (formAll b)

def formAll : List Node → List Datum
  | [] => []
  | n :: ns => n.form :: formAll ns

def formOption : Option Node → Datum
  | none => .none
  | some n => n.form

end

theorem formAll_eq_map (ns : List Node) : formAll ns = ns.map form := by
  induction ns with
  | nil => rfl
  | cons n ns ih => rw [formAll, ih, List.map_cons]

theorem draftAll_eq_mapM (ns : List Node) : draftAll ns = ns.mapM draft := by
  induction ns with
  | nil => rfl
  | cons n ns ih => rw [draftAll, ih, List.mapM_cons]

theorem draftAll_form {ns : List Node} (h : ∀ n ∈ ns, n.draft = .ok n.form) :
    draftAll ns = .ok (formAll ns) := by
  rw [draftAll_eq_mapM, mapM_ok h, formAll_eq_map]

theorem draft_node {s : Statement} {o : Option Origin} {b es : List Node} {a : Option Node}
    (hs : s.Passes) (hb : ∀ n ∈ b, n.draft = .ok n.form) (hes : ∀ n ∈ es, n.draft = .ok n.form)
    (ha : ∀ n ∈ a.toList, n.draft = .ok n.form) : (node s o b es a).draft = .ok (node s o b es a).form := by
  have halt : draftOption a = .ok (formOption a) := by
    cases a with
    | none => rfl
    | some n => exact ha n (by simp)
  rw [draft, hs, draftAll_form hb, draftAll_form hes, halt, form]
  by_cases hk : s.kind = .conditional
  · exact (congrArg (Datum.compose s.kind · o (formAll b)) (if_pos hk)).trans
      ((s.compose_fields _ o _).trans (by rw [if_pos hk]))
  · have h := s.compose_fields [] o (formAll b)
    rw [List.append_nil] at h
    exact (congrArg (Datum.compose s.kind · o (formAll b)) (if_neg hk)).trans
      (h.trans (by rw [if_neg hk]))

end Node

def Document.form (d : Document) : Datum :=
  Datum.form .program [.session d.lines] none (Node.formAll d.nodes)

end Devalang
