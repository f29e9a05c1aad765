import Devalang.Draft.Diagram
import Devalang.Proofs.Draft.Form
import Mathlib.Data.List.Forall2
import Mathlib.Data.List.Nodup

/-! Drawings of trees. The marks in front of a line are found along the parents of its node; where every
child has the node that it belongs to as its parent, they are the marks that are handed down from the
top. -/
namespace Devalang.Draft

theorem exists_of_bind {α β : Type} {x : Except Fault α} {f : α → Except Fault β} {y : β}
    (h : (x >>= f) = .ok y) : ∃ a, x = .ok a ∧ f a = .ok y := by
  cases x with
  | error e => cases h
  | ok a => exact ⟨a, rfl, h⟩

inductive Tree where
  | node (place : Nat) (below : List Tree)

namespace Tree

def place : Tree → Nat
  | node i _ => i

mutual

def places : Tree → List Nat
  | node i ts => i :: placesAll ts

def placesAll : List Tree → List Nat
  | [] => []
  | t :: ts => t.places ++ placesAll ts

end

inductive Within (u : Tree) : Tree → Prop where
  | self : Within u u
  | child (i : Nat) (ts : List Tree) (t : Tree) (mem : t ∈ ts) (within : Within u t) :
    Within u (node i ts)

theorem placesAll_eq_flatMap (ts : List Tree) : placesAll ts = ts.flatMap places := by
  induction ts with
  | nil => rfl
  | cons t ts ih => rw [placesAll, ih, List.flatMap_cons]

theorem places_node (i : Nat) (ts : List Tree) : (node i ts).places = i :: ts.flatMap places := by
  rw [places, placesAll_eq_flatMap]

theorem places_sublist_flatMap {t : Tree} {ts : List Tree} (h : t ∈ ts) :
    t.places.Sublist (ts.flatMap places) := by
  rw [List.flatMap_def]
  exact List.sublist_flatten_of_mem (List.mem_map_of_mem h)

theorem places_sublist {t : Tree} {ts : List Tree} (h : t ∈ ts) (i : Nat) :
    t.places.Sublist (node i ts).places := by
  rw [places_node]
  exact (places_sublist_flatMap h).trans (List.sublist_cons_self i _)

theorem Within.sublist {t u : Tree} (h : u.Within t) : u.places.Sublist t.places := by
  induction h with
  | self => exact List.Sublist.refl _
  | child i ts t mem _ ih => exact ih.trans (places_sublist mem i)

theorem map_place_sublist (ts : List Tree) : (ts.map place).Sublist (ts.flatMap places) := by
  induction ts with
  | nil => exact List.Sublist.refl _
  | cons t ts ih =>
    obtain ⟨i, us⟩ := t
    rw [List.map_cons, List.flatMap_cons, places, List.cons_append]
    exact (ih.trans (List.sublist_append_right _ _)).cons_cons i

end Tree

namespace Datum
variable {i j : Nat} {k : Kind} {ss cs ds : List Datum}

def withChildren (cs : List Datum) : Datum → Datum
  | element i k ss _ => element i k ss cs
  | d => d

theorem caption_congr (h : cs.length = ds.length) :
    (element i k ss cs).caption = (element j k ss ds).caption := by
  simp [caption, captions, h]

end Datum

namespace Bench
variable {b : Bench} {p : Pen} {t u : Tree} {ts : List Tree} {r : Record} {i fuel depth : Nat}
  {rest : Text}

/-- The nodes of a tree lie on the bench. Each has the children that it has in the tree, and it is their
parent. -/
inductive Carries (b : Bench) : Tree → Prop where
  | node (i : Nat) (ts : List Tree) (r : Record) (record : b.record? (.place i) = some r)
    (children : r.children = ts.map Tree.place) (parent : ∀ t ∈ ts, b.parent? t.place = some i)
    (below : ∀ t ∈ ts, Carries b t) : Carries b (.node i ts)

mutual

/-- What is shown of the nodes of a tree. -/
def figure (b : Bench) : Tree → Except Fault Datum
  | .node i ts => do
    let d ← b.glance (.place i)
    return d.withChildren (← figureAll b ts)

def figureAll (b : Bench) : List Tree → Except Fault (List Datum)
  | [] => return []
  | t :: ts => return (← figure b t) :: (← figureAll b ts)

end

theorem eq_element_of_glance (h : b.record? (.place i) = some r) {d : Datum}
    (hd : b.glance (.place i) = .ok d) :
    ∃ ss, d = .element i r.kind ss (r.children.map fun _ => .none) := by
  have hc : b.cells[i]? = some (.node r) := by
    simp only [record?] at h
    split at h
    · rename_i hc
      cases h
      exact hc
    · cases h
  rw [glance, Handle.viewWith, viewAt, hc] at hd
  obtain ⟨ss, -, hd⟩ := exists_of_bind hd
  cases hd
  exact ⟨ss, rfl⟩

theorem Carries.of_within (h : b.Carries t) (hu : u.Within t) : b.Carries u := by
  induction hu with
  | self => exact h
  | child i ts t mem _ ih =>
    cases h with
    | node _ _ _ _ _ _ below => exact ih (below t mem)

theorem Carries.lt_size (h : b.Carries t) : ∀ j ∈ t.places, j < b.cells.size := by
  induction h with
  | node i ts r record _ _ _ ih =>
    intro j hj
    rw [Tree.places_node, List.mem_cons, List.mem_flatMap] at hj
    rcases hj with rfl | ⟨t, ht, hj⟩
    · by_contra hge
      have hc : b.cells[j]? = none := Array.getElem?_eq_none (by omega)
      simp [record?, hc] at record
    · exact ih t ht j hj

/-- A tree in which each node occurs once has at most as many nodes as lie on the bench. -/
theorem Carries.length_places (h : b.Carries t) (once : t.places.Nodup) :
    t.places.length ≤ b.cells.size := by
  have hsub : t.places ⊆ List.range b.cells.size := fun j hj => List.mem_range.2 (h.lt_size j hj)
  simpa using once.length_le_of_subset hsub

/-! The marks. -/

/-- The marks in front of a child are those that its parent hands down, with its own after them. -/
theorem marks_child {mark filler : Bool → Text} {last : Bool} (hparent : b.parent? t.place = some i)
    (hlast : b.isLast t.place = .ok last) (hrest : b.marks filler filler depth i = .ok rest) :
    b.marks mark filler (depth + 1) t.place = .ok (rest ++ mark last) := by
  rw [marks, hlast, hparent]
  simp only [ok_bind, hrest]
  rfl

/-- The trees are the last children of a node, each of them once, and the node is their parent. -/
structure LastChildren (b : Bench) (i : Nat) (ts : List Tree) : Prop where
  parent : ∀ t ∈ ts, b.parent? t.place = some i
  once : (ts.map Tree.place).Nodup
  suffix : ∃ r, b.record? (.place i) = some r ∧ ts.map Tree.place <:+ r.children

theorem LastChildren.tail (h : b.LastChildren i (t :: ts)) : b.LastChildren i ts where
  parent u hu := h.parent u (List.mem_cons_of_mem t hu)
  once := (List.nodup_cons.1 h.once).2
  suffix := by
    obtain ⟨r, hr, hs⟩ := h.suffix
    exact ⟨r, hr, (List.suffix_cons _ _).trans hs⟩

theorem LastChildren.isLast_head (h : b.LastChildren i (t :: ts)) :
    b.isLast t.place = .ok ts.isEmpty := by
  obtain ⟨r, hr, first, hfirst⟩ := h.suffix
  obtain ⟨last, hl⟩ : ∃ last, ((t :: ts).map Tree.place).getLast? = some last :=
    Option.isSome_iff_exists.1 (by simp)
  have hlast : r.children.getLast? = some last := by
    rw [← hfirst, List.getLast?_append, hl, Option.some_or]
  rw [isLast, h.parent t (by simp), Option.bind_some, hr]
  simp only [hlast]
  cases ts with
  | nil =>
    obtain rfl : t.place = last := by simpa using hl
    simp
  | cons v vs =>
    rw [List.map_cons, List.map_cons, List.getLast?_cons_cons] at hl
    have hne : last ≠ t.place := by
      rintro rfl
      exact (List.nodup_cons.1 h.once).1 (List.mem_of_getLast? hl)
    simp [hne]

/-! The lines. -/

theorem exists_of_figure {d : Datum} (h : b.figure (.node i ts) = .ok d) :
    ∃ e ds, b.glance (.place i) = .ok e ∧ b.figureAll ts = .ok ds ∧ d = e.withChildren ds := by
  rw [figure] at h
  obtain ⟨e, he, h⟩ := exists_of_bind h
  obtain ⟨ds, hds, h⟩ := exists_of_bind h
  cases h
  exact ⟨e, ds, he, hds, rfl⟩

theorem exists_of_figureAll {ds : List Datum} (h : b.figureAll (t :: ts) = .ok ds) :
    ∃ d es, b.figure t = .ok d ∧ b.figureAll ts = .ok es ∧ ds = d :: es := by
  rw [figureAll] at h
  obtain ⟨d, hd, h⟩ := exists_of_bind h
  obtain ⟨es, hes, h⟩ := exists_of_bind h
  cases h
  exact ⟨d, es, hd, hes, rfl⟩

theorem length_figureAll {ds : List Datum} (h : b.figureAll ts = .ok ds) : ds.length = ts.length := by
  induction ts generalizing ds with
  | nil =>
    cases h
    rfl
  | cons t ts ih =>
    obtain ⟨d, es, -, hes, rfl⟩ := exists_of_figureAll h
    rw [List.length_cons, List.length_cons, ih hes]

theorem drawLines_withChildren (hrecord : b.record? (.place i) = some r)
    (hchildren : r.children = ts.map Tree.place) {d : Datum} (hd : b.glance (.place i) = .ok d)
    {ds : List Datum} (hds : b.figureAll ts = .ok ds) (start rest : Text) :
    (d.withChildren ds).drawLines p start rest =
      (start ++ d.caption) :: Datum.drawChildren p rest ds := by
  obtain ⟨ss, rfl⟩ := eq_element_of_glance hrecord hd
  have hlen : ds.length = (r.children.map fun _ => Datum.none).length := by
    rw [List.length_map, hchildren, List.length_map, length_figureAll hds]
  rw [Datum.withChildren, Datum.drawLines, Datum.caption_congr hlen]

theorem drawAt_succ (h : b.record? (.place i) = some r) {start : Text}
    (hstart : b.marks p.mark p.filler depth i = .ok start) :
    b.drawAt p (fuel + 1) depth i = (do
      let d ← b.glance (.place i)
      let below ← r.children.mapM (b.drawAt p fuel (depth + 1))
      return (start ++ d.caption) :: below.flatten) := by
  rw [drawAt, h]
  simp only [hstart, ok_bind]

theorem LastChildren.mapM_drawAt (h : b.LastChildren i ts)
    (hrest : b.marks p.filler p.filler depth i = .ok rest)
    (hdraw : ∀ t ∈ ts, ∀ start below : Text, b.marks p.mark p.filler (depth + 1) t.place = .ok start →
      b.marks p.filler p.filler (depth + 1) t.place = .ok below →
      b.drawAt p fuel (depth + 1) t.place = (b.figure t).map (Datum.drawLines p start below)) :
    ((ts.map Tree.place).mapM (b.drawAt p fuel (depth + 1))).map List.flatten =
      (b.figureAll ts).map (Datum.drawChildren p rest) := by
  induction ts with
  | nil => rfl
  | cons t ts ih =>
    have hparent := h.parent t (by simp)
    have hhead := hdraw t (by simp) _ _ (marks_child hparent h.isLast_head hrest)
      (marks_child hparent h.isLast_head hrest)
    have htail := ih h.tail fun u hu => hdraw u (List.mem_cons_of_mem t hu)
    have hcons (x : List Text) (m : Except Fault (List (List Text))) :
        (do let below ← m; return x :: below).map List.flatten = (m.map List.flatten).map (x ++ ·) := by
      cases m <;> rfl
    rw [List.map_cons, List.mapM_cons, hhead, figureAll]
    cases b.figure t with
    | error f => rfl
    | ok d =>
      have hl := hcons (d.drawLines p (rest ++ p.mark ts.isEmpty) (rest ++ p.filler ts.isEmpty))
        ((ts.map Tree.place).mapM (b.drawAt p fuel (depth + 1)))
      rw [htail] at hl
      refine hl.trans ?_
      cases hds : b.figureAll ts with
      | error f => rfl
      | ok ds =>
        -- the trees and what is shown of them end at the same child
        have hempty : ts.isEmpty = ds.isEmpty := by
          rw [Bool.eq_iff_iff, List.isEmpty_iff_length_eq_zero, List.isEmpty_iff_length_eq_zero,
            length_figureAll hds]
        rw [hempty]
        rfl

/-- A tree is drawn from the top down. The number of its nodes bounds the depth. -/
theorem Carries.drawAt_eq (h : b.Carries t) (once : t.places.Nodup) {start : Text}
    (hfuel : t.places.length ≤ fuel) (hstart : b.marks p.mark p.filler depth t.place = .ok start)
    (hrest : b.marks p.filler p.filler depth t.place = .ok rest) :
    b.drawAt p fuel depth t.place = (b.figure t).map (Datum.drawLines p start rest) := by
  induction h generalizing fuel depth start rest with
  | node i ts r record children parent _ ih =>
    cases fuel with
    | zero => simp [Tree.places] at hfuel
    | succ fuel =>
      have hlast : b.LastChildren i ts := by
        rw [Tree.places_node] at once
        exact ⟨parent, (List.nodup_cons.1 once).2.sublist (Tree.map_place_sublist ts),
          r, record, children ▸ List.suffix_refl _⟩
      have hlength {t : Tree} (ht : t ∈ ts) : t.places.length ≤ fuel := by
        have hl := (Tree.places_sublist_flatMap ht).length_le
        rw [Tree.places_node, List.length_cons] at hfuel
        omega
      have hbelow : ((ts.map Tree.place).mapM (b.drawAt p fuel (depth + 1))).map List.flatten =
          (b.figureAll ts).map (Datum.drawChildren p rest) :=
        hlast.mapM_drawAt hrest fun t ht _ _ =>
          ih t ht (once.sublist (Tree.places_sublist ht i)) (hlength ht)
      have hlines (d : Datum) (m : Except Fault (List (List Text))) :
          (do let below ← m; return (start ++ d.caption) :: below.flatten) =
            (m.map List.flatten).map ((start ++ d.caption) :: ·) := by
        cases m <;> rfl
      rw [Tree.place, drawAt_succ record hstart, figure, children]
      cases hd : b.glance (.place i) with
      | error f => rfl
      | ok d =>
        refine (hlines _ _).trans ?_
        rw [hbelow]
        cases hds : b.figureAll ts with
        | error f => rfl
        | ok ds =>
          have hl := drawLines_withChildren (p := p) record children hd hds start rest
          exact congrArg Except.ok hl.symm

def Shows (b : Bench) (i : Nat) (line : Text) : Prop :=
  ∃ marks d, b.glance (.place i) = .ok d ∧ line = marks ++ d.caption

theorem shows_drawChildren {ds : List Datum} (h : b.figureAll ts = .ok ds)
    (hshows : ∀ t ∈ ts, ∀ d, b.figure t = .ok d → ∀ start rest,
      List.Forall₂ b.Shows t.places (d.drawLines p start rest)) :
    List.Forall₂ b.Shows (Tree.placesAll ts) (Datum.drawChildren p rest ds) := by
  induction ts generalizing ds with
  | nil =>
    cases h
    exact .nil
  | cons t ts ih =>
    obtain ⟨d, es, hd, hes, rfl⟩ := exists_of_figureAll h
    exact List.rel_append (hshows t (by simp) d hd _ _)
      (ih hes fun u hu => hshows u (List.mem_cons_of_mem t hu))

theorem Carries.shows (h : b.Carries t) {d : Datum} (hd : b.figure t = .ok d) (start rest : Text) :
    List.Forall₂ b.Shows t.places (d.drawLines p start rest) := by
  induction h generalizing d start rest with
  | node i ts r record children _ _ ih =>
    obtain ⟨e, ds, he, hds, rfl⟩ := exists_of_figure hd
    rw [drawLines_withChildren record children he hds]
    exact .cons ⟨start, e, he, rfl⟩ (shows_drawChildren hds fun t ht d hd => ih t ht hd)

/-- Where each node of a tree occurs once and the node that it belongs to is its parent, any of them is
drawn as from the top down: the marks that are handed down are those found along the parents, also if
there are more nodes above. It and each node below it have one line, in document order. -/
theorem draw_eq_draw_figure (carries : b.Carries t) (once : t.places.Nodup) (within : u.Within t)
    (p : Pen) : b.draw p (.place u.place) = (b.figure u).map (Datum.draw p) ∧
      ∀ d, b.figure u = .ok d → List.Forall₂ b.Shows u.places (d.drawLines p [] []) := by
  have hu := carries.of_within within
  have honce := once.sublist within.sublist
  have hfuel : u.places.length ≤ b.cells.size + 1 := Nat.le_succ_of_le (hu.length_places honce)
  refine ⟨?_, fun d hd => hu.shows hd [] []⟩
  have hlines (m : Except Fault Datum) : (do
      let lines ← m.map (Datum.drawLines p [] [])
      return Text.ofLines lines) = m.map (Datum.draw p) := by
    cases m <;> rfl
  rw [draw, hu.drawAt_eq honce hfuel rfl rfl]
  exact hlines _

/-- A node that is drawn although it is not the top: its own parent is not looked at. -/
theorem draw_eq_draw_figure_inner :
    let b : Bench := ⟨#[.node ⟨.node, [], [1, 2], none⟩, .node ⟨.node, [], [], some 0⟩,
      .node ⟨.node, [], [3, 4], some 0⟩, .node ⟨.node, [], [5], some 2⟩, .node ⟨.node, [], [], some 2⟩,
      .node ⟨.node, [], [], some 3⟩]⟩
    let u : Tree := .node 2 [.node 3 [.node 5 []], .node 4 []]
    let t : Tree := .node 0 [.node 1 [], u]
    b.Carries t ∧ t.places.Nodup ∧ u.Within t ∧
      b.draw .ascii (.place 2) = .ok (Text.ofLines ["<Node (2 children)>".toList,
        " |-<Node (1 child)>".toList, " |  `-<Node (0 children)>".toList,
        " `-<Node (0 children)>".toList]) := by
  intro b u t
  have h1 : b.Carries (.node 1 []) := .node 1 [] _ rfl rfl (by simp) (by simp)
  have h4 : b.Carries (.node 4 []) := .node 4 [] _ rfl rfl (by simp) (by simp)
  have h5 : b.Carries (.node 5 []) := .node 5 [] _ rfl rfl (by simp) (by simp)
  have h3 : b.Carries (.node 3 [.node 5 []]) :=
    .node 3 _ _ rfl rfl (List.forall_mem_singleton.2 rfl) (List.forall_mem_singleton.2 h5)
  have hu : b.Carries u := .node 2 _ _ rfl rfl
    (List.forall_mem_cons.2 ⟨rfl, List.forall_mem_singleton.2 rfl⟩)
    (List.forall_mem_cons.2 ⟨h3, List.forall_mem_singleton.2 h4⟩)
  have ht : b.Carries t := .node 0 _ _ rfl rfl
    (List.forall_mem_cons.2 ⟨rfl, List.forall_mem_singleton.2 rfl⟩)
    (List.forall_mem_cons.2 ⟨h1, List.forall_mem_singleton.2 hu⟩)
  have hw : u.Within t := .child 0 _ u (by simp) .self
  have honce : t.places.Nodup := by decide
  exact ⟨ht, honce, hw, (draw_eq_draw_figure ht honce hw .ascii).1.trans rfl⟩

end Bench

end Devalang.Draft
