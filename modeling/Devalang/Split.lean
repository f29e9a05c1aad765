import Devalang.Token

/-! Splitting a text on separators that are outside of its strings and bracketed groups. -/
namespace Devalang

/-- The texts between the separator pieces; always at least one. -/
def segments (separates : PieceKind → Bool) : List Piece → List Text
  | [] => [[]]
  | p :: ps =>
    if separates p.kind then [] :: segments separates ps
    else match segments separates ps with
      | [] => [p.text]
      | t :: ts => (p.text ++ t) :: ts

theorem length_of_mem_segments {separates : PieceKind → Bool} {ps : List Piece} {t : Text}
    (h : t ∈ segments separates ps) : t.length ≤ (ps.flatMap Piece.text).length := by
  induction ps generalizing t with
  | nil => simp_all [segments]
  | cons p ps ih =>
    rw [segments] at h
    simp only [List.flatMap_cons, List.length_append]
    split at h
    · rcases List.mem_cons.1 h with h | h
      · simp [h]
      · exact Nat.le_trans (ih h) (Nat.le_add_left ..)
    · cases hs : segments separates ps with
      | nil => rw [hs] at h; simp_all
      | cons u us =>
        rw [hs] at h ih
        rcases List.mem_cons.1 h with h | h
        · have := ih List.mem_cons_self
          simp only [h, List.length_append]; omega
        · exact Nat.le_trans (ih (List.mem_cons_of_mem _ h)) (Nat.le_add_left ..)

namespace Text

theorem length_trim_le (s : Text) : (trim s).length ≤ s.length := by
  have h1 := dropWhile_length isBlank s
  have h2 := dropWhile_length isBlank (s.dropWhile isBlank).reverse
  simp only [trim, trimEnd, trimStart, List.length_reverse] at *
  omega

def separatedBy (separates : PieceKind → Bool) (s : Text) : List Text :=
  ((segments separates (Tokens.ofText s).pieces).map trim).filter (!·.isEmpty)

/-- The arguments of a trigger: split on blanks and commas, empty ones left out. -/
def arguments (s : Text) : List Text := separatedBy (fun k => k == .space || k == .comma) s

def items (s : Text) : List Text := separatedBy (· == .comma) s

/-- The links of an arrow chain, empty ones included, so that a missing link can be seen. -/
def links (s : Text) : List Text :=
  (segments (· == .arrow) (Tokens.ofText s).pieces).map trim

def keyValue (s : Text) : Text × Option Text :=
  let ps := (Tokens.ofText s).pieces
  match ps.dropWhile (·.kind != .colon) with
  | [] => (trim s, none)
  | _ :: after =>
    (trim ((ps.takeWhile (·.kind != .colon)).flatMap Piece.text), some (trim (after.flatMap Piece.text)))

/-- The text is a single piece with nothing left open, such as one closed group. -/
def isWhole (s : Text) : Bool :=
  (Tokens.ofText s).pieces.length == 1 && (Tokens.ofText s).opens.isEmpty

theorem length_of_mem_items {s t : Text} (h : t ∈ items s) : t.length ≤ s.length := by
  simp only [items, separatedBy, List.mem_filter, List.mem_map] at h
  obtain ⟨⟨u, hu, rfl⟩, _⟩ := h
  have h1 := length_of_mem_segments hu
  rw [Tokens.flatMap_text_ofText] at h1
  exact Nat.le_trans (length_trim_le u) h1

theorem length_of_keyValue {s k v : Text} (h : keyValue s = (k, some v)) : v.length ≤ s.length := by
  simp only [keyValue] at h
  split at h
  · cases h
  · rename_i p after ha
    cases h
    have h1 := congrArg (fun l => (l.flatMap Piece.text).length)
      (List.takeWhile_append_dropWhile (p := (·.kind != .colon)) (l := (Tokens.ofText s).pieces))
    simp only [ha, List.flatMap_append, List.flatMap_cons, Tokens.flatMap_text_ofText,
      List.length_append] at h1
    have := length_trim_le (after.flatMap Piece.text)
    omega

end Text

end Devalang
