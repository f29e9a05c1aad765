import Devalang.Text.Basic

/-! Pieces of a text: separators, and stretches of text in which every string and every bracketed
group is whole. -/
namespace Devalang

inductive Delimiter where
  | quote | brace | paren | bracket
deriving DecidableEq, Repr

namespace Delimiter

def opener : Delimiter → Char
  | quote => '"' | brace => '{' | paren => '(' | bracket => '['

def closer : Delimiter → Char
  | quote => '"' | brace => '}' | paren => ')' | bracket => ']'

def ofOpener? (c : Char) : Option Delimiter :=
  if c = '"' then some quote
  else if c = '{' then some brace
  else if c = '(' then some paren
  else if c = '[' then some bracket
  else none

theorem opener_of_ofOpener? {c : Char} {d : Delimiter} (h : ofOpener? c = some d) : d.opener = c := by
  unfold ofOpener? at h
  split at h
  · cases h; simp_all [opener]
  · split at h
    · cases h; simp_all [opener]
    · split at h
      · cases h; simp_all [opener]
      · split at h
        · cases h; simp_all [opener]
        · cases h

end Delimiter

inductive PieceKind where
  | space | comma | colon | arrow | text
deriving DecidableEq, Repr

structure Piece where
  kind : PieceKind
  text : Text
deriving DecidableEq, Repr

structure Tokens where
  pieces : List Piece
  opens : List Delimiter
deriving DecidableEq, Repr

/-- What follows an opening delimiter: the text up to and with its closer, the delimiters still
open if the text ends first, and the rest of the text. -/
structure Group where
  text : Text
  opens : List Delimiter
  rest : Text

namespace Group

def cons (c : Char) (g : Group) : Group := ⟨c :: g.text, g.opens, g.rest⟩

/-- A group `inner` that was opened by `c`, followed by what remains of the outer group. -/
def nest (c : Char) (inner outer : Group) : Group where
  text := c :: inner.text ++ outer.text
  opens := match outer.opens with
    | [] => []
    | d :: more => d :: (inner.opens ++ more)
  rest := outer.rest

/-- Reads a string or group whose opening delimiter `d` has been read. In a string a backslash is
read together with the character after it, unless that is a newline; in a bracketed group strings
and groups are read whole, and other closers are plain text. -/
def read (d : Delimiter) : (s : Text) → { g : Group // g.rest.length ≤ s.length }
  | [] => ⟨⟨[], [d], []⟩, Nat.le_refl _⟩
  | c :: s =>
    if d = .quote then
      if c = '"' then ⟨⟨[c], [], s⟩, by simp⟩
      else
        match s with
        | [] => ⟨⟨[c], [d], []⟩, by simp⟩
        | e :: t =>
          if c = '\\' ∧ e ≠ '\n' then
            let ⟨g, hg⟩ := read d t
            ⟨(g.cons e).cons c, by simp only [cons, List.length_cons]; omega⟩
          else
            let ⟨g, hg⟩ := read d (e :: t)
            ⟨g.cons c, by simp only [cons, List.length_cons] at *; omega⟩
    else if c = d.closer then ⟨⟨[c], [], s⟩, by simp⟩
    else
      match Delimiter.ofOpener? c with
      | some inner =>
        let ⟨g, hg⟩ := read inner s
        let ⟨h, hh⟩ := read d g.rest
        ⟨nest c g h, by simp only [nest, List.length_cons]; omega⟩
      | none =>
        let ⟨g, hg⟩ := read d s
        ⟨g.cons c, by simp only [cons, List.length_cons]; omega⟩
termination_by s => s.length
decreasing_by all_goals (simp_wf; try omega)

theorem text_append_rest (d : Delimiter) (s : Text) :
    (read d s).1.text ++ (read d s).1.rest = s := by
  fun_induction read d s <;> simp_all [cons, nest]

end Group

def stopsText : Text → Bool
  | [] => true
  | '-' :: '>' :: _ => true
  | c :: _ => Text.isBlank c || c == ',' || c == ':' || (Delimiter.ofOpener? c).isSome

def plainText : Text → Text × Text
  | [] => ([], [])
  | c :: s => if stopsText (c :: s) then ([], c :: s) else ((c :: (plainText s).1), (plainText s).2)

theorem plainText_append (s : Text) : (plainText s).1 ++ (plainText s).2 = s := by
  induction s with
  | nil => rfl
  | cons c s ih => rw [plainText]; split <;> simp [ih]

theorem plainText_length (s : Text) : (plainText s).2.length ≤ s.length := by
  induction s with
  | nil => simp [plainText]
  | cons c s ih =>
    rw [plainText]
    split
    · simp
    · simp only [List.length_cons]; omega

theorem dropWhile_length (p : Char → Bool) (s : Text) : (s.dropWhile p).length ≤ s.length :=
  (List.dropWhile_suffix p).length_le

namespace Tokens

def cons (p : Piece) (t : Tokens) : Tokens := ⟨p :: t.pieces, t.opens⟩

/-- The pieces of a text. Runs of blanks, commas, colons and arrows outside strings and groups are
separators; a string or group is one piece, also when the text ends inside it. -/
def ofText : Text → Tokens
  | [] => ⟨[], []⟩
  | '-' :: '>' :: s => (ofText s).cons ⟨.arrow, ['-', '>']⟩
  | c :: s =>
    if Text.isBlank c then
      (ofText (s.dropWhile Text.isBlank)).cons ⟨.space, c :: s.takeWhile Text.isBlank⟩
    else if c = ',' then (ofText s).cons ⟨.comma, [c]⟩
    else if c = ':' then (ofText s).cons ⟨.colon, [c]⟩
    else match Delimiter.ofOpener? c with
      | some d =>
        let ⟨g, _⟩ := Group.read d s
        let t := ofText g.rest
        ⟨⟨.text, c :: g.text⟩ :: t.pieces, g.opens ++ t.opens⟩
      | none =>
        (ofText (plainText s).2).cons ⟨.text, c :: (plainText s).1⟩
termination_by s => s.length
decreasing_by
  all_goals
    simp_wf
    try
      have := dropWhile_length Text.isBlank s
      have := plainText_length s
      omega

theorem flatMap_text_ofText (s : Text) : (ofText s).pieces.flatMap Piece.text = s := by
  fun_induction ofText s with
  | case1 => rfl
  | case2 s ih => simp [cons, ih]
  | case3 c s _ _ ih => simp [cons, ih, List.takeWhile_append_dropWhile]
  | case4 s _ _ ih => simp [cons, ih]
  | case5 s _ _ _ ih => simp [cons, ih]
  | case6 c s _ _ _ _ d _ g hg h t ih =>
    have := Group.text_append_rest d s
    rw [h] at this
    simp [t, ih, this]
  | case7 c s _ _ _ _ _ ih => simp [cons, ih, plainText_append]

end Tokens

def Text.openDelimiters (s : Text) : List Delimiter := (Tokens.ofText s).opens

end Devalang
