import Devalang.Token

/-! The pieces of a text found in one pass from left to right, with the open delimiters on a stack. -/
namespace Devalang

/-- What has been found: the finished pieces, the piece that may still go on, and the delimiters that
are open, innermost first. -/
structure Scan where
  pieces : List Piece
  current : Option Piece
  stack : List Delimiter
deriving DecidableEq, Repr

namespace Scan

def start : Scan := ⟨[], none, []⟩

def finish (s : Scan) : Scan := ⟨s.pieces ++ s.current.toList, none, s.stack⟩

/-- Adds to the current piece, or starts another one if that is of another kind. -/
def extend (s : Scan) (kind : PieceKind) (t : Text) : Scan :=
  match s.current with
  | some p =>
    if p.kind = kind then { s with current := some ⟨kind, p.text ++ t⟩ }
    else { s.finish with current := some ⟨kind, t⟩ }
  | none => { s with current := some ⟨kind, t⟩ }

def single (s : Scan) (kind : PieceKind) (t : Text) : Scan :=
  { s.finish with pieces := s.finish.pieces ++ [⟨kind, t⟩] }

/-- Opens a string or group. Outside of others it starts a piece. -/
def push (s : Scan) (d : Delimiter) : Scan :=
  let s := if s.stack.isEmpty then s.finish else s
  { s.extend .text [d.opener] with stack := d :: s.stack }

/-- Closes the innermost string or group. If it is not inside of another one, its piece ends. -/
def pop (s : Scan) (c : Char) : Scan :=
  let s := { s.extend .text [c] with stack := s.stack.tail }
  if s.stack.isEmpty then s.finish else s

def one (s : Scan) (c : Char) : Scan :=
  match s.stack with
  | [] =>
    if Text.isBlank c then s.extend .space [c]
    else if c = ',' then s.single .comma [c]
    else if c = ':' then s.single .colon [c]
    else match Delimiter.ofOpener? c with
      | some d => s.push d
      | none => s.extend .text [c]
  | d :: _ =>
    if c = d.closer then s.pop c
    else match d, Delimiter.ofOpener? c with
      | .quote, _ | _, none => s.extend .text [c]
      | _, some inner => s.push inner

/-- Two characters are read together: an arrow outside of strings and groups, and in a string a
backslash and the character after it, unless that is a newline. -/
def pairs (s : Scan) (c e : Char) : Bool :=
  match s.stack with
  | [] => c == '-' && e == '>'
  | d :: _ => d == .quote && c == '\\' && e != '\n'

def two (s : Scan) (c e : Char) : Scan :=
  if s.stack.isEmpty then s.single .arrow [c, e] else s.extend .text [c, e]

def run : Scan → Text → Scan
  | s, [] => s.finish
  | s, [c] => (s.one c).finish
  | s, c :: e :: t => if s.pairs c e then run (s.two c e) t else run (s.one c) (e :: t)

end Scan

def Tokens.scan (s : Text) : Tokens :=
  ⟨(Scan.start.run s).pieces, (Scan.start.run s).stack.reverse⟩

example : Tokens.scan "a -> f(x: \")\", [".toList = Tokens.ofText "a -> f(x: \")\", [".toList := by
  decide +kernel

end Devalang
