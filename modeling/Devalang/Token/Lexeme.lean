import Devalang.Token
import Devalang.Text.Cut

/-! The tokens of a text in a tree: what stands in a string or group is in a context of its own, which
has its own rules. The pieces of the text follow from the tree. -/
namespace Devalang

inductive Transition where
  | stay
  | enter (d : Delimiter)
  | leave
deriving DecidableEq, Repr

structure Rule where
  kind : PieceKind
  transition : Transition
  match? : Text → Option (Text × Text)
  splits : ∀ s m r, match? s = some (m, r) → m ++ r = s ∧ m ≠ []

namespace Rule

def blanks : Rule where
  kind := .space
  transition := .stay
  match? := Text.run? Text.isBlank
  splits := by
    intro s m r h
    rw [Text.run?] at h
    split at h
    · cases h
    · rename_i hne
      cases h
      exact ⟨List.takeWhile_append_dropWhile, by simpa using hne⟩

def word (kind : PieceKind) (transition : Transition) (c : Char) (w : Text) : Rule where
  kind := kind
  transition := transition
  match? s := (Text.after (c :: w) s).map fun r => (c :: w, r)
  splits := by
    intro s m r h
    obtain ⟨r, hr, he⟩ := Option.map_eq_some_iff.1 h
    cases he
    exact ⟨(Text.after_eq_some_iff.1 hr).symm, by simp⟩

def escape : Rule where
  kind := .text
  transition := .stay
  match?
    | '\\' :: e :: s => if e = '\n' then none else some (['\\', e], s)
    | _ => none
  splits := by
    intro s m r h
    split at h
    · split at h
      · cases h
      · cases h
        exact ⟨rfl, by simp⟩
    · cases h

def openers : List Rule :=
  [Delimiter.quote, .brace, .paren, .bracket].map fun d => word .text (.enter d) d.opener []

end Rule

/-- Where a token stands: outside of strings and groups, or directly inside of one. -/
inductive Lexicon where
  | root
  | inside (d : Delimiter)
deriving DecidableEq, Repr

/-- A token, or a string or group with the tokens and groups in it, its delimiters included. -/
inductive Lexeme where
  | token (kind : PieceKind) (text : Text)
  | group (d : Delimiter) (items : List Lexeme)

namespace Lexicon

/-- The rules of a context, in the order in which they are tried. -/
def rules : Lexicon → List Rule
  | root =>
    [.blanks, .word .comma .stay ',' [], .word .arrow .stay '-' ['>'], .word .colon .stay ':' []] ++
      Rule.openers
  | inside .quote => [.escape, .word .text .leave '"' []]
  | inside d => .word .text .leave d.closer [] :: Rule.openers

def first? (l : Lexicon) (s : Text) : Option (Rule × Text × Text) :=
  l.rules.findSome? fun r => (r.match? s).map fun m => (r, m)

theorem splits_of_first? {l : Lexicon} {s m r : Text} {rule : Rule}
    (h : l.first? s = some (rule, m, r)) : m ++ r = s ∧ m ≠ [] := by
  obtain ⟨_, -, h⟩ := List.exists_of_findSome?_eq_some h
  obtain ⟨x, hx, he⟩ := Option.map_eq_some_iff.1 h
  cases he
  exact rule.splits s m r hx

theorem length_of_first? {l : Lexicon} {s m r : Text} {rule : Rule}
    (h : l.first? s = some (rule, m, r)) : r.length < s.length := by
  obtain ⟨rfl, hne⟩ := splits_of_first? h
  rw [List.length_append]
  exact Nat.lt_add_of_pos_left (List.length_pos_iff.2 hne)

def stretch (l : Lexicon) : Text → Text × Text
  | [] => ([], [])
  | c :: s =>
    if (l.first? (c :: s)).isSome then ([], c :: s) else (c :: (stretch l s).1, (stretch l s).2)

theorem stretch_append (l : Lexicon) (s : Text) : (l.stretch s).1 ++ (l.stretch s).2 = s := by
  induction s with
  | nil => rfl
  | cons c s ih => rw [stretch]; split <;> simp [ih]

theorem length_stretch (l : Lexicon) (s : Text) : (l.stretch s).2.length ≤ s.length := by
  have h := congrArg List.length (l.stretch_append s)
  rw [List.length_append] at h
  omega

/-- Reads up to the end of a context. The first match from the left counts; what stands in front of it
is one token. -/
def read (l : Lexicon) : (s : Text) → { r : List Lexeme × Text // r.2.length ≤ s.length }
  | [] => ⟨([], []), Nat.le_refl _⟩
  | c :: s =>
    match h : l.first? (c :: s) with
    | none =>
      let ⟨(items, rest), hr⟩ := read l (l.stretch s).2
      ⟨(.token .text (c :: (l.stretch s).1) :: items, rest), by
        have := l.length_stretch s
        simp only [List.length_cons] at *
        omega⟩
    | some (rule, m, rest) =>
      have hlt := length_of_first? h
      match rule.transition with
      | .stay =>
        let ⟨(items, rest), hr⟩ := read l rest
        ⟨(.token rule.kind m :: items, rest), by dsimp only at *; omega⟩
      | .leave => ⟨([.token rule.kind m], rest), by dsimp only; omega⟩
      | .enter d =>
        let ⟨(inner, rest), hi⟩ := read (.inside d) rest
        let ⟨(items, rest), hr⟩ := read l rest
        ⟨(.group d (.token rule.kind m :: inner) :: items, rest), by dsimp only at *; omega⟩
termination_by s => s.length
decreasing_by
  · exact Nat.lt_succ_of_le (l.length_stretch s)
  · exact hlt
  · exact hlt
  · exact Nat.lt_of_le_of_lt hi hlt

end Lexicon

namespace Lexeme

mutual

def text : Lexeme → Text
  | token _ t => t
  | group _ items => textAll items

def textAll : List Lexeme → Text
  | [] => []
  | l :: ls => l.text ++ textAll ls

end

def isToken : Lexeme → Bool
  | token _ _ => true
  | group _ _ => false

def closes (d : Delimiter) : Lexeme → Bool
  | token _ t => t == [d.closer]
  | group _ _ => false

/-- The last item of a string or group is its closing delimiter. In a string that has only one item this
is the opening one. -/
def isClosed (d : Delimiter) (items : List Lexeme) : Bool :=
  items.getLast?.any (closes d) && (d != .quote || 1 < items.length)

mutual

def opens : Lexeme → List Delimiter
  | token _ _ => []
  | group d items => if isClosed d items then [] else d :: lastOpens [] items

/-- What the last group leaves open, or what was `found` before if there is none. -/
def lastOpens : (found : List Delimiter) → List Lexeme → List Delimiter
  | found, [] => found
  | found, l :: ls => lastOpens (if l.isToken then found else l.opens) ls

end

def piece : Lexeme → Piece
  | token k t => ⟨k, t⟩
  | group d items => ⟨.text, text (group d items)⟩

end Lexeme

def Tokens.ofLexemes (items : List Lexeme) : Tokens :=
  ⟨items.map Lexeme.piece, Lexeme.lastOpens [] items⟩

def Text.lexemes (s : Text) : List Lexeme := (Lexicon.root.read s).1.1

end Devalang
