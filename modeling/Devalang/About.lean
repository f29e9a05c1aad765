import Devalang.Text.Quoted
import Devalang.Number

/-! What the tool tells about itself and about its work: its name and version, and its remarks on lines that
could not be read or were left as they are. Lines are counted from zero here and from one in the messages. -/
namespace Devalang.About

def name : String := "devafmt"

def version : List Nat := [0, 1, 0]

def versionText : String := String.intercalate "." (version.map toString)

end Devalang.About

namespace Devalang

inductive Remark where
  | unknownStatement (line : Nat) (content : Text)
  /-- There is no `if` that the branch could continue. -/
  | branchWithoutIf (line : Nat) (content : Text)
  /-- The `if` has an `else` branch already. -/
  | secondElse (line : Nat)
  /-- There is no `param` block that the brace could close. -/
  | noParam (line : Nat)
  /-- The written statement would be wider than allowed. -/
  | tooWide (line : Nat) (width : Int)
deriving DecidableEq, Repr

namespace Remark

def atLine (line : Nat) (s : Text) : Text := "line ".toList ++ Text.ofNat (line + 1) ++ ": ".toList ++ s

def message : Remark → Text
  | unknownStatement line content => atLine line ("unknown statement: ".toList ++ content.quoted)
  | branchWithoutIf line content => atLine line (content.quoted ++ " without if".toList)
  | secondElse line => atLine line "second else for the same if".toList
  | noParam line => atLine line "no param block to close".toList
  | tooWide line width =>
    atLine line ("keeping line, formatted line exceeds ".toList ++ Text.ofInt width ++
      " characters".toList)

def channel : Remark → String
  | tooWide _ _ => "devafmt.printer"
  | _ => "devafmt.parser"

end Remark

end Devalang
