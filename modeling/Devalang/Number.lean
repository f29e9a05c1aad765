import Devalang.Decimal.Shortest
import Devalang.Text.Digit
import Devalang.Text.Lowercase
import Devalang.Fault

/-! Numbers: recognising, reading and writing them. -/
namespace Devalang

/-- A number as it was written, or one that was computed. -/
inductive Number where
  | written (text : Text)
  | integer (value : Int)
  | double (value : Double)
deriving DecidableEq

namespace Text

/-- The text is a decimal number such as `4` or `1.5`: digits, then perhaps a point and digits. -/
def isNumber (s : Text) : Bool :=
  !(s.takeWhile isDigit).isEmpty &&
  match s.dropWhile isDigit with
  | [] => true
  | c :: f => c == '.' && !f.isEmpty && f.all isDigit

def isFraction (s : Text) : Bool :=
  !(s.takeWhile isDigit).isEmpty &&
  match s.dropWhile isDigit with
  | [] => false
  | c :: f => c == '/' && !f.isEmpty && f.all isDigit

/-- The number that the digits of a text spell; other characters are passed over. -/
def digitsValue (s : Text) : Nat := (s.filterMap digitValue?).foldl (fun n d => 10 * n + d) 0

/-- Digits with single underscores between them. -/
def isDigitGroup : Text → Bool
  | [] => false
  | [c] => isDigit c
  | c :: '_' :: s => isDigit c && isDigitGroup s
  | c :: s => isDigit c && isDigitGroup s

def splitSign : Text → Bool × Text
  | '-' :: s => (true, s)
  | '+' :: s => (false, s)
  | s => (false, s)

/-- Reads a whole number, with a sign, blanks around it and underscores between the digits. -/
def readInteger (s : Text) : Except Fault Int :=
  let (negative, ds) := splitSign (trim s)
  if !isDigitGroup ds then .error .notANumber
  else if (ds.filter isDigit).length > 4300 then .error .tooManyDigits
  else .ok (if negative then -(digitsValue ds) else digitsValue ds)

def readPoint (s : Text) : Option (Text × Nat) :=
  let whole := s.takeWhile (· != '.')
  match s.dropWhile (· != '.') with
  | [] => if isDigitGroup whole then some (whole, 0) else none
  | _ :: part =>
    if (isDigitGroup whole || whole.isEmpty) && (isDigitGroup part || part.isEmpty) &&
        !(whole.isEmpty && part.isEmpty) then
      some (whole ++ part, (part.filter isDigit).length)
    else none

/-- Reads a floating point number: digits with perhaps a point and an exponent, `inf` or `nan`. -/
def readDouble (s : Text) : Except Fault Double :=
  let (negative, s) := splitSign (trim s)
  let word := lower s
  if word = "inf".toList ∨ word = "infinity".toList then .ok (.infinity negative)
  else if word = "nan".toList then .ok .nan
  else
    let isMark (c : Char) := c == 'e' || c == 'E'
    let exponent : Option Int := match s.dropWhile (!isMark ·) with
      | [] => some 0
      | _ :: e =>
        let (below, ds) := splitSign e
        if isDigitGroup ds then some (if below then -(digitsValue ds) else digitsValue ds) else none
    match readPoint (s.takeWhile (!isMark ·)), exponent with
    | some (ds, places), some e => .ok (.ofDecimal negative ⟨digitsValue ds, e - places⟩)
    | _, _ => .error .notANumber

def readNumber (s : Text) : Except Fault Number :=
  if s.contains '.' then (readDouble s).map .double else (readInteger s).map .integer

def ofNat (n : Nat) : Text := Nat.toDigits 10 n

def ofInt (i : Int) : Text := if i < 0 then '-' :: ofNat i.natAbs else ofNat i.natAbs

end Text

def Decimal.positional (d : Decimal) : Text :=
  let ds := Text.ofNat d.digits
  let point : Int := ds.length + d.exponent
  let zeros (n : Int) : Text := List.replicate n.toNat '0'
  if point ≤ 0 then '0' :: '.' :: zeros (-point) ++ ds
  else if ds.length ≤ point then ds ++ zeros d.exponent
  else ds.take point.toNat ++ '.' :: ds.drop point.toNat

/-- The digits with the point after the first one, and the exponent with its sign in at least two
digits. -/
def Decimal.scientific (d : Decimal) : Text :=
  let ds := Text.ofNat d.digits
  let e : Int := ds.length + d.exponent - 1
  let es := Text.ofNat e.natAbs
  (match ds with
    | c :: f :: fs => c :: '.' :: f :: fs
    | ds => ds)
  ++ 'e' :: (if e < 0 then '-' else '+') :: (List.replicate (2 - es.length) '0' ++ es)

namespace Double

/-- How values are shown: the shortest digits, positionally from `0.0001` up to below `10 ^ 16` and
always with a point, outside of that range with an exponent. -/
def shown (x : Double) : Text :=
  if x.isNaN then "nan".toList
  else
    let size :=
      if x.isInfinite then "inf".toList
      else
        let d := x.shortest
        let e : Int := (Text.ofNat d.digits).length + d.exponent - 1
        if d.digits = 0 then "0.0".toList
        else if -4 ≤ e ∧ e < 16 then
          if 0 ≤ d.exponent then d.positional ++ ".0".toList else d.positional
        else d.scientific
    if x.isNegative then '-' :: size else size

/-- How values are written in a document: whole values exactly and without a point, all others
by the shortest digits without exponent. -/
def plain (x : Double) : Text :=
  if x.isNaN then "NaN".toList
  else if x.isInfinite then (if x.isNegative then "-Infinity" else "Infinity").toList
  else match x.toInt? with
    | some i => Text.ofInt i
    | none => if x.isNegative then '-' :: x.shortest.positional else x.shortest.positional

end Double

namespace Number

def toText : Number → Text
  | written t => t
  | integer i => Text.ofInt i
  | double x => x.plain

def value : Number → Except Fault Number
  | written t => t.readNumber
  | n => .ok n

end Number

example : (Double.ofDecimal false ⟨1, -1⟩).shown = "0.1".toList := by decide +kernel
example : (Double.ofDecimal true ⟨15, -11⟩).shown = "-1.5e-10".toList := by decide +kernel
example : (Double.ofDecimal false ⟨1, 23⟩).shown = "1e+23".toList := by decide +kernel
example : (Double.ofDecimal false ⟨1, 23⟩).plain = "99999999999999991611392".toList := by decide +kernel
example : (Double.ofDecimal false ⟨5, -324⟩).shown = "5e-324".toList := by decide +kernel
example : (Double.ofDecimal false ⟨1, 15⟩).shown = "1000000000000000.0".toList := by decide +kernel

end Devalang
