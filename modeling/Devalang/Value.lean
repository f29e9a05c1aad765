import Devalang.Text.Basic

/-! Values: what stands on the right of a `let`, after `sleep` and in the arguments of a trigger. -/
namespace Devalang

mutual

/-- A value keeps the text of its parts as they were written. -/
inductive Value where
  /-- A name, and any text that is no other value. -/
  | identifier (name : Text)
  | number (digits : Text)
  /-- A string, by the text between its quotes. -/
  | string (content : Text)
  | boolean (value : Bool)
  /-- A value that was spread over several lines. -/
  | raw (text : Text)
  | synth (name : Text)
  | object (properties : List Property)

/-- A property of an object; a bare key has no value. -/
inductive Property where
  | bare (key : Text)
  | pair (key : Text) (value : Value)

end

deriving instance Repr for Value, Property

def Property.key : Property → Text
  | bare k => k
  | pair k _ => k

def Property.value? : Property → Option Value
  | bare _ => none
  | pair _ v => some v

def writeObject (properties : List Text) : Text :=
  '{' :: Text.join [',', ' '] properties ++ ['}']

mutual

def Value.write : Value → Text
  | .identifier n => n
  | .number t => t
  | .string c => '"' :: c ++ ['"']
  | .boolean true => "true".toList
  | .boolean false => "false".toList
  | .raw t => t
  | .synth n => "synth ".toList ++ n
  | .object ps => writeObject (Property.writeAll ps)

def Property.write : Property → Text
  | .bare k => k
  | .pair k v => k ++ ": ".toList ++ v.write

def Property.writeAll : List Property → List Text
  | [] => []
  | p :: ps => p.write :: Property.writeAll ps

end

theorem Property.writeAll_eq_map (ps : List Property) : writeAll ps = ps.map write := by
  induction ps with
  | nil => rfl
  | cons p ps ih => rw [writeAll, ih, List.map_cons]

mutual

def Value.decEq : (v w : Value) → Decidable (v = w)
  | .identifier a, .identifier b => decidable_of_iff (a = b) (by simp)
  | .number a, .number b => decidable_of_iff (a = b) (by simp)
  | .string a, .string b => decidable_of_iff (a = b) (by simp)
  | .boolean a, .boolean b => decidable_of_iff (a = b) (by simp)
  | .raw a, .raw b => decidable_of_iff (a = b) (by simp)
  | .synth a, .synth b => decidable_of_iff (a = b) (by simp)
  | .object ps, .object qs =>
    have := Property.decEqAll ps qs
    decidable_of_iff (ps = qs) (by simp)
  | .identifier _, .number _ | .identifier _, .string _ | .identifier _, .boolean _
  | .identifier _, .raw _ | .identifier _, .synth _ | .identifier _, .object _
  | .number _, .identifier _ | .number _, .string _ | .number _, .boolean _
  | .number _, .raw _ | .number _, .synth _ | .number _, .object _
  | .string _, .identifier _ | .string _, .number _ | .string _, .boolean _
  | .string _, .raw _ | .string _, .synth _ | .string _, .object _
  | .boolean _, .identifier _ | .boolean _, .number _ | .boolean _, .string _
  | .boolean _, .raw _ | .boolean _, .synth _ | .boolean _, .object _
  | .raw _, .identifier _ | .raw _, .number _ | .raw _, .string _
  | .raw _, .boolean _ | .raw _, .synth _ | .raw _, .object _
  | .synth _, .identifier _ | .synth _, .number _ | .synth _, .string _
  | .synth _, .boolean _ | .synth _, .raw _ | .synth _, .object _
  | .object _, .identifier _ | .object _, .number _ | .object _, .string _
  | .object _, .boolean _ | .object _, .raw _ | .object _, .synth _ => isFalse (by simp)

def Property.decEq : (p q : Property) → Decidable (p = q)
  | .bare a, .bare b => decidable_of_iff (a = b) (by simp)
  | .pair a v, .pair b w =>
    have := Value.decEq v w
    decidable_of_iff (a = b ∧ v = w) (by simp)
  | .bare _, .pair _ _ | .pair _ _, .bare _ => isFalse (by simp)

def Property.decEqAll : (ps qs : List Property) → Decidable (ps = qs)
  | [], [] => isTrue rfl
  | p :: ps, q :: qs =>
    have := Property.decEq p q
    have := Property.decEqAll ps qs
    decidable_of_iff (p = q ∧ ps = qs) (by simp)
  | [], _ :: _ | _ :: _, [] => isFalse (by simp)

end

instance : DecidableEq Value := Value.decEq
instance : DecidableEq Property := Property.decEq

end Devalang
