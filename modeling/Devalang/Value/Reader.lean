import Devalang.Value
import Devalang.Split
import Devalang.Number

/-! Reading values. Every text is some value, so reading never fails. -/
namespace Devalang

namespace Text

def between? (first last : Char) (s : Text) : Option Text :=
  match s with
  | [] => none
  | c :: t => if c = first ∧ t.getLast? = some last then some t.dropLast else none

def synthName? (s : Text) : Option Text :=
  match after "synth".toList s with
  | some (c :: t) =>
    let name := trimStart t
    if isBlank c && !name.isEmpty && name.all (!isBlank ·) then some name else none
  | _ => none

theorem length_between? {first last : Char} {s t : Text} (h : between? first last s = some t) :
    t.length < s.length := by
  unfold between? at h
  split at h
  · cases h
  · split at h
    · cases h
      simp only [List.length_dropLast, List.length_cons]; omega
    · cases h

end Text

open Text in
/-- Reads a value. The text is, in this order: nothing (an object without properties), a boolean,
`auto`, a number, a string, a synth, an object; anything else is an identifier. -/
def Value.read (s : Text) : Value :=
  let t := trim s
  if t.isEmpty then .object []
  else if t = "true".toList then .boolean true
  else if t = "false".toList then .boolean false
  else if t = "auto".toList then .identifier t
  else if isNumber t then .number t
  else match between? '"' '"' t, synthName? t with
    | some content, _ => .string content
    | none, some name => .synth name
    | none, none =>
      match _hi : between? '{' '}' t with
      | some inner =>
        if isWhole t then
          .object ((items inner).attach.map fun ⟨pair, _hp⟩ =>
            match _hk : keyValue pair with
            | (key, none) => .bare key
            | (key, some v) => .pair key (Value.read v))
        else .identifier t
      | none => .identifier t
termination_by s.length
decreasing_by
  have h1 := length_between? _hi
  have h2 := length_of_mem_items _hp
  have h3 := length_of_keyValue _hk
  have h4 : t.length ≤ s.length := length_trim_le s
  omega

def Property.read (pair : Text) : Property :=
  match Text.keyValue pair with
  | (key, none) => .bare key
  | (key, some v) => .pair key (Value.read v)

def Property.readAll (s : Text) : List Property := (Text.items s).map Property.read

theorem Value.read_eq (s : Text) :
    Value.read s =
      let t := Text.trim s
      if t.isEmpty then .object []
      else if t = "true".toList then .boolean true
      else if t = "false".toList then .boolean false
      else if t = "auto".toList then .identifier t
      else if Text.isNumber t then .number t
      else match Text.between? '"' '"' t, Text.synthName? t with
        | some content, _ => .string content
        | none, some name => .synth name
        | none, none =>
          match Text.between? '{' '}' t with
          | some inner =>
            if Text.isWhole t then .object (Property.readAll inner) else .identifier t
          | none => .identifier t := by
  have key : ∀ inner, (Text.items inner).attach.map (fun ⟨pair, _⟩ =>
      match _ : Text.keyValue pair with
      | (key, none) => Property.bare key
      | (key, some v) => Property.pair key (Value.read v)) = Property.readAll inner := by
    intro inner
    rw [Property.readAll, ← @List.attach_map_val _ _ (Text.items inner) Property.read]
    apply List.map_congr_left
    rintro ⟨pair, _⟩ _
    simp only [Property.read]
    split <;> split <;> simp_all
  rw [Value.read]
  simp only
  repeat' split
  all_goals simp_all

end Devalang
