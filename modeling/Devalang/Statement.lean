import Devalang.Value
import Devalang.Duration

/-! Statements: the simple ones take one line of their own, the headers open a block. -/
namespace Devalang

structure Call where
  method : Text
  arguments : List Text
deriving DecidableEq, Repr

inductive Separator where
  | equals | colon
deriving DecidableEq, Repr

/-- An argument of a trigger. The properties of its objects are arguments of their own. -/
inductive Argument where
  | property (p : Property)
  | value (v : Value)
deriving DecidableEq

inductive Simple where
  | blank
  | comment (text : Text)
  /-- A line that is no other statement. -/
  | unknown (text : Text)
  | bpm (identifier : Text)
  | bank (identifier : Text) (knownAs : Option Text)
  | plugin (name : Text) (knownAs : Option Text)
  | declare (name : Text) (value : Value)
  | emit (name : Text) (payload : Option Text)
  | print (expression : Text)
  | imports (names : List Text) (source : Text)
  | exports (names : List Text)
  | load (path knownAs : Text)
  | call (identifier : Text)
  | spawn (identifier : Text)
  | sleep (value : Value)
  | pattern (name instrument steps : Text)
  | keyframe (position : Text) (separator : Separator) (value : Text)
  | trigger (name : Text) (duration : Option Duration) (arguments : List Argument)
  /-- A call of the target, and the calls chained after it. -/
  | arrow (target : Text) (first : Call) (more : List Call)
deriving DecidableEq

inductive Header where
  | loop (iterator : Value)
  | group (name : Text)
  | on (event : Text)
  | fn (name : Text) (parameters : List Text)
  | each (item iterator : Text)
  | automate (target : Text)
  | param (name : Text)
  | conditional (condition : Text)
  | elseIf (condition : Text)
  | otherwise
deriving DecidableEq

inductive Statement where
  | simple (s : Simple)
  | block (h : Header)
deriving DecidableEq

namespace Statement

def isBlock : Statement → Bool
  | simple _ => false
  | block _ => true

def isConditional : Statement → Bool
  | block (.conditional _) => true
  | _ => false

def isParam : Statement → Bool
  | block (.param _) => true
  | _ => false

end Statement

def Header.label : Header → Text
  | loop _ => "Loop".toList
  | group _ => "Group".toList
  | on _ => "On".toList
  | fn _ _ => "Fn".toList
  | each _ _ => "For".toList
  | automate _ => "Automate".toList
  | param _ => "Param".toList
  | conditional _ => "If".toList
  | elseIf _ => "ElseIf".toList
  | otherwise => "Else".toList

/-! The text of statements. -/

def comma : Text := [',', ' ']

/-- An alias is added unless there is none or it is empty. -/
def withAlias (s : Text) : Option Text → Text
  | none => s
  | some [] => s
  | some a => s ++ " as ".toList ++ a

def writeNames (names : List Text) : Text :=
  if names.isEmpty then ['{', '}'] else '{' :: ' ' :: Text.join comma names ++ [' ', '}']

def Call.write (c : Call) : Text := c.method ++ '(' :: Text.join comma c.arguments ++ [')']

def writePending : List Property → List Text
  | [] => []
  | p :: ps => [writeObject ((p :: ps).map Property.write)]

/-- The texts of arguments after `pending` properties; properties next to one another are written
as one object. -/
def writeArguments : (pending : List Property) → List Argument → List Text
  | pending, [] => writePending pending
  | pending, .property p :: as => writeArguments (pending ++ [p]) as
  | pending, .value v :: as => writePending pending ++ v.write :: writeArguments [] as

/-- The parts of a trigger, separated by spaces; a duration comes before the arguments. -/
def writeTrigger (name : Text) (duration : Option Duration) (arguments : List Argument) : Text :=
  let args := Text.join comma (writeArguments [] arguments)
  Text.join [' '] (name :: ((duration.map Duration.toText).toList ++ if args.isEmpty then [] else [args]))

def Simple.write : Simple → Text
  | blank => []
  | comment t => t
  | unknown t => t
  | bpm i => "bpm ".toList ++ i
  | bank i a => withAlias ("bank ".toList ++ i) a
  | plugin n a => withAlias ("@use ".toList ++ n) a
  | declare n v => "let ".toList ++ n ++ " = ".toList ++ v.write
  | emit n none => "emit ".toList ++ n
  | emit n (some []) => "emit ".toList ++ n
  | emit n (some p) => "emit ".toList ++ n ++ ' ' :: p
  | print e => "print ".toList ++ e
  | imports ns s => "@import ".toList ++ writeNames ns ++ " from \"".toList ++ s ++ ['"']
  | exports ns => "@export ".toList ++ writeNames ns
  | load p a => "@load \"".toList ++ p ++ "\" as ".toList ++ a
  | call i => "call ".toList ++ i
  | spawn i => "spawn ".toList ++ i
  | sleep v => "sleep ".toList ++ v.write
  | pattern n i s => "pattern ".toList ++ n ++ " with ".toList ++ i ++ " = \"".toList ++ s ++ ['"']
  | keyframe p .equals v => p ++ " = ".toList ++ v
  | keyframe p .colon v => p ++ ": ".toList ++ v
  | trigger n d as => writeTrigger n d as
  | arrow t c cs =>
    Text.join ['\n'] ((t ++ " -> ".toList ++ c.write) :: cs.map fun c => "    -> ".toList ++ c.write)

def Header.write : Header → Text
  | loop i => "loop ".toList ++ i.write ++ [':']
  | group n => "group ".toList ++ n ++ [':']
  | on e => "on ".toList ++ e ++ [':']
  | fn n ps => "fn ".toList ++ n ++ '(' :: Text.join comma ps ++ "):".toList
  | each v i => "for ".toList ++ v ++ " in ".toList ++ i ++ [':']
  | automate t => "automate ".toList ++ t ++ [':']
  | param n => "param ".toList ++ n ++ [' ', '{']
  | conditional c => "if ".toList ++ c ++ [':']
  | elseIf c => "else if ".toList ++ c ++ [':']
  | otherwise => "else:".toList

def Header.tail? : Header → Option Text
  | param _ => some ['}']
  | _ => none

def Statement.write : Statement → Text
  | simple s => s.write
  | block h => h.write

/-! Comparing statements. -/

inductive Comparison where
  | equal
  | differs
  /-- A chain of calls was compared with a single call. -/
  | undefined
deriving DecidableEq, Repr

namespace Comparison

def ofBool (b : Bool) : Comparison := if b then equal else differs

def and : Comparison → Comparison → Comparison
  | equal, c => c
  | differs, _ => differs
  | undefined, _ => undefined

end Comparison

def Duration.sameOption : Option Duration → Option Duration → Bool
  | none, none => true
  | some d, some e => d.same e
  | _, _ => false

/-- Compares two simple statements. A chain of calls cannot be compared with a single call of the
same target by the same first call, if the chain is on the left. -/
def Simple.compare : Simple → Simple → Comparison
  | trigger n d as, trigger n' d' as' => .ofBool (n == n' && Duration.sameOption d d' && as == as')
  | arrow t c cs, arrow t' c' cs' =>
    if t = t' ∧ c = c' ∧ cs ≠ [] ∧ cs' = [] then .undefined
    else .ofBool (t == t' && c == c' && cs == cs')
  | s, s' => .ofBool (s == s')

def Statement.compare : Statement → Statement → Comparison
  | simple s, simple s' => s.compare s'
  | block h, block h' => .ofBool (h == h')
  | _, _ => .differs

end Devalang
