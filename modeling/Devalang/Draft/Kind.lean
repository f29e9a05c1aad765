import Devalang.Text.Basic

/-! The kinds of node that a document can be built from by hand. -/
namespace Devalang.Draft

inductive Kind where
  | node | element | headElement | textElement | blockElement
  | expression | identifier | numberLiteral | stringLiteral | booleanLiteral | rawLiteral
  | synthReference | objectProperty | objectLiteral
  | statement | program | bpm | bank | usePlugin | letDeclaration | emit | print | importStatement
  | exportStatement | loadSample | call | spawn | sleep | pattern | keyframe | trigger | arrowCall
  | comment | blankLine | unknown
  | block | loop | group | on | fn | each | automate | param | conditional | elseIf | otherwise
deriving DecidableEq, Repr

namespace Kind

def all : List Kind := [
  node, element, headElement, textElement, blockElement,
  expression, identifier, numberLiteral, stringLiteral, booleanLiteral, rawLiteral,
  synthReference, objectProperty, objectLiteral,
  statement, program, bpm, bank, usePlugin, letDeclaration, emit, print, importStatement,
  exportStatement, loadSample, call, spawn, sleep, pattern, keyframe, trigger, arrowCall,
  comment, blankLine, unknown,
  block, loop, group, on, fn, each, automate, param, conditional, elseIf, otherwise]

def name : Kind → String
  | node => "Node" | element => "Element" | headElement => "HeadElement"
  | textElement => "TextElement" | blockElement => "BlockElement"
  | expression => "Expression" | identifier => "Identifier" | numberLiteral => "NumberLiteral"
  | stringLiteral => "StringLiteral" | booleanLiteral => "BooleanLiteral"
  | rawLiteral => "RawLiteral" | synthReference => "SynthReference"
  | objectProperty => "ObjectProperty" | objectLiteral => "ObjectLiteral"
  | statement => "Statement" | program => "Program" | bpm => "BpmDeclaration"
  | bank => "BankDeclaration" | usePlugin => "UsePlugin" | letDeclaration => "LetDeclaration"
  | emit => "Emit" | print => "Print" | importStatement => "ImportStatement"
  | exportStatement => "ExportStatement" | loadSample => "LoadSample" | call => "Call"
  | spawn => "Spawn" | sleep => "Sleep" | pattern => "Pattern" | keyframe => "Keyframe"
  | trigger => "Trigger" | arrowCall => "ArrowCall" | comment => "Comment"
  | blankLine => "BlankLine" | unknown => "Unknown"
  | block => "Block" | loop => "Loop" | group => "Group" | on => "On" | fn => "Fn" | each => "For"
  | automate => "Automate" | param => "Param" | conditional => "If" | elseIf => "ElseIf"
  | otherwise => "Else"

def ofName? (s : String) : Option Kind := all.find? (·.name == s)

def isElement : Kind → Bool
  | node => false
  | _ => true

/-- Kinds that stand for no construct of their own. -/
def isAbstract : Kind → Bool
  | node | element | headElement | textElement | blockElement | expression | statement | block => true
  | _ => false

def tag? (k : Kind) : Option Text := if k.isAbstract then none else some k.name.toList

def family : Kind → String
  | node => "node"
  | element | headElement | textElement | blockElement => "element"
  | expression | identifier | numberLiteral | stringLiteral | booleanLiteral | rawLiteral
  | synthReference | objectProperty | objectLiteral => "expr"
  | _ => "deva"

def isBlock : Kind → Bool
  | blockElement | program | block | loop | group | on | fn | each | automate | param | conditional
  | elseIf | otherwise => true
  | _ => false

/-- The element is given by one value, its head. -/
def hasHead : Kind → Bool
  | textElement | identifier | numberLiteral | stringLiteral | booleanLiteral | rawLiteral
  | synthReference | objectProperty | call | spawn | comment | unknown => true
  | _ => false

def fields (k : Kind) : List String :=
  if k.hasHead then ["head"]
  else match k with
    | bpm => ["identifier"]
    | bank => ["identifier", "alias"]
    | usePlugin => ["name", "alias"]
    | letDeclaration => ["name", "value"]
    | emit => ["name", "payload"]
    | print => ["expression"]
    | importStatement => ["identifiers", "source"]
    | exportStatement => ["identifiers"]
    | loadSample => ["path", "alias"]
    | sleep => ["value"]
    | pattern => ["name", "instrument", "pattern"]
    | keyframe => ["position", "value", "separator"]
    | trigger => ["name", "duration", "args"]
    | arrowCall => ["target", "method", "args", "chain"]
    | loop => ["iterator"]
    | group => ["name"]
    | on => ["event"]
    | fn => ["name", "params"]
    | each => ["variable", "iterator"]
    | automate => ["target"]
    | param => ["name"]
    | conditional => ["condition", "else_ifs", "alternate"]
    | elseIf => ["condition"]
    | _ => []

/-- The attributes of a node, in the order in which their values are stored: the fields, the lines
of the source of a program, and the origin. -/
def slots (k : Kind) : List String :=
  if k.isElement then
    k.fields ++ (if k = program then ["session"] else []) ++ ["line", "end_line", "indent", "leading"]
  else []

end Kind

end Devalang.Draft
