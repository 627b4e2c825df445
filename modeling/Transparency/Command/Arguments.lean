import Transparency.Command.Error
import Transparency.Wire.Decode

/-! What the arguments of a command ask for. -/
namespace Transparency.Command

/-- Options begin with two dashes, everywhere but in the place of an option's value. -/
def isOption (argument : String) : Bool :=
  match argument.toList with
  | '-' :: '-' :: _ => true
  | _ => false

/-! ### Records -/

/-- How a record is to be read, and from which files. -/
structure RecordArguments where
  format : InputFormat := .binary
  trailing : Wire.Trailing := .refused
  files : List String := []
deriving DecidableEq

/-- Takes arguments on from left to right; `files` holds those so far, last first. -/
def RecordArguments.scan (r : RecordArguments) : List String → Except Error RecordArguments
  | [] => .ok {r with files := r.files.reverse}
  | argument :: rest =>
    if argument = "--allow-trailing" then scan {r with trailing := .allowed} rest
    else if isOption argument then
      match InputFormat.ofFlag? argument with
      | some format => scan {r with format := format} rest
      | none => .error (.unknownOption argument)
    else scan {r with files := argument :: r.files} rest

def RecordArguments.parse (trailing : Wire.Trailing) (arguments : List String) :
    Except Error RecordArguments :=
  scan {trailing} arguments

/-! ### Proofs -/

def leafIndexOption : String := "--leaf-index"
def treeSizeOption : String := "--tree-size"

/-- A leaf, a tree and the path between them. -/
structure ProofArguments where
  leafIndex : Option UInt64 := none
  treeSize : Option UInt64 := none
  nodes : List String := []
deriving DecidableEq

/-- Takes arguments on from left to right; `nodes` holds those so far, last first. -/
def ProofArguments.scan (p : ProofArguments) : List String → Except Error ProofArguments
  | [] => .ok {p with nodes := p.nodes.reverse}
  | argument :: rest =>
    if argument = leafIndexOption then
      match rest with
      | [] => .error (.noValue leafIndexOption)
      | value :: rest =>
        match Text.Natural.parse value.toList with
        | .ok n => scan {p with leafIndex := some n} rest
        | .error error => .error (.invalidValue error)
    else if argument = treeSizeOption then
      match rest with
      | [] => .error (.noValue treeSizeOption)
      | value :: rest =>
        match Text.Natural.parse value.toList with
        | .ok n => scan {p with treeSize := some n} rest
        | .error error => .error (.invalidValue error)
    else if isOption argument then .error (.unknownOption argument)
    else scan {p with nodes := argument :: p.nodes} rest

/-! ### Commands -/

inductive Invocation where
  | sct (format : InputFormat) (trailing : Wire.Trailing) (file : String)
  | leaf (format : InputFormat) (trailing : Wire.Trailing) (file : String)
  | entry (format : InputFormat) (trailing : Wire.Trailing) (leafFile extraDataFile : String)
  | proof (leafIndex treeSize : UInt64) (nodes : List String)
deriving DecidableEq

namespace Invocation

def singleFile : List String → Except Error String
  | [file] => .ok file
  | [] => .error .noInputFile
  | _ => .error .severalInputFiles

def ofSct (trailing : Wire.Trailing) (arguments : List String) : Except Error Invocation := do
  let r ← RecordArguments.parse trailing arguments
  return .sct r.format r.trailing (← singleFile r.files)

def ofLeaf (trailing : Wire.Trailing) (arguments : List String) : Except Error Invocation := do
  let r ← RecordArguments.parse trailing arguments
  return .leaf r.format r.trailing (← singleFile r.files)

def ofEntry (trailing : Wire.Trailing) (arguments : List String) : Except Error Invocation := do
  let r ← RecordArguments.parse trailing arguments
  match r.files with
  | [leafFile, extraDataFile] => return .entry r.format r.trailing leafFile extraDataFile
  | _ => throw .notLeafAndExtraData

def ofProof (arguments : List String) : Except Error Invocation := do
  let p ← ProofArguments.scan {} arguments
  match p.leafIndex, p.treeSize with
  | some leafIndex, some treeSize => return .proof leafIndex treeSize p.nodes
  | none, _ => throw (.requiredOption leafIndexOption)
  | some _, none => throw (.requiredOption treeSizeOption)

/-- The files to read, in order. -/
def files : Invocation → List String
  | .sct _ _ file | .leaf _ _ file => [file]
  | .entry _ _ leafFile extraDataFile => [leafFile, extraDataFile]
  | .proof .. => []

end Invocation

end Transparency.Command
