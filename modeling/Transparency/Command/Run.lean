import Transparency.Command.Arguments
import Transparency.Command.Filter
import Transparency.Record.Report

/-! The command line: what a run prints, notes and returns.

`run` decides everything from the words of the command line, the environment and the files. The first word
is the program's name. -/
namespace Transparency.Command

structure Environment where
  /-- Whether trailing bytes are accepted without being asked for. -/
  allowTrailing : Option String := none
  /-- Which notes to show. -/
  filterText : Option String := none

def allowTrailingVariable : String := "CTLOG_ALLOW_TRAILING"
def filterVariable : String := "RUST_LOG"

def Environment.trailing (e : Environment) : Wire.Trailing :=
  match e.allowTrailing with
  | some "1" | some "true" | some "yes" => .allowed
  | _ => .refused

abbrev Files := String → Except FileError Bytes

/-! ### Commands -/

/-- A part of a run: it may fail, and it makes notes, which are kept in order. -/
abbrev Work := EStateM Error (List Note)

namespace Work

variable {α : Type}

def tell (notes : List Note) : Work Unit := modify (· ++ notes)

def ofDecoded (d : Wire.Decoded α) : Work α := do
  tell d.notes
  match d.result with
  | .ok value => return value
  | .error error => throw (.decode error)

/-- The record bytes that a file holds. -/
def input (files : Files) (format : InputFormat) (name : String) : Work Bytes := do
  match files name with
  | .error error => throw (.file name error)
  | .ok contents =>
    tell [.fileRead contents.length name]
    match format.decode contents with
    | .ok bytes => return bytes
    | .error error => throw (.input error)

end Work

/-- Does what was asked for and returns the text to print. -/
def Invocation.perform (files : Files) : Invocation → Work String
  | .sct format trailing file => do
    let data ← Work.input files format file
    return (← Work.ofDecoded (Wire.decodeSct trailing data)).report
  | .leaf format trailing file => do
    let data ← Work.input files format file
    return (← Work.ofDecoded (Wire.decodeLeaf trailing data)).report
  | .entry format trailing leafFile extraDataFile => do
    let leafInput ← Work.input files format leafFile
    let extraData ← Work.input files format extraDataFile
    return (← Work.ofDecoded (Wire.decodeEntry trailing leafInput extraData)).report
  | .proof leafIndex treeSize nodes => do
    if treeSize ≤ leafIndex then
      Work.tell [.leafOutsideTree leafIndex treeSize]
    match AuditProof.ofTexts nodes leafIndex treeSize with
    | .error error => throw (.decode (.node error))
    | .ok p =>
      Work.tell [.proofRead leafIndex treeSize p.pathNodes.length]
      return p.report

/-! ### Notes -/

def verboseFlag : String := "--verbose"

/-- Warnings are shown unless the environment says otherwise, and a verbose run overrides it. What is no
filter says nothing. -/
def Environment.filter (e : Environment) (verbose : Bool) : Filter :=
  if verbose then .verbose else (e.filterText.bind Filter.parse?).getD .standard

/-! ### Runs -/

structure Outcome where
  exitCode : UInt8
  stdout : String
  stderr : String
  /-- The notes that are shown. -/
  notes : List Note

def usage (program : String) : String :=
  "Usage:\n" ++
  s!"  {program} [--verbose] sct [--hex|--base64] [--allow-trailing] FILE\n" ++
  s!"  {program} [--verbose] leaf [--hex|--base64] [--allow-trailing] FILE\n" ++
  s!"  {program} [--verbose] entry [--hex|--base64] [--allow-trailing] LEAF_FILE EXTRA_DATA_FILE\n" ++
  s!"  {program} [--verbose] proof --leaf-index N --tree-size N NODE...\n" ++
  "\n" ++
  s!"Set {allowTrailingVariable}=1 to accept trailing bytes by default.\n"

/-- What the words of a command line ask for. -/
inductive Request where
  /-- There is not even a name. -/
  | nameless
  | nothing (program : String)
  | unknown (program command : String)
  | invocation (parsed : Except Error Invocation)

def Request.ofWords (trailing : Wire.Trailing) : List String → Request
  | [] => .nameless
  | [program] => .nothing program
  | _ :: "sct" :: arguments => .invocation (Invocation.ofSct trailing arguments)
  | _ :: "leaf" :: arguments => .invocation (Invocation.ofLeaf trailing arguments)
  | _ :: "entry" :: arguments => .invocation (Invocation.ofEntry trailing arguments)
  | _ :: "proof" :: arguments => .invocation (Invocation.ofProof arguments)
  | program :: command :: _ => .unknown program command

/-- The request that a command line makes. `--verbose` may stand anywhere in it, even in the place of the
name, and is taken out first. -/
def request (environment : Environment) (words : List String) : Request :=
  .ofWords environment.trailing (words.filter (· ≠ verboseFlag))

def Request.files : Request → List String
  | .invocation (.ok i) => i.files
  | _ => []

def failure (e : Error) : String := s!"Decoding failed:\n{e.message}\n"

/-- A run that breaks down. What a breakdown leaves on the error output is not part of it. -/
def Outcome.breakdown : Outcome := ⟨101, "", "", []⟩

def run (environment : Environment) (files : Files) (words : List String) : Outcome :=
  let shown := (environment.filter (words.contains verboseFlag)).admits
  match request environment words with
  | .nameless => .breakdown
  | .nothing program => ⟨1, "", usage program, []⟩
  | .unknown program command => ⟨1, "", s!"Unknown command: {command}\n" ++ usage program, []⟩
  | .invocation (.error error) => ⟨1, "", failure error, []⟩
  | .invocation (.ok i) =>
    match i.perform files [] with
    | .ok text notes => ⟨0, text ++ "\n", "", notes.filter shown⟩
    | .error error notes => ⟨1, "", failure error, notes.filter shown⟩

end Transparency.Command
