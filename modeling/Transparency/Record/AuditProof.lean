import Transparency.Record.Entry

/-! Audit proofs: the path of hashes that shows a leaf to be in a tree.

A log sends a path as base64 texts, whose padding is optional. What the nodes hold is not looked at. -/
namespace Transparency

structure AuditProof where
  version : Version
  treeSize : UInt64
  leafIndex : UInt64
  /-- From the leaf towards the root. -/
  pathNodes : List Bytes
deriving DecidableEq

/-- An entry with the proof of its place. -/
structure ProvenEntry where
  entry : LogEntry
  proof : AuditProof
deriving DecidableEq

namespace AuditProof

/-- A node that is not base64. -/
structure Error where
  index : Nat
  cause : Text.Base64.Error
deriving DecidableEq, Repr

def Error.message (e : Error) : String :=
  s!"audit path node {e.index} is not valid base64: " ++ e.cause.message

/-- Decodes nodes that begin at place `index`, up to the first that is refused. -/
def nodes (index : Nat) : List String → Except Error (List Bytes)
  | [] => .ok []
  | text :: rest =>
    match Text.Base64.decode .optional (Text.Utf8.ofString text) with
    | .error cause => .error ⟨index, cause⟩
    | .ok node => do
      let path ← nodes (index + 1) rest
      .ok (node :: path)

def ofTexts (texts : List String) (leafIndex treeSize : UInt64) : Except Error AuditProof := do
  let path ← nodes 0 texts
  .ok ⟨.v1, treeSize, leafIndex, path⟩

end AuditProof

def ProvenEntry.ofTexts (entry : LogEntry) (texts : List String) (leafIndex treeSize : UInt64) :
    Except AuditProof.Error ProvenEntry := do
  let proof ← AuditProof.ofTexts texts leafIndex treeSize
  .ok ⟨entry, proof⟩

end Transparency
