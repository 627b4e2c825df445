import Transparency.Command.Error

/-! A directory that holds plain files, and the paths that lead to them.

A path is followed name by name. Empty names and a single dot stay where they are, and two dots lead out
of the directory, where nothing is known but that it is a directory. -/
namespace Transparency.Command

/-- The files by their names. -/
structure Directory where
  files : List (String × Bytes)

namespace Directory

/-- The longest name, in bytes. -/
def maxName : Nat := 255

/-- The longest path, in bytes. -/
def maxPath : Nat := 4095

/-- Follows the names that are left; `inside` while in the directory itself. -/
def follow (d : Directory) (inside : Bool) : List String → Except FileError Bytes
  | [] => .error .isADirectory
  | name :: rest =>
    if name = "" ∨ name = "." then d.follow inside rest
    else if name = ".." then d.follow false rest
    else if maxName < name.utf8ByteSize then .error .nameTooLong
    else
      match if inside then d.files.lookup name else none with
      | none => .error .notFound
      | some contents => if rest.isEmpty then .ok contents else .error .notADirectory

/-- The contents of the file that a path leads to. -/
def read (d : Directory) (path : String) : Except FileError Bytes :=
  if path = "" then .error .notFound
  else if maxPath < path.utf8ByteSize then .error .nameTooLong
  else d.follow (path.toList.head? ≠ some '/') (path.splitOn "/")

end Directory

end Transparency.Command
