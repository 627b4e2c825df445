/-! Failures of the world outside: what a source or a sink reports instead of doing what it was asked.

An interruption is not among them, since what was interrupted is simply done again. -/
namespace Transparency.Wire

inductive IoKind where
  | notFound
  | permissionDenied
  | connectionRefused
  | connectionReset
  | hostUnreachable
  | networkUnreachable
  | connectionAborted
  | notConnected
  | addrInUse
  | addrNotAvailable
  | networkDown
  | brokenPipe
  | alreadyExists
  | wouldBlock
  | notADirectory
  | isADirectory
  | directoryNotEmpty
  | readOnlyFilesystem
  | filesystemLoop
  | staleNetworkFileHandle
  | invalidInput
  | invalidData
  | timedOut
  | writeZero
  | storageFull
  | notSeekable
  | quotaExceeded
  | fileTooLarge
  | resourceBusy
  | executableFileBusy
  | deadlock
  | crossesDevices
  | tooManyLinks
  | invalidFilename
  | argumentListTooLong
  | unsupported
  | unexpectedEof
  | outOfMemory
  | inProgress
  | other
  /-- A failure that has no kind of its own yet. -/
  | uncategorized
deriving DecidableEq, Repr

structure IoError where
  kind : IoKind
  message : String
deriving DecidableEq, Repr

/-- What becomes of a write when the sink takes none of it. -/
def IoError.nothingTaken : IoError := ⟨.writeZero, "failed to write whole buffer"⟩

end Transparency.Wire
