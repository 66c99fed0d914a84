/-!
# Failures of a read

Why a read can fail: the kinds of failure of input and output, and a failure as a kind with a
message.  An interrupted read is the one kind that is tried again.
-/

namespace LexStream

/-- The kinds of failure of input and output. -/
inductive FailureKind where
  | notFound | permissionDenied | connectionRefused | connectionReset | hostUnreachable
  | networkUnreachable | connectionAborted | notConnected | addrInUse | addrNotAvailable
  | networkDown | brokenPipe | alreadyExists | wouldBlock | notADirectory | isADirectory
  | directoryNotEmpty | readOnlyFilesystem | staleNetworkFileHandle | invalidInput | invalidData
  | timedOut | writeZero | storageFull | notSeekable | quotaExceeded | fileTooLarge
  | resourceBusy | executableFileBusy | deadlock | crossesDevices | tooManyLinks
  | invalidFilename | argumentListTooLong | interrupted | unsupported | unexpectedEof
  | outOfMemory | other
deriving DecidableEq, Inhabited

namespace FailureKind

/-- The name of a kind of failure, its constructor in upper camel case. -/
def name : FailureKind → String
  | .notFound => "NotFound"
  | .permissionDenied => "PermissionDenied"
  | .connectionRefused => "ConnectionRefused"
  | .connectionReset => "ConnectionReset"
  | .hostUnreachable => "HostUnreachable"
  | .networkUnreachable => "NetworkUnreachable"
  | .connectionAborted => "ConnectionAborted"
  | .notConnected => "NotConnected"
  | .addrInUse => "AddrInUse"
  | .addrNotAvailable => "AddrNotAvailable"
  | .networkDown => "NetworkDown"
  | .brokenPipe => "BrokenPipe"
  | .alreadyExists => "AlreadyExists"
  | .wouldBlock => "WouldBlock"
  | .notADirectory => "NotADirectory"
  | .isADirectory => "IsADirectory"
  | .directoryNotEmpty => "DirectoryNotEmpty"
  | .readOnlyFilesystem => "ReadOnlyFilesystem"
  | .staleNetworkFileHandle => "StaleNetworkFileHandle"
  | .invalidInput => "InvalidInput"
  | .invalidData => "InvalidData"
  | .timedOut => "TimedOut"
  | .writeZero => "WriteZero"
  | .storageFull => "StorageFull"
  | .notSeekable => "NotSeekable"
  | .quotaExceeded => "QuotaExceeded"
  | .fileTooLarge => "FileTooLarge"
  | .resourceBusy => "ResourceBusy"
  | .executableFileBusy => "ExecutableFileBusy"
  | .deadlock => "Deadlock"
  | .crossesDevices => "CrossesDevices"
  | .tooManyLinks => "TooManyLinks"
  | .invalidFilename => "InvalidFilename"
  | .argumentListTooLong => "ArgumentListTooLong"
  | .interrupted => "Interrupted"
  | .unsupported => "Unsupported"
  | .unexpectedEof => "UnexpectedEof"
  | .outOfMemory => "OutOfMemory"
  | .other => "Other"

/-- Every `FailureKind`. -/
def all : List FailureKind := [
  .notFound, .permissionDenied, .connectionRefused, .connectionReset, .hostUnreachable,
  .networkUnreachable, .connectionAborted, .notConnected, .addrInUse, .addrNotAvailable,
  .networkDown, .brokenPipe, .alreadyExists, .wouldBlock, .notADirectory, .isADirectory,
  .directoryNotEmpty, .readOnlyFilesystem, .staleNetworkFileHandle, .invalidInput, .invalidData,
  .timedOut, .writeZero, .storageFull, .notSeekable, .quotaExceeded, .fileTooLarge,
  .resourceBusy, .executableFileBusy, .deadlock, .crossesDevices, .tooManyLinks,
  .invalidFilename, .argumentListTooLong, .interrupted, .unsupported, .unexpectedEof,
  .outOfMemory, .other]

/-- The kind of failure with the name `text`. -/
def ofName? (text : String) : Option FailureKind :=
  all.find? (·.name == text)

end FailureKind

/-- A failed read: the `kind` of failure and the `message` about it. -/
structure ReadFailure where
  kind : FailureKind
  message : String
deriving DecidableEq, Inhabited

namespace ReadFailure

/-- Whether the read is to be tried again, which is so for the kind `interrupted`. -/
def isTransient (f : ReadFailure) : Bool :=
  f.kind = .interrupted

end ReadFailure

end LexStream
