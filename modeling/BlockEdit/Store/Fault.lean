/-!
# Faults of a file system

What a file system answers when it cannot do what it is asked to. Some faults follow from what
stands in its tree. Others do not: a full disk, a file or a directory that nobody may change, a
mount, a device that breaks. A `Refusal` stands for one of these, and a `Request` for what is
refused.
-/

namespace BlockEdit

/-- Why a file system refuses. -/
inductive Fault where
  | notPermitted
  | notFound
  | deviceError
  | denied
  | busy
  | alreadyExists
  | otherDevice
  | notDirectory
  | isDirectory
  | fileTooLarge
  | noSpace
  | readOnly
  | nameTooLong
  | tooManyLinks
  | quotaExceeded
  /-- The path holds a character that no path can hold. -/
  | unusablePath
  deriving DecidableEq, Repr

/-- The sentence about a fault. -/
def Fault.message : Fault → String
  | notPermitted => "Operation not permitted (os error 1)"
  | notFound => "No such file or directory (os error 2)"
  | deviceError => "Input/output error (os error 5)"
  | denied => "Permission denied (os error 13)"
  | busy => "Device or resource busy (os error 16)"
  | alreadyExists => "File exists (os error 17)"
  | otherDevice => "Invalid cross-device link (os error 18)"
  | notDirectory => "Not a directory (os error 20)"
  | isDirectory => "Is a directory (os error 21)"
  | fileTooLarge => "File too large (os error 27)"
  | noSpace => "No space left on device (os error 28)"
  | readOnly => "Read-only file system (os error 30)"
  | nameTooLong => "File name too long (os error 36)"
  | tooManyLinks => "Too many levels of symbolic links (os error 40)"
  | quotaExceeded => "Disk quota exceeded (os error 122)"
  | unusablePath => "file name contained an unexpected NUL byte"

/-- What a writer asks of a file system, with the paths that it names. -/
inductive Request where
  | makeDirectory (path : String)
  | openFile (path : String)
  | takeLock (path : String)
  /-- The bytes are to be written to the open file of the path. -/
  | fill (path : String) (bytes : ByteArray)
  | setMode (path : String) (mode : Nat)
  /-- What was written to the file is to be brought to the device. -/
  | flush (path : String)
  | rename (source target : String)

/-- The answer to a request that is refused, and how many of the bytes that are to be written have
arrived by then. -/
structure Refusal where
  fault : Fault
  arrived : Nat
  deriving DecidableEq, Repr

end BlockEdit
