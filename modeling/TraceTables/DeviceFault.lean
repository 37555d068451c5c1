/-!
# Faults of devices

What a file, a stream or a writer reports when it cannot be opened, read or written.
-/

namespace TraceTables

/-- A fault reported by a device. -/
inductive DeviceFault where
  | notFound
  | noDevice
  | permissionDenied
  | notADirectory
  | isADirectory
  | noSpace
  | nameTooLong
  | tooManyLinks
  /-- A name holds a null character, which no file name can. -/
  | nulInName
  /-- A writer of limited capacity is full. -/
  | limitReached
  | flushFailed
  | readFailed
  /-- A line of text was wanted, and its octets are none. -/
  | notText
  /-- A fault that the device words itself. -/
  | other (message : String)
  deriving DecidableEq

/-- The wording of a fault. Those of the operating system carry its number for them. -/
def DeviceFault.message : DeviceFault → String
  | .notFound => "No such file or directory (os error 2)"
  | .noDevice => "No such device or address (os error 6)"
  | .permissionDenied => "Permission denied (os error 13)"
  | .notADirectory => "Not a directory (os error 20)"
  | .isADirectory => "Is a directory (os error 21)"
  | .noSpace => "No space left on device (os error 28)"
  | .nameTooLong => "File name too long (os error 36)"
  | .tooManyLinks => "Too many levels of symbolic links (os error 40)"
  | .nulInName => "file name contained an unexpected NUL byte"
  | .limitReached => "write limit reached"
  | .flushFailed => "flush failed"
  | .readFailed => "read failed"
  | .notText => "stream did not contain valid UTF-8"
  | .other message => message

end TraceTables
