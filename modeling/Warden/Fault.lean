/-!
Causes of failed input and output.

A fault is either one of the portable kinds, possibly with a message of its own, or an error
number of the operating system. Its text is the message if there is one, the text of the kind
otherwise, and for a number the system's wording followed by the number.
-/

namespace Warden

inductive Fault.Kind where
  | notFound | permissionDenied | connectionRefused | connectionReset | connectionAborted
  | notConnected | addrInUse | addrNotAvailable | brokenPipe | alreadyExists | wouldBlock
  | invalidInput | invalidData | timedOut | writeZero | interrupted | unsupported
  | unexpectedEof | outOfMemory | other | notADirectory | isADirectory | storageFull
  | resourceBusy | executableFileBusy | argumentListTooLong
  deriving DecidableEq, Repr

def Fault.Kind.text : Kind → String
  | notFound => "entity not found"
  | permissionDenied => "permission denied"
  | connectionRefused => "connection refused"
  | connectionReset => "connection reset"
  | connectionAborted => "connection aborted"
  | notConnected => "not connected"
  | addrInUse => "address in use"
  | addrNotAvailable => "address not available"
  | brokenPipe => "broken pipe"
  | alreadyExists => "entity already exists"
  | wouldBlock => "operation would block"
  | invalidInput => "invalid input parameter"
  | invalidData => "invalid data"
  | timedOut => "timed out"
  | writeZero => "write zero"
  | interrupted => "operation interrupted"
  | unsupported => "unsupported"
  | unexpectedEof => "unexpected end of file"
  | outOfMemory => "out of memory"
  | other => "other error"
  | notADirectory => "not a directory"
  | isADirectory => "is a directory"
  | storageFull => "no storage space"
  | resourceBusy => "resource busy"
  | executableFileBusy => "executable file busy"
  | argumentListTooLong => "argument list too long"

inductive Fault where
  | kind (k : Fault.Kind) (message : Option String)
  | os (number : Nat)
  deriving DecidableEq, Repr

/-- The C library's wording of a system error number. -/
def systemText : Nat → String
  | 1 => "Operation not permitted"
  | 2 => "No such file or directory"
  | 3 => "No such process"
  | 4 => "Interrupted system call"
  | 5 => "Input/output error"
  | 8 => "Exec format error"
  | 9 => "Bad file descriptor"
  | 10 => "No child processes"
  | 11 => "Resource temporarily unavailable"
  | 12 => "Cannot allocate memory"
  | 13 => "Permission denied"
  | 17 => "File exists"
  | 20 => "Not a directory"
  | 21 => "Is a directory"
  | 22 => "Invalid argument"
  | 24 => "Too many open files"
  | 26 => "Text file busy"
  | 28 => "No space left on device"
  | 32 => "Broken pipe"
  | 36 => "File name too long"
  | 40 => "Too many levels of symbolic links"
  | n => s!"Unknown error {n}"

def Fault.text : Fault → String
  | kind k none => k.text
  | kind _ (some m) => m
  | os n => s!"{systemText n} (os error {n})"

/-- A signal cut the call short; the caller may simply try again. -/
def Fault.isInterrupted : Fault → Bool
  | kind k _ => k == .interrupted
  | os n => n == 4

/-- A fault of no particular kind that carries a message. -/
def Fault.ofMessage (m : String) : Fault := .kind .other (some m)

/-- The symbolic name of a system error number and its description in the manual. -/
def systemCall : Nat → String
  | 1 => "EPERM: Operation not permitted"
  | 2 => "ENOENT: No such file or directory"
  | 3 => "ESRCH: No such process"
  | 4 => "EINTR: Interrupted system call"
  | 5 => "EIO: I/O error"
  | 8 => "ENOEXEC: Exec format error"
  | 9 => "EBADF: Bad file number"
  | 10 => "ECHILD: No child processes"
  | 11 => "EAGAIN: Try again"
  | 12 => "ENOMEM: Out of memory"
  | 13 => "EACCES: Permission denied"
  | 17 => "EEXIST: File exists"
  | 20 => "ENOTDIR: Not a directory"
  | 21 => "EISDIR: Is a directory"
  | 22 => "EINVAL: Invalid argument"
  | 24 => "EMFILE: Too many open files"
  | 26 => "ETXTBSY: Text file busy"
  | 28 => "ENOSPC: No space left on device"
  | 32 => "EPIPE: Broken pipe"
  | 36 => "ENAMETOOLONG: File name too long"
  | 40 => "ELOOP: Too many symbolic links encountered"
  | _ => "UnknownErrno: Unknown errno"

end Warden
