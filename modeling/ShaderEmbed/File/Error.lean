import ShaderEmbed.Path.Basic
import ShaderEmbed.Text.Quoted

/-!
# Why a file could not be used

The system reports a failure by its number and a text that belongs to the number. Three failures are
found before the system is asked: bytes that are no text, and a zero character in a name or in an
argument. A failure to prepare a directory of its own also says where it was tried.
-/

namespace ShaderEmbed

/-- A failure number of the system. -/
structure Errno where
  number : Int
deriving DecidableEq, Repr

namespace Errno

def noEntry : Errno := ⟨2⟩
def badImage : Errno := ⟨8⟩
def badStream : Errno := ⟨9⟩
def denied : Errno := ⟨13⟩
def occupied : Errno := ⟨17⟩
def notDirectory : Errno := ⟨20⟩
def isDirectory : Errno := ⟨21⟩
def noSpace : Errno := ⟨28⟩
def nameTooLong : Errno := ⟨36⟩
def notEmpty : Errno := ⟨39⟩
def linkLoop : Errno := ⟨40⟩

/-- The texts of the failure numbers, from number 1 on. -/
def texts : List String := [
  "Operation not permitted", "No such file or directory", "No such process",
    "Interrupted system call",
  "Input/output error", "No such device or address", "Argument list too long", "Exec format error",
  "Bad file descriptor", "No child processes", "Resource temporarily unavailable",
  "Cannot allocate memory",
  "Permission denied", "Bad address", "Block device required", "Device or resource busy",
  "File exists",
  "Invalid cross-device link", "No such device", "Not a directory",
  "Is a directory", "Invalid argument",
  "Too many open files in system", "Too many open files", "Inappropriate ioctl for device",
  "Text file busy",
  "File too large", "No space left on device", "Illegal seek",
  "Read-only file system", "Too many links",
  "Broken pipe", "Numerical argument out of domain", "Numerical result out of range",
  "Resource deadlock avoided", "File name too long", "No locks available",
  "Function not implemented",
  "Directory not empty", "Too many levels of symbolic links", "Unknown error 41",
  "No message of desired type",
  "Identifier removed", "Channel number out of range", "Level 2 not synchronized", "Level 3 halted",
  "Level 3 reset", "Link number out of range", "Protocol driver not attached",
  "No CSI structure available",
  "Level 2 halted", "Invalid exchange", "Invalid request descriptor", "Exchange full", "No anode",
  "Invalid request code", "Invalid slot", "Unknown error 58",
  "Bad font file format", "Device not a stream",
  "No data available", "Timer expired", "Out of streams resources", "Machine is not on the network",
  "Package not installed", "Object is remote", "Link has been severed",
  "Advertise error", "Srmount error",
  "Communication error on send", "Protocol error", "Multihop attempted",
  "RFS specific error", "Bad message",
  "Value too large for defined data type", "Name not unique on network",
  "File descriptor in bad state",
  "Remote address changed", "Can not access a needed shared library",
  "Accessing a corrupted shared library",
  ".lib section in a.out corrupted", "Attempting to link in too many shared libraries",
  "Cannot exec a shared library directly", "Invalid or incomplete multibyte or wide character",
  "Interrupted system call should be restarted", "Streams pipe error", "Too many users",
  "Socket operation on non-socket", "Destination address required", "Message too long",
  "Protocol wrong type for socket", "Protocol not available", "Protocol not supported",
  "Socket type not supported", "Operation not supported", "Protocol family not supported",
  "Address family not supported by protocol", "Address already in use",
  "Cannot assign requested address",
  "Network is down", "Network is unreachable", "Network dropped connection on reset",
  "Software caused connection abort", "Connection reset by peer", "No buffer space available",
  "Transport endpoint is already connected", "Transport endpoint is not connected",
  "Cannot send after transport endpoint shutdown", "Too many references: cannot splice",
  "Connection timed out", "Connection refused", "Host is down", "No route to host",
  "Operation already in progress", "Operation now in progress", "Stale file handle",
  "Structure needs cleaning", "Not a XENIX named type file", "No XENIX semaphores available",
  "Is a named type file", "Remote I/O error", "Disk quota exceeded",
  "No medium found", "Wrong medium type",
  "Operation canceled", "Required key not available", "Key has expired", "Key has been revoked",
  "Key was rejected by service", "Owner died", "State not recoverable",
  "Operation not possible due to RF-kill", "Memory page has hardware error"]

def text (e : Errno) : String :=
  match e.number with
  | .ofNat 0 => "Success"
  | .ofNat (n + 1) => (texts[n]?).getD ("Unknown error " ++ toString (n + 1))
  | unknown => "Unknown error " ++ toString unknown

end Errno

/-- Why an operation on a file, or a launch, failed. -/
inductive FileError where
  | system (errno : Errno)
  | notText
  | zeroInName
  | zeroInArgument
  | located (reason : FileError) (path : Path)
  | other (text : String)
deriving DecidableEq, Repr

namespace FileError

def message : FileError → String
  | system errno => errno.text ++ " (os error " ++ toString errno.number ++ ")"
  | notText => "stream did not contain valid UTF-8"
  | zeroInName => "file name contained an unexpected NUL byte"
  | zeroInArgument => "nul byte found in provided data"
  | located reason path => reason.message ++ " at path " ++ Text.quote path.text
  | other text => text

def isMissing : FileError → Bool
  | system errno => errno = .noEntry
  | located reason _ => reason.isMissing
  | _ => false

end FileError

end ShaderEmbed
