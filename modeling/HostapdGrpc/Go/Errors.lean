import HostapdGrpc.Go.Strings

/-!
# Error values

`syscall.Errno` with its texts and classes on Linux, `socket.RequestError`, and the
other error values that pass between the packages.
-/

namespace HostapdGrpc.Go

/-- `syscall.Errno` -/
abbrev Errno := Nat

namespace Errno

abbrev eintr : Errno := 4
abbrev eagain : Errno := 11
abbrev enfile : Errno := 23
abbrev emfile : Errno := 24
abbrev eaddrinuse : Errno := 98
abbrev etimedout : Errno := 110

/-- The texts of `zerrors_linux_amd64`, by number. -/
def texts : List String :=
  ["", "operation not permitted", "no such file or directory", "no such process",
   "interrupted system call", "input/output error", "no such device or address",
   "argument list too long", "exec format error", "bad file descriptor", "no child processes",
   "resource temporarily unavailable", "cannot allocate memory", "permission denied",
   "bad address", "block device required", "device or resource busy", "file exists",
   "invalid cross-device link", "no such device", "not a directory", "is a directory",
   "invalid argument", "too many open files in system", "too many open files",
   "inappropriate ioctl for device", "text file busy", "file too large",
   "no space left on device", "illegal seek", "read-only file system", "too many links",
   "broken pipe", "numerical argument out of domain", "numerical result out of range",
   "resource deadlock avoided", "file name too long", "no locks available",
   "function not implemented", "directory not empty", "too many levels of symbolic links", "",
   "no message of desired type", "identifier removed", "channel number out of range",
   "level 2 not synchronized", "level 3 halted", "level 3 reset", "link number out of range",
   "protocol driver not attached", "no CSI structure available", "level 2 halted",
   "invalid exchange", "invalid request descriptor", "exchange full", "no anode",
   "invalid request code", "invalid slot", "", "bad font file format", "device not a stream",
   "no data available", "timer expired", "out of streams resources",
   "machine is not on the network", "package not installed", "object is remote",
   "link has been severed", "advertise error", "srmount error", "communication error on send",
   "protocol error", "multihop attempted", "RFS specific error", "bad message",
   "value too large for defined data type", "name not unique on network",
   "file descriptor in bad state", "remote address changed",
   "can not access a needed shared library", "accessing a corrupted shared library",
   ".lib section in a.out corrupted", "attempting to link in too many shared libraries",
   "cannot exec a shared library directly", "invalid or incomplete multibyte or wide character",
   "interrupted system call should be restarted", "streams pipe error", "too many users",
   "socket operation on non-socket", "destination address required", "message too long",
   "protocol wrong type for socket", "protocol not available", "protocol not supported",
   "socket type not supported", "operation not supported", "protocol family not supported",
   "address family not supported by protocol", "address already in use",
   "cannot assign requested address", "network is down", "network is unreachable",
   "network dropped connection on reset", "software caused connection abort",
   "connection reset by peer", "no buffer space available",
   "transport endpoint is already connected", "transport endpoint is not connected",
   "cannot send after transport endpoint shutdown", "too many references: cannot splice",
   "connection timed out", "connection refused", "host is down", "no route to host",
   "operation already in progress", "operation now in progress", "stale file handle",
   "structure needs cleaning", "not a XENIX named type file", "no XENIX semaphores available",
   "is a named type file", "remote I/O error", "disk quota exceeded", "no medium found",
   "wrong medium type", "operation canceled", "required key not available", "key has expired",
   "key has been revoked", "key was rejected by service", "owner died", "state not recoverable",
   "operation not possible due to RF-kill"]

/-- `Errno.Error` -/
def error (e : Errno) : GoString :=
  match texts[e]? with
  | some text => if text.isEmpty then lit "errno " ++ itoa e else lit text
  | none => lit "errno " ++ itoa e

/-- `Errno.Timeout`; `EWOULDBLOCK` is `EAGAIN`. -/
def timeout (e : Errno) : Bool := e == eagain || e == etimedout

/-- `Errno.Temporary` -/
def temporary (e : Errno) : Bool := e == eintr || e == emfile || e == enfile || timeout e

end Errno

/-! ### Values of type `error` -/

/-- What the `Errno` field of a `RequestError` may hold, when it is not nil. -/
inductive Cause where
  | errno (e : Errno)
  | other (msg : GoString)
  deriving DecidableEq

/-- `socket.Code` -/
abbrev Code := Int

/-- `socket.Internal` -/
def internal : Code := -1

/-- `socket.DeadlineExceeded` -/
def deadlineExceeded : Code := -2

/-- `socket.RequestError` -/
structure RequestError where
  errno : Option Cause
  code : Code
  deriving DecidableEq

/-- The codes of `google.golang.org/grpc/codes` that the server gives. -/
inductive GrpcCode where
  | deadlineExceeded
  | internal
  deriving DecidableEq

/-- A gRPC status, `status.Status` -/
structure Status where
  code : GrpcCode
  message : GoString
  deriving DecidableEq

/-- A non-nil value of type `error`. -/
inductive GoError where
  | errno (e : Errno)
  | request (r : RequestError)
  | status (st : Status)
  | other (msg : GoString)
  deriving DecidableEq

def Cause.error : Cause → GoString
  | .errno e => e.error
  | .other msg => msg

/-- `RequestError.Error` -/
def RequestError.error (r : RequestError) : GoString :=
  lit "socket request error code " ++ itoaInt r.code ++ lit ": " ++
    (match r.errno with
      | some cause => cause.error
      | none => lit "<nil>")

def GrpcCode.string : GrpcCode → GoString
  | .deadlineExceeded => lit "DeadlineExceeded"
  | .internal => lit "Internal"

/-- The method `Error` of the value -/
def GoError.error : GoError → GoString
  | .errno e => e.error
  | .request r => r.error
  | .status st => lit "rpc error: code = " ++ st.code.string ++ lit " desc = " ++ st.message
  | .other msg => msg

end HostapdGrpc.Go
