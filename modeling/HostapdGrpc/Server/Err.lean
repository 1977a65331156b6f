import HostapdGrpc.Go.Errors

/-!
# Errors on the wire

The `SocketError` message of `api.proto` and the conversions of `err.go`.
-/

namespace HostapdGrpc.Server

open Go

inductive ErrorCode where
  | ok
  | deadlineExceeded
  | internal
  deriving DecidableEq

structure SocketError where
  msg : GoString
  code : ErrorCode
  cErrno : Int32
  deriving DecidableEq

def grpcCodeFromErrno (err : Errno) : GrpcCode :=
  if err.timeout then .deadlineExceeded else .internal

def grpcCodeFromRequestError (err : RequestError) : GrpcCode :=
  if err.code = deadlineExceeded then .deadlineExceeded else .internal

/-- `errToStatus` of an error that is not nil; `none` is the panic on a `RequestError`
without `Errno`. -/
def errToStatus (err : GoError) : Option Status :=
  match err with
  | .request rErr => rErr.errno.map fun cause => ⟨grpcCodeFromRequestError rErr, cause.error⟩
  | .errno e => some ⟨grpcCodeFromErrno e, e.error⟩
  | err => some ⟨.internal, err.error⟩

def reqErrToHostapdErr (rErr : RequestError) : SocketError :=
  let errno : Errno :=
    match rErr.errno with
    | some (.errno e) => e
    | _ => 0
  { msg := errno.error
    code := if rErr.code = deadlineExceeded then .deadlineExceeded else .internal
    cErrno := Int32.ofNat errno }

def statusToHostapdErr (st : Status) : SocketError where
  msg := st.message
  code :=
    match st.code with
    | .deadlineExceeded => .deadlineExceeded
    | .internal => .internal
  cErrno := 0

end HostapdGrpc.Server
