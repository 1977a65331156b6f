import HostapdGrpc.Server.Err
import HostapdGrpc.Server.Station
import HostapdGrpc.Interaction.Program

/-!
# The gRPC service

The methods of `service.go` as programs over the calls they make: to the `SocketProvider`, to
the sockets it gives, and, for `metrics.go`, to the fields of a gauge. What the provider, the
peers and other goroutines do is left to the answers.
-/

namespace HostapdGrpc.Server

open Go Interaction

/-- A `socket.Socket` -/
abbrev Sock := Nat

inductive Op where
  /-- The methods of a `SocketProvider` -/
  | get (socket : GoString)
  | available
  /-- The methods of a `socket.Socket` -/
  | sendRawCmd (sock : Sock) (cmd : GoString)
  | close (sock : Sock)
  /-- `g.mu` -/
  | lockGauge
  | unlockGauge
  /-- The order of a `range` over `g.sockets`, and `g.sockets[sock] = struct{}{}` -/
  | knownSockets
  | addSocket (sock : GoString)
  /-- `g.GaugeVec.WithLabelValues(sock)`, and the `Set(float64(value))` of what it gives -/
  | withLabelValues (sock : GoString)
  | setGauge (sock : GoString) (value : Nat)
  | panic
  /-- The rounds allowed to a loop are used up. -/
  | stuck

abbrev Ans : Op → Type
  | .get _ => Except GoError Sock
  | .available => Except GoError (List GoString)
  | .sendRawCmd _ _ => Except GoError GoString
  | .close _ => Option GoError
  | .knownSockets => List GoString
  | .lockGauge | .unlockGauge | .addSocket _ | .withLabelValues _ | .setGauge _ _ => Unit
  | .panic | .stuck => Empty

abbrev Act (α : Type) := Prog Op Ans α

def act (op : Op) : Act (Ans op) := Prog.perform op

def panic {α : Type} : Act α := Prog.call .panic Empty.elim

def stuck {α : Type} : Act α := Prog.call .stuck Empty.elim

/-! ### Messages -/

/-- The message `Socket` -/
structure SocketMessage where
  name : GoString
  deriving DecidableEq

structure SocketList where
  socket : List SocketMessage
  deriving DecidableEq

structure PingRequest where
  socketName : List GoString

structure Pong where
  socketName : GoString
  error : Option SocketError
  deriving DecidableEq

structure PongResponse where
  pong : List Pong
  deriving DecidableEq

structure ListClientsRequest where
  socketName : List GoString

structure ListClientsResponse where
  client : List Client
  error : List SocketError
  deriving DecidableEq

/-! ### Sockets -/

/-- `errToStatus(err).Err()` of an error that is not nil -/
def statusErr (err : GoError) : Act GoError :=
  match errToStatus err with
  | some st => pure (.status st)
  | none => panic

def listSockets : Act (Except GoError SocketList) := do
  match ← act .available with
  | .error err => pure (.error err)
  | .ok sockets => pure (.ok ⟨sockets.map SocketMessage.mk⟩)

/-- No name stands for all available sockets. -/
def getSockets (socketName : List GoString) : Act (Except GoError (List GoString)) := do
  if socketName.length = 0 then
    match ← act .available with
    | .error err => .error <$> statusErr err
    | .ok sockets => pure (.ok sockets)
  else
    pure (.ok socketName)

/-! ### Ping -/

/-- What `pingSocket` does under its `defer`. -/
def pingOpened (sock : Sock) (sockName : GoString) : Act (Except GoError Pong) := do
  match ← act (.sendRawCmd sock (lit "PING")) with
  | .error (.request rErr) => pure (.ok ⟨sockName, some (reqErrToHostapdErr rErr)⟩)
  | .error err => .error <$> statusErr err
  | .ok res =>
    if res ≠ lit "PONG\n" then
      pure (.error (.status ⟨.internal, lit "bad response: " ++ res⟩))
    else
      pure (.ok ⟨sockName, none⟩)

def pingSocket (sockName : GoString) : Act (Except GoError Pong) := do
  match ← act (.get sockName) with
  | .error err => .error <$> statusErr err
  | .ok sock =>
    let res ← pingOpened sock sockName
    -- `defer sock.Close()`, whose result is dropped
    let _ ← act (.close sock)
    pure res

def pingLoop (sockets : List GoString) (res : PongResponse) : Act (Except GoError PongResponse) :=
  match sockets with
  | [] => pure (.ok res)
  | sockName :: rest => do
    match ← pingSocket sockName with
    | .error err => pure (.error err)
    | .ok pong => pingLoop rest { res with pong := res.pong ++ [pong] }

def ping (req : PingRequest) : Act (Except GoError PongResponse) := do
  match ← getSockets req.socketName with
  | .error err => pure (.error err)
  | .ok sockets => pingLoop sockets ⟨[]⟩

/-! ### Stations -/

/-- The reply that ends a listing without an error. -/
def isLast (tok : GoString) : Bool := tok == [] || tok == lit "FAIL\n"

/-- The `cli` of one round -/
def station (sockName tok : GoString) : Client := { parseCli tok with socketName := sockName }

/-- The loop of `listClientsOnSock`; `fuel` bounds its rounds, and nothing else does. -/
def staLoop (sock : Sock) (sockName : GoString) (fuel : Nat) (tok : GoString)
    (clis : List Client) : Act (Except GoError (List Client)) :=
  match fuel with
  | 0 => if isLast tok then pure (.ok clis) else stuck
  | fuel + 1 =>
    if isLast tok then
      pure (.ok clis)
    else do
      match ← act (.sendRawCmd sock (lit "STA-NEXT " ++ (station sockName tok).addr)) with
      | .error err => pure (.error err)
      | .ok next => staLoop sock sockName fuel next (clis ++ [station sockName tok])

def listClientsOnSock (fuel : Nat) (sockName : GoString) : Act (Except GoError (List Client)) := do
  match ← act (.get sockName) with
  | .error err => pure (.error err)
  -- No `defer` here: `sock` is not closed on any of the ways out.
  | .ok sock =>
    match ← act (.sendRawCmd sock (lit "STA-FIRST")) with
    | .error err => pure (.error err)
    | .ok tok => staLoop sock sockName fuel tok []

def listClientsLoop (fuel : Nat) (sockets : List GoString) (res : ListClientsResponse) :
    Act (Except GoError ListClientsResponse) :=
  match sockets with
  | [] => pure (.ok res)
  | sockName :: rest => do
    match ← listClientsOnSock fuel sockName with
    -- A `RequestError` is put into the response, and the next socket is listed.
    | .error (.request err) =>
      listClientsLoop fuel rest { res with error := res.error ++ [reqErrToHostapdErr err] }
    | .error err => .error <$> statusErr err
    | .ok clis => listClientsLoop fuel rest { res with client := res.client ++ clis }

def listClients (fuel : Nat) (req : ListClientsRequest) :
    Act (Except GoError ListClientsResponse) := do
  match ← getSockets req.socketName with
  | .error err => pure (.error err)
  | .ok sockets => listClientsLoop fuel sockets ⟨[], []⟩

/-! ### Requests -/

inductive Request where
  | ping (req : PingRequest)
  | listClients (req : ListClientsRequest)

inductive Response where
  | ping (res : PongResponse)
  | listClients (res : ListClientsResponse)

def serve (fuel : Nat) : Request → Act (Except GoError Response)
  | .ping req => Except.map .ping <$> ping req
  | .listClients req => Except.map .listClients <$> listClients fuel req

end HostapdGrpc.Server
