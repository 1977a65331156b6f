import HostapdGrpc.Socket.State
import HostapdGrpc.Go.Path

/-!
# The connection manager

The functions of `manager.go`, and the part of `wpa_ctrl.go` they call on an open
connection, statement by statement. A deferred unlock stands where the function returns,
later defers first.
-/

namespace HostapdGrpc.Socket

open Go Interaction

abbrev Act (α : Type) := Prog Op Ans α

def act (op : Op) : Act (Ans op) := Prog.perform op

/-- A panic ends the process, so nothing follows it. -/
def panic {α : Type} : Act α := Prog.call .panic Empty.elim

/-! ### `wpa_ctrl.go` on an open connection -/

/-- A reply of `SendRawCmd`: its text, the command this call sent last, and the command
the peer answered with it. -/
structure Reply where
  text : GoString
  command : CmdId
  origin : Option CmdId
  deriving DecidableEq

namespace WpaCtrl

/-- The error of a two-result cgo call: `errno` if it is set. -/
def cgoError (e : Errno) : Option Cause := if e = 0 then none else some (.errno e)

/-- `wpa_ctrl_request` with its result, `errno`, and the reply. The retries of `send` and
`select` are part of the operations; a timeout leaves `errno` unset. -/
def request (c : Option Conn) (cmd : GoString) : Act (Int × Errno × Reply) := do
  match ← act (.send c cmd), c with
  | .ok id, some c =>
    match ← act (.recv c) with
    | .reply d => pure (0, 0, ⟨d.text, id, d.origin⟩)
    | .timeout => pure (-2, 0, ⟨[], id, none⟩)
    | .failed e => pure (-1, e, ⟨[], id, none⟩)
  | .ok id, none => pure (-1, 0, ⟨[], id, none⟩)
  | .error e, _ => pure (-1, e, ⟨[], 0, none⟩)

/-- `wpaCtrl.SendRawCmd` -/
def sendRawCmd (c : Option Conn) (req : GoString) : Act (Except GoError Reply) := do
  let (ret, err, reply) ← request c req
  if ret ≠ 0 then
    pure (.error (.request ⟨cgoError err, ret⟩))
  else if reply.text.length > State.bufSize then
    panic
  else
    pure (.ok reply)

end WpaCtrl

/-! ### `sharedSocket` -/

/-- `isSocketDead` -/
def isSocketDead (err : GoError) : Bool :=
  match err with
  | .request ⟨some (.errno e), _⟩ => !e.temporary
  | _ => false

/-- `openShared`, for the `Get` of `name` -/
def openShared (name device clientDir : GoString) : Act (Except GoError Ptr) := do
  match ← act (.openSock device clientDir) with
  | .error err => pure (.error err)
  | .ok s =>
    let sh ← act (.new name device clientDir s)
    pure (.ok sh)

namespace SharedSocket

variable (sh : Ptr)

/-- `!sh.cached && sh.refs == 0` -/
def testClosed : Act Bool := do
  let cached ← act (.cached sh)
  if !cached then
    let refs ← act (.refs sh)
    pure (refs == 0)
  else
    pure false

/-- `sharedSocket.reconnect`; its result is the error. -/
def reconnect : Act (Option GoError) := do
  let s ← act (.sock sh)
  let _ ← act (.closeSock s)
  act (.setSock sh none)
  let (device, clientDir) ← act (.device sh)
  match ← act (.openSock device clientDir) with
  -- `Open` returns `nil, err`, and `sh.s, err = ...` assigns both.
  | .error err =>
    act (.setSock sh none)
    pure (some err)
  | .ok s =>
    act (.setSock sh (some s))
    pure none

/-- `sharedSocket.SendRawCmd` -/
def sendRawCmd (cmd : GoString) : Act (Except GoError Reply) := do
  act (.lock (.smu sh))
  let s ← act (.sock sh)
  match ← WpaCtrl.sendRawCmd s cmd with
  | .ok reply =>
    act (.unlock (.smu sh))
    pure (.ok reply)
  | .error err =>
    -- One attempt at a new connection, and one more request on it
    if isSocketDead err then
      match ← reconnect sh with
      | some err =>
        act (.unlock (.smu sh))
        pure (.error err)
      | none =>
        let s ← act (.sock sh)
        let res ← WpaCtrl.sendRawCmd s cmd
        act (.unlock (.smu sh))
        pure res
    else
      act (.unlock (.smu sh))
      pure (.error err)

/-- `sharedSocket.inc` -/
def inc : Act Bool := do
  act (.lock (.fmu sh))
  if ← testClosed sh then
    act (.unlock (.fmu sh))
    pure true
  else
    act (.incRefs sh)
    act (.unlock (.fmu sh))
    pure false

/-- `sharedSocket.cache` -/
def cache : Act Bool := do
  act (.lock (.fmu sh))
  let closed ← testClosed sh
  if !closed then
    act (.setCached sh true)
    act (.unlock (.fmu sh))
    pure closed
  else
    act (.unlock (.fmu sh))
    pure closed

/-- The end of `uncache` and of `Close`: take the `Socket` out and close it. -/
def closeUnderlying : Act (Option GoError) := do
  act (.lock (.smu sh))
  let s ← act (.sock sh)
  act (.setSock sh none)
  let err ← act (.closeSock s)
  act (.unlock (.smu sh))
  act (.unlock (.fmu sh))
  pure err

/-- `sharedSocket.uncache` -/
def uncache : Act (Bool × Option GoError) := do
  act (.lock (.fmu sh))
  let cached ← act (.cached sh)
  if !cached then
    let refs ← act (.refs sh)
    act (.unlock (.fmu sh))
    pure (refs == 0, none)
  else
    act (.setCached sh false)
    let refs ← act (.refs sh)
    if refs == 0 then
      let err ← closeUnderlying sh
      pure (true, err)
    else
      act (.unlock (.fmu sh))
      pure (false, none)

/-- `sharedSocket.isOpen` -/
def isOpen : Act Bool := do
  act (.lock (.fmu sh))
  let open' ← testClosed sh
  act (.unlock (.fmu sh))
  pure open'

/-- The error of a `Close` without a reference -/
def closedTwice : GoError := .other (lit "socket: tried to close more than once")

/-- `sharedSocket.Close` -/
def close : Act (Option GoError) := do
  act (.lock (.fmu sh))
  let refs ← act (.refs sh)
  if refs == 0 then
    act (.unlock (.fmu sh))
    pure (some closedTwice)
  else
    act (.decRefs sh)
    let refs ← act (.refs sh)
    if refs == 0 then
      let cached ← act (.cached sh)
      if !cached then
        closeUnderlying sh
      else
        act (.unlock (.fmu sh))
        pure none
    else
      act (.unlock (.fmu sh))
      pure none

end SharedSocket

/-! ### `Manager` -/

/-- The exported fields of a `Manager`, which no function changes. -/
structure Manager where
  hostapdDir : GoString
  clientDir : GoString
  limit : Int

namespace Manager

variable (m : Manager)

/-- The loop of `Manager.evict` over what is left of the map's entries -/
def evictLoop (need : Int) : List (GoString × Ptr) → Act Unit
  | [] => pure ()
  | (k, sock) :: rest => do
    -- `isOpen` is true of closed ones: this branch takes the entries in use.
    if !(← SharedSocket.isOpen sock) then
      act (.delete k)
      evictLoop need rest
    else
      let count ← act .count
      if count > m.limit - need then
        if ← act (.cached sock) then
          act (.addCount (-1))
          let (closed, _) ← SharedSocket.uncache sock
          if closed then
            act (.delete k)
            evictLoop need rest
          else
            evictLoop need rest
        else
          evictLoop need rest
      else
        evictLoop need rest

/-- `Manager.evict`; a deletion during a `range` only concerns the entry just visited. -/
def evict (need : Int) : Act Unit := do
  let entries ← act .range
  m.evictLoop need entries

/-- The end of `store` in `Manager.Get` -/
def storeEntry (name : GoString) (s : Ptr) : Act Unit := do
  -- A read of the flag without `fmu`
  if !(← act (.cached s)) then
    if ← SharedSocket.cache s then
      panic
    else
      act (.addCount 1)
      act (.insert name s)
  else
    act (.insert name s)

/-- `store` in `Manager.Get` -/
def store (name : GoString) (s : Ptr) : Act Unit := do
  if m.limit ≠ 0 then
    let size ← act .size
    if (size : Int) ≥ m.limit then
      m.evict 1
      storeEntry name s
    else
      storeEntry name s
  else
    storeEntry name s

/-- The lookup of `Manager.Get`: a sharedSocket to reuse, with a reference taken. The map
is never nil here, since `Get` makes it first. -/
def reuse (name : GoString) : Act (Option Ptr) := do
  match ← act (.lookup name) with
  | some s =>
    if ← SharedSocket.inc s then
      pure none
    else
      pure (some s)
  | none => pure none

/-- `Manager.Get` -/
def get (name : GoString) : Act (Except GoError Ptr) := do
  act (.lock .mu)
  match ← reuse name with
  | some s =>
    store m name s
    act (.unlock .mu)
    pure (.ok s)
  | none =>
    match ← openShared name (Path.join m.hostapdDir name) m.clientDir with
    | .error err =>
      act (.unlock .mu)
      pure (.error err)
    | .ok s =>
      store m name s
      act (.unlock .mu)
      pure (.ok s)

end Manager

/-- `Manager.Available`, for what `os.Open` and `Readdir` of the directory come to: the names
of its entries, each with whether it is a socket -/
def Manager.available (ents : Except GoError (List (GoString × Bool))) :
    Except GoError (List GoString) :=
  ents.map fun ents => (ents.filter Prod.snd).map Prod.fst

/-! ### The system of all callers -/

/-- What a call returns to its caller. -/
inductive Res where
  | get (r : Except GoError Ptr)
  | sendRawCmd (r : Except GoError Reply)
  | close (err : Option GoError)

variable {ι : Type} [DecidableEq ι]

/-- The program of a call -/
def body (m : Manager) : Call → Act Res
  | .get name => Res.get <$> m.get name
  | .sendRawCmd sh cmd => Res.sendRawCmd <$> SharedSocket.sendRawCmd sh cmd
  | .close sh => Res.close <$> SharedSocket.close sh

/-- A caller passes to `SendRawCmd` and `Close` only what one of its `Get`s returned. A
handle is spent when `Close` is called with it. -/
def State.start (i : ι) (call : Call) (s : State ι) : Option (State ι) :=
  let s' := { s with call := Function.update s.call i (some call) }
  match call with
  | .get _ => some s'
  | .sendRawCmd sh _ => if sh ∈ s.held i ∨ sh ∈ s.spent i then some s' else none
  | .close sh =>
    if sh ∈ s.held i ∨ sh ∈ s.spent i then
      some { s' with
        held := Function.update s.held i ((s.held i).erase sh)
        spent := Function.update s.spent i (sh :: s.spent i) }
    else none

def State.finish (i : ι) (call : Call) (res : Res) (s : State ι) : State ι :=
  let s' := { s with call := Function.update s.call i none }
  match call, res with
  | .get _, .get (.ok sh) => { s' with held := Function.update s.held i (sh :: s.held i) }
  | _, _ => s'

/-- Any number of callers of one `Manager`, and the peers of its connections -/
def system (ι : Type) [DecidableEq ι] (m : Manager) :
    System ι Op Ans (State ι) Choice Call Res where
  exec i op ch s := s.exec i op ch
  body := body m
  start i call s := s.start i call
  finish i call res s := s.finish i call res
  env ch s := s.peer ch

def initial (ι : Type) : Config ι Op Ans (State ι) Call Res := ⟨State.init, fun _ => .idle⟩

end HostapdGrpc.Socket
