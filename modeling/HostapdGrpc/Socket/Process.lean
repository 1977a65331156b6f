import HostapdGrpc.Interaction.Interpret
import HostapdGrpc.Socket.Manager
import HostapdGrpc.Socket.WpaCtrlOpen

/-!
# The process below the manager

`Open` and `wpaCtrl.Close` as the system calls they make, on the descriptors and the socket
files of one process. Between any two calls other goroutines may make theirs.
-/

namespace HostapdGrpc.Socket

open Go Interaction

/-! ### `wpa_ctrl_close` -/

/-- `wpa_ctrl_close`; the descriptor of a connection is never negative. -/
def wpaCtrlClose (ctrl : Option WpaCtrl) : CAct Unit := do
  match ctrl with
  | none => pure ()
  | some ctrl =>
    let _ ← sys (.unlink ctrl.localPath)
    sys (.close ctrl.s)

/-- The two-result call of `wpa_ctrl_close` from Go -/
def callClose (ctrl : Option WpaCtrl) : CAct Errno := do
  sys (.setErrno 0)
  wpaCtrlClose ctrl
  sys .errno

/-! ### Operations -/

inductive ProcOp where
  | mem (op : Op)
  /-- A system call; `own` is the descriptor of the connection that it is to close. -/
  | sys (own : Option Fd) (op : SysOp)
  /-- `&wpaCtrl{ctrl: ctrl}` -/
  | wrap (ctrl : Option WpaCtrl)
  /-- `c.ctrl`, `c.ctrl = nil` -/
  | ctrl (c : Conn)
  | clearCtrl (c : Conn)

abbrev ProcAns : ProcOp → Type
  | .mem op => Ans op
  | .sys _ op => SysAns op
  | .wrap _ => Conn
  | .ctrl _ => Option WpaCtrl
  | .clearCtrl _ => Unit

abbrev ProcAct (α : Type) := Prog ProcOp ProcAns α

def proc (op : ProcOp) : ProcAct (ProcAns op) := Prog.perform op

/-- The system calls of `p` -/
def sysBy {α : Type} (own : Option Fd) (p : CAct α) : ProcAct α :=
  p.interpret fun op => proc (.sys own op)

/-- `Open`, with the `wpaCtrl` it returns -/
def openConn (device clientDir : GoString) : ProcAct (Except GoError Conn) := do
  match ← sysBy none (openSocket device clientDir) with
  | .error err => pure (.error err)
  | .ok ctrl =>
    let c ← proc (.wrap ctrl)
    pure (.ok c)

/-- `wpaCtrl.Close` -/
def closeConn (c : Conn) : ProcAct (Option GoError) := do
  let ctrl ← proc (.ctrl c)
  let errno ← sysBy (ctrl.map WpaCtrl.s) (callClose ctrl)
  proc (.clearCtrl c)
  pure (if errno = 0 then none else some (.errno errno))

/-- An operation of the manager, with an `Open` and a `Close` in steps of their own -/
def carryOut (op : Op) : ProcAct (Ans op) :=
  match op with
  | .openSock device clientDir => openConn device clientDir
  | .closeSock (some c) => closeConn c
  | op => proc (.mem op)

/-! ### Descriptors, paths and the counter -/

/-- `counter++` of an `int`: where it overflows, which C leaves undefined, it wraps around. -/
def increment (counter : Int) : Int := if counter = intMax then -intMax - 1 else counter + 1

/-- What client paths depend on. The field `mine` is not in the source: it records the value
of the counter after the increment in the `Open` that `i` is in, until that has bound its path. -/
structure Naming (ι : Type) where
  counter : Int
  mine : ι → Option Int
  /-- The open descriptors, each with the path it is bound to -/
  fd : Fd → Option (Option GoString)
  ctrl : Conn → Option WpaCtrl

namespace Naming

variable {ι : Type} (n : Naming ι)

def init : Naming ι := ⟨0, fun _ => none, fun _ => none, fun _ => none⟩

def numbered [DecidableEq ι] (i : ι) : Naming ι :=
  { n with
    counter := increment n.counter
    mine := Function.update n.mine i (some (increment n.counter)) }

def opened (a : Fd) : Naming ι := { n with fd := Function.update n.fd a (some none) }

def bound [DecidableEq ι] (i : ι) (a : Fd) (path : GoString) : Naming ι :=
  { n with
    mine := Function.update n.mine i none
    fd := Function.update n.fd a (some (some path)) }

def closed (a : Fd) : Naming ι := { n with fd := Function.update n.fd a none }

def setCtrl (c : Conn) (ctrl : Option WpaCtrl) : Naming ι :=
  { n with ctrl := Function.update n.ctrl c ctrl }

end Naming

/-- Memory and connections, each thread's `errno`, the socket files there are, and what
client paths depend on -/
structure Process (ι : Type) where
  mem : State ι
  errno : ι → Errno
  files : GoString → Bool
  naming : Naming ι

/-- What is outside the program, with the outcomes of the calls of `Open` and `Close` -/
inductive ProcChoice where
  | mem (ch : Choice)
  | go
  /-- The number that a call returns -/
  | number (n : Nat)
  | fail (e : Errno)

namespace Process

variable {ι : Type} [DecidableEq ι] (s : Process ι)

def setErrno (i : ι) (e : Errno) : Process ι := { s with errno := Function.update s.errno i e }

/-- A call fails with `e` and returns `a`. -/
def failing {α : Type} (i : ι) (e : Errno) (a : α) : Option (α × Process ι) :=
  if e = 0 then none else some (a, s.setErrno i e)

/-- A call that succeeds, which leads to `s'`, or fails -/
def attempt (i : ι) (ch : ProcChoice) (s' : Process ι) : Option (Bool × Process ι) :=
  match ch with
  | .go => some (true, s')
  | .fail e => s.failing i e false
  | _ => none

/-- One system call of goroutine `i` -/
def sysExec (pid : Int) (i : ι) (op : SysOp) (ch : ProcChoice) : Option (SysAns op × Process ι) :=
  match op with
  | .errno => some (s.errno i, s)
  | .setErrno e => some ((), s.setErrno i e)
  | .zalloc => s.attempt i ch s
  | .socket =>
    match ch with
    | .number a =>
      if s.naming.fd a = none then some (some a, { s with naming := s.naming.opened a }) else none
    | .fail e => s.failing i e none
    | _ => none
  | .incCounter => some ((), { s with naming := s.naming.numbered i })
  | .counter => some (s.naming.counter, s)
  | .getpid => some (pid, s)
  -- The address is in use if there is a file, bound or left over.
  | .bind a path =>
    match ch with
    | .go =>
      if s.naming.fd a = some none ∧ s.files path = false then
        some (true, { s with
          files := Function.update s.files path true
          naming := s.naming.bound i a path })
      else none
    | .fail e =>
      if e = Errno.eaddrinuse ∧ s.files path = false then none else s.failing i e false
    | _ => none
  | .unlink path =>
    match ch with
    | .go =>
      if s.files path then some (true, { s with files := Function.update s.files path false })
      else none
    | .fail e => s.failing i e false
    | _ => none
  | .connect _ _ => s.attempt i ch s
  | .getFlags _ =>
    match ch with
    | .number flags => some (some flags, s)
    | .fail e => s.failing i e none
    | _ => none
  | .setFlags _ _ => s.attempt i ch s
  -- The descriptor is released even if `close` fails.
  | .close a =>
    match ch with
    | .go => some ((), { s with naming := s.naming.closed a })
    | .fail e => { s with naming := s.naming.closed a }.failing i e ()
    | _ => none

/-- One operation of goroutine `i` -/
def exec (pid : Int) (i : ι) (op : ProcOp) (ch : ProcChoice) :
    Option (ProcAns op × Process ι) :=
  match op with
  | .mem op =>
    match ch with
    | .mem ch => (s.mem.exec i op ch).map fun r => (r.1, { s with mem := r.2 })
    | _ => none
  | .sys _ op => s.sysExec pid i op ch
  | .wrap ctrl =>
    let c := s.mem.nextConn
    some (c, { s with
      mem := { s.mem.setConn c ⟨some i, none, false, 0, 0, [], []⟩ with nextConn := c + 1 }
      naming := s.naming.setCtrl c ctrl })
  | .ctrl c => some (s.naming.ctrl c, s)
  | .clearCtrl c => some ((), { s with
      mem := s.mem.setConn c { s.mem.conn c with closed := true }
      naming := s.naming.setCtrl c none })

end Process

/-- Any number of callers of one `Manager` in the process `pid`, and the peers of its
connections -/
def process (ι : Type) [DecidableEq ι] (m : Manager) (pid : Int) :
    System ι ProcOp ProcAns (Process ι) ProcChoice Call Res where
  exec i op ch s := s.exec pid i op ch
  body call := (body m call).interpret carryOut
  start i call s := (s.mem.start i call).map fun mem => { s with mem := mem }
  finish i call res s := { s with mem := s.mem.finish i call res }
  env ch s :=
    match ch with
    | .mem ch => (s.mem.peer ch).map fun mem => { s with mem := mem }
    | _ => none

/-- Nothing opened; `files` are left over from other processes. -/
def launched (ι : Type) (files : GoString → Bool) :
    Config ι ProcOp ProcAns (Process ι) Call Res :=
  ⟨⟨State.init, fun _ => 0, files, .init⟩, fun _ => .idle⟩

end HostapdGrpc.Socket
