import HostapdGrpc.Go.Errors
import HostapdGrpc.Interaction.ThreadPool
import Mathlib.Data.List.AList
import Mathlib.Data.List.TakeWhile

/-!
# The state shared by the goroutines

The memory of the package `socket` and the connections behind it: the `Manager`'s
fields, the `sharedSocket`s it has allocated, and for every connection the datagrams
on their way between `wpa_ctrl_request` and the peer. Each operation is one read, one
write, one lock or unlock, or one call into the system; between any two of them other
goroutines and the peer may step.
-/

namespace HostapdGrpc.Socket

open Go Interaction

/-- A `*sharedSocket` -/
abbrev Ptr := Nat

/-- A `Socket` that `Open` returned -/
abbrev Conn := Nat

/-- The commands sent on a connection, numbered from 0. -/
abbrev CmdId := Nat

/-- A datagram from the peer. `origin` is the command it answers, `none` for an
unsolicited message. -/
structure Datagram where
  text : GoString
  origin : Option CmdId
  deriving DecidableEq

/-- The test `res > 0 && reply[0] == '<'` of `wpa_ctrl_request` -/
def Datagram.isMessage (d : Datagram) : Bool := d.text.head? == some 60

/-- A `wpaCtrl` with the peer's side of the connection. `opener` and `home` say which
goroutine opened it and which `sharedSocket` it was stored in. -/
structure Connection (ι : Type) where
  opener : Option ι
  home : Option Ptr
  closed : Bool
  /-- Commands sent, and requests that returned a reply. -/
  sent : Nat
  replied : Nat
  /-- Commands the peer has not answered yet. -/
  outstanding : List CmdId
  queue : List Datagram

/-- The fields of the `sharedSocket`s, each as a function of the address. The field `name`
is not in the source: it records the name whose `Get` allocated the `sharedSocket`. -/
structure SharedSockets (ι : Type) where
  device : Ptr → GoString
  clientDir : Ptr → GoString
  smu : Ptr → Option ι
  s : Ptr → Option Conn
  fmu : Ptr → Option ι
  refs : Ptr → Nat
  cached : Ptr → Bool
  name : Ptr → GoString

/-- `refs == 0` and not cached, the state in which `inc` and `cache` report closed. -/
def SharedSockets.closed {ι : Type} (heap : SharedSockets ι) (p : Ptr) : Bool :=
  !heap.cached p && heap.refs p == 0

/-- The mutexes; a locked one records its holder. -/
inductive Lock where
  | mu
  | fmu (sh : Ptr)
  | smu (sh : Ptr)
  deriving DecidableEq

/-- What callers of the package do. -/
inductive Call where
  | get (name : GoString)
  | sendRawCmd (sh : Ptr) (cmd : GoString)
  | close (sh : Ptr)
  deriving DecidableEq

/-- Memory, connections, and what the callers hold.

`held i` are the handles that `Get`s returned to caller `i` and that it has not passed
to `Close`, `spent i` those it has; `taken i` are the references that `i` has counted in
some `refs` field and not yet given up. -/
structure State (ι : Type) where
  mu : Option ι
  sockets : AList fun _ : GoString => Ptr
  cached : Int
  heap : SharedSockets ι
  /-- Addresses from here on are not allocated. -/
  next : Ptr
  conn : Conn → Connection ι
  nextConn : Conn
  call : ι → Option Call
  held : ι → List Ptr
  spent : ι → List Ptr
  taken : ι → List Ptr

/-! ### Operations -/

inductive Received where
  | reply (d : Datagram)
  | timeout
  | failed (e : Errno)

inductive Op where
  | lock (l : Lock)
  | unlock (l : Lock)
  /-- `sh.refs`, `sh.refs++`, `sh.refs--` -/
  | refs (sh : Ptr)
  | incRefs (sh : Ptr)
  | decRefs (sh : Ptr)
  /-- `sh.cached`, `sh.cached = b` -/
  | cached (sh : Ptr)
  | setCached (sh : Ptr) (b : Bool)
  /-- `sh.s`, `sh.s = s` -/
  | sock (sh : Ptr)
  | setSock (sh : Ptr) (s : Option Conn)
  /-- `sh.device, sh.clientDir` -/
  | device (sh : Ptr)
  /-- `m.sockets[name]` read, written and deleted, its length, and the order of a `range` -/
  | lookup (name : GoString)
  | insert (name : GoString) (sh : Ptr)
  | delete (name : GoString)
  | size
  | range
  /-- `m.cached`, `m.cached += z` -/
  | count
  | addCount (z : Int)
  /-- `&sharedSocket{device, clientDir, s, refs: 1}` -/
  | new (name device clientDir : GoString) (s : Conn)
  /-- `Open(device, clientDir)` -/
  | openSock (device clientDir : GoString)
  /-- `send` and the wait for a reply of `wpa_ctrl_request`, `wpa_ctrl_close` -/
  | send (s : Option Conn) (cmd : GoString)
  | recv (s : Conn)
  | closeSock (s : Option Conn)
  | panic

abbrev Ans : Op → Type
  | .refs _ | .size => Nat
  | .cached _ => Bool
  | .sock _ => Option Conn
  | .device _ => GoString × GoString
  | .lookup _ => Option Ptr
  | .range => List (GoString × Ptr)
  | .count => Int
  | .new _ _ _ _ => Ptr
  | .openSock _ _ => Except GoError Conn
  | .send _ _ => Except Errno CmdId
  | .recv _ => Received
  | .closeSock _ => Option GoError
  | .panic => Empty
  | _ => Unit

/-- What is outside the program: the order of a `range`, the outcomes of system calls,
and the moves of the peer. -/
inductive Choice where
  | go
  | order (entries : List (GoString × Ptr))
  | fail (e : Errno)
  | timeout
  | answer (c : Conn) (k : Nat) (text : GoString)
  | message (c : Conn) (text : GoString)

namespace State

variable {ι : Type} [DecidableEq ι] (s : State ι)

def holder : Lock → Option ι
  | .mu => s.mu
  | .fmu p => s.heap.fmu p
  | .smu p => s.heap.smu p

def setHolder (l : Lock) (h : Option ι) : State ι :=
  match l with
  | .mu => { s with mu := h }
  | .fmu p => { s with heap.fmu := Function.update s.heap.fmu p h }
  | .smu p => { s with heap.smu := Function.update s.heap.smu p h }

def setConn (c : Conn) (k : Connection ι) : State ι :=
  { s with conn := Function.update s.conn c k }

def entries : List (GoString × Ptr) := s.sockets.entries.map fun e => (e.1, e.2)

/-- The size of the reply buffer of `wpaCtrl.SendRawCmd` -/
def bufSize : Nat := 4096

/-- The wait of `wpa_ctrl_request`: the first datagram that is no unsolicited message is
the reply; a timeout needs that there is none. -/
def recv (c : Conn) (ch : Choice) : Option (Received × State ι) :=
  let k := s.conn c
  match ch with
  | .go =>
    match k.queue.dropWhile Datagram.isMessage with
    | d :: rest =>
      some (.reply { d with text := d.text.take bufSize },
        s.setConn c { k with queue := rest, replied := k.replied + 1 })
    -- Nothing to read yet
    | [] => none
  | .timeout =>
    -- The messages were read and dropped while waiting.
    if k.queue.all Datagram.isMessage then some (.timeout, s.setConn c { k with queue := [] })
    else none
  | .fail e => if e = 0 then none else some (.failed e, s)
  | _ => none

omit [DecidableEq ι] in
/-- A wait ends: with the first reply in the queue, or in a timeout if there is none. -/
theorem recv_ends (c : Conn) : (∃ r, s.recv c .go = some r) ∨ ∃ r, s.recv c .timeout = some r := by
  cases waiting : (s.conn c).queue.dropWhile Datagram.isMessage with
  | cons d rest => exact .inl (by simp [recv, waiting])
  | nil =>
    have messages := List.dropWhile_eq_nil_iff.mp waiting
    exact .inr (by simpa [recv] using messages)

/-- One operation of goroutine `i`. -/
def exec (i : ι) (op : Op) (ch : Choice) : Option (Ans op × State ι) :=
  match op with
  -- On a locked mutex the goroutine waits: there is no step.
  | .lock l => if s.holder l = none then some ((), s.setHolder l (some i)) else none
  | .unlock l => some ((), s.setHolder l none)
  | .refs p => some (s.heap.refs p, s)
  | .incRefs p => some ((), { s with
      heap.refs := Function.update s.heap.refs p (s.heap.refs p + 1)
      taken := Function.update s.taken i (p :: s.taken i) })
  | .decRefs p => some ((), { s with
      heap.refs := Function.update s.heap.refs p (s.heap.refs p - 1)
      taken := Function.update s.taken i ((s.taken i).erase p) })
  | .cached p => some (s.heap.cached p, s)
  | .setCached p b => some ((), { s with heap.cached := Function.update s.heap.cached p b })
  | .sock p => some (s.heap.s p, s)
  | .setSock p none => some ((), { s with heap.s := Function.update s.heap.s p none })
  | .setSock p (some c) => some ((), { s with
      heap.s := Function.update s.heap.s p (some c)
      conn := Function.update s.conn c { s.conn c with home := some p } })
  | .device p => some ((s.heap.device p, s.heap.clientDir p), s)
  | .lookup name => some (s.sockets.lookup name, s)
  | .insert name p => some ((), { s with sockets := s.sockets.insert name p })
  | .delete name => some ((), { s with sockets := s.sockets.erase name })
  | .size => some (s.sockets.keys.length, s)
  -- Go leaves the order of a `range` open.
  | .range =>
    match ch with
    | .go => some (s.entries, s)
    | .order es => if es.Perm s.entries then some (es, s) else none
    | _ => none
  | .count => some (s.cached, s)
  | .addCount z => some ((), { s with cached := s.cached + z })
  | .new name device clientDir c =>
    let p := s.next
    some (p, { s with
      heap.device := Function.update s.heap.device p device
      heap.clientDir := Function.update s.heap.clientDir p clientDir
      heap.smu := Function.update s.heap.smu p none
      heap.s := Function.update s.heap.s p (some c)
      heap.fmu := Function.update s.heap.fmu p none
      heap.refs := Function.update s.heap.refs p 1
      heap.cached := Function.update s.heap.cached p false
      heap.name := Function.update s.heap.name p name
      next := p + 1
      conn := Function.update s.conn c { s.conn c with home := some p }
      taken := Function.update s.taken i (p :: s.taken i) })
  | .openSock _ _ =>
    match ch with
    | .go => some (.ok s.nextConn, { s.setConn s.nextConn ⟨some i, none, false, 0, 0, [], []⟩ with
        nextConn := s.nextConn + 1 })
    | .fail e => if e = 0 then none else some (.error (.errno e), s)
    | _ => none
  -- A method of a nil `Socket` panics, which ends the process.
  | .send none _ => none
  | .send (some c) _ =>
    let k := s.conn c
    match ch with
    | .go => if k.closed then none else some (.ok k.sent,
        s.setConn c { k with sent := k.sent + 1, outstanding := k.outstanding ++ [k.sent] })
    | .fail e => if k.closed || e == 0 then none else some (.error e, s)
    | _ => none
  | .recv c => s.recv c ch
  | .closeSock none => none
  -- `wpa_ctrl_close` frees the connection, whatever `errno` is after it.
  | .closeSock (some c) =>
    match ch with
    | .go => some (none, s.setConn c { s.conn c with closed := true })
    | .fail e => if e = 0 then none else
        some (some (.errno e), s.setConn c { s.conn c with closed := true })
    | _ => none
  | .panic => none

/-- A move of the peer: it answers a command it has received, with any text, or sends an
unsolicited message. -/
def peer (ch : Choice) : Option (State ι) :=
  match ch with
  | .answer c n text =>
    let k := s.conn c
    match k.outstanding[n]? with
    | some id => if k.closed then none else some (s.setConn c
        { k with outstanding := k.outstanding.eraseIdx n, queue := k.queue ++ [⟨text, some id⟩] })
    | none => none
  | .message c text =>
    let k := s.conn c
    if k.closed ∨ ¬Datagram.isMessage ⟨text, none⟩ then none
    else some (s.setConn c { k with queue := k.queue ++ [⟨text, none⟩] })
  | _ => none

/-- Nothing opened, nothing allocated, no caller in a call. -/
def init : State ι where
  mu := none
  sockets := ∅
  cached := 0
  heap := ⟨fun _ => [], fun _ => [], fun _ => none, fun _ => none, fun _ => none, fun _ => 0,
    fun _ => false, fun _ => []⟩
  next := 0
  conn _ := ⟨none, none, false, 0, 0, [], []⟩
  nextConn := 0
  call _ := none
  held _ := []
  spent _ := []
  taken _ := []

end State

end HostapdGrpc.Socket
