import HostapdGrpc.Interaction.Interpret
import HostapdGrpc.Server.Gauge
import HostapdGrpc.Socket.Manager

/-!
# The program

What `main.go` puts together: one `Manager`, the gRPC service over it, and the gauge. The
handlers of the requests and the scraper run side by side, and the methods they call are made
of the steps of the package `socket`.
-/

namespace HostapdGrpc.Server

open Go Interaction

/-! ### Tasks -/

/-- What a goroutine does: it handles a request, or scrapes. -/
inductive Task where
  | listSockets
  | request (req : Request)
  | scrape

inductive TaskRes where
  | sockets (r : Except GoError SocketList)
  | response (r : Except GoError Response)
  | scraped (err : Option ScrapeError)

def goroutine (fuel : Nat) : Task → Act TaskRes
  | .listSockets => TaskRes.sockets <$> listSockets
  | .request req => TaskRes.response <$> serve fuel req
  | .scrape => TaskRes.scraped <$> ConnectedClientsGauge.scrape (Service.server fuel)

/-! ### The service over the manager -/

/-- The calls of the service that are one step, and the steps of the package `socket`. A call of
the latter has a beginning and an end, for the record of who holds what. -/
inductive MainOp where
  | service (op : Op)
  | socket (op : Socket.Op)
  | enter (call : Socket.Call)
  | leave (call : Socket.Call) (res : Socket.Res)

abbrev MainAns : MainOp → Type
  | .service op => Ans op
  | .socket op => Socket.Ans op
  | .enter _ | .leave _ _ => Unit

abbrev MainAct (α : Type) := Prog MainOp MainAns α

def step (op : MainOp) : MainAct (MainAns op) := Prog.perform op

/-- The steps of the package `socket` -/
def steps {α : Type} (p : Socket.Act α) : MainAct α :=
  p.interpret fun op => step (.socket op)

def calling {α : Type} (call : Socket.Call) (p : Socket.Act α) (res : α → Socket.Res) :
    MainAct α := do
  step (.enter call)
  let a ← steps p
  step (.leave call (res a))
  pure a

/-- `Get` is that of the manager, the other methods are those of a `sharedSocket`. -/
def overManager (m : Socket.Manager) (op : Op) : MainAct (Ans op) :=
  match op with
  | .get name => calling (.get name) (m.get name) .get
  | .sendRawCmd sock cmd => Except.map Socket.Reply.text <$>
      calling (.sendRawCmd sock cmd) (Socket.SharedSocket.sendRawCmd sock cmd) .sendRawCmd
  | .close sock => calling (.close sock) (Socket.SharedSocket.close sock) .close
  | op => step (.service op)

/-! ### All goroutines -/

/-- The memory of the package `socket` with its connections, `g.mu`, and the gauge -/
structure Main (ι : Type) where
  mem : Socket.State ι
  gmu : Option ι
  gauge : Gauge

/-- What is outside the program -/
inductive MainChoice where
  | go
  | socket (ch : Socket.Choice)
  /-- What the directory of the sockets holds, or the text of a `PathError` -/
  | dir (ents : Except GoString (List (GoString × Bool)))
  /-- The order of a `range` over `g.sockets` -/
  | range (socks : List GoString)

namespace Main

variable {ι : Type} [DecidableEq ι] (s : Main ι)

def serviceExec (i : ι) (op : Op) (ch : MainChoice) : Option (Ans op × Main ι) :=
  match op with
  | .available =>
    match ch with
    | .dir (.error msg) => some (Socket.Manager.available (.error (.other msg)), s)
    -- The names in a directory are distinct.
    | .dir (.ok ents) =>
      if (ents.map Prod.fst).Nodup then some (Socket.Manager.available (.ok ents), s) else none
    | _ => none
  | .lockGauge => if s.gmu = none then some ((), { s with gmu := some i }) else none
  | .unlockGauge => some ((), { s with gmu := none })
  | .knownSockets =>
    match ch with
    | .range socks =>
      if socks.Nodup ∧ socks.toFinset = s.gauge.sockets then some (socks, s) else none
    | _ => none
  | .addSocket sock => some ((), { s with gauge := s.gauge.after ⟨.addSocket sock, ()⟩ })
  | .withLabelValues sock =>
    some ((), { s with gauge := s.gauge.after ⟨.withLabelValues sock, ()⟩ })
  | .setGauge sock value => some ((), { s with gauge := s.gauge.after ⟨.setGauge sock value, ()⟩ })
  -- The calls of the manager and of its sockets are no single steps; a panic ends the process.
  | _ => none

/-- One operation of goroutine `i` -/
def exec (i : ι) (op : MainOp) (ch : MainChoice) : Option (MainAns op × Main ι) :=
  match op with
  | .service op => s.serviceExec i op ch
  | .socket op =>
    match ch with
    | .socket ch => (s.mem.exec i op ch).map fun r => (r.1, { s with mem := r.2 })
    | _ => none
  | .enter call => (s.mem.start i call).map fun mem => ((), { s with mem := mem })
  | .leave call res => some ((), { s with mem := s.mem.finish i call res })

variable {s} {s' : Main ι} {i : ι}

omit [DecidableEq ι] in
/-- A call of the service leaves the package `socket` alone. -/
theorem serviceExec_mem {op : Op} {ch : MainChoice} {a : Ans op}
    (done : s.serviceExec i op ch = some (a, s')) : s'.mem = s.mem := by
  cases op <;> simp only [serviceExec] at done <;> (try split at done) <;>
    (try split at done) <;> cases done <;> rfl

/-- A step of the package is one of its memory. -/
theorem exec_socket {op : Socket.Op} {ch : MainChoice} {a : Socket.Ans op}
    (done : s.exec i (.socket op) ch = some (a, s')) : ∃ ch' mem, ch = .socket ch' ∧
      s.mem.exec i op ch' = some (a, mem) ∧ s' = { s with mem := mem } := by
  simp only [exec] at done
  split at done
  next ch =>
    obtain ⟨⟨b, mem⟩, moved, same⟩ := Option.map_eq_some_iff.mp done
    cases same
    exact ⟨ch, mem, rfl, moved, rfl⟩
  · cases done

end Main

/-- Any number of goroutines of the program, and the peers of its connections -/
def main (ι : Type) [DecidableEq ι] (m : Socket.Manager) (fuel : Nat) :
    System ι MainOp MainAns (Main ι) MainChoice Task TaskRes where
  exec i op ch s := s.exec i op ch
  body task := (goroutine fuel task).interpret (overManager m)
  start _ _ s := some s
  finish _ _ _ s := s
  env ch s :=
    match ch with
    | .socket ch => (s.mem.peer ch).map fun mem => { s with mem := mem }
    | _ => none

/-- Nothing opened, nothing scraped, no goroutine in a task -/
def starting (ι : Type) : Config ι MainOp MainAns (Main ι) Task TaskRes :=
  ⟨⟨Socket.State.init, none, .new⟩, fun _ => .idle⟩

end HostapdGrpc.Server
