import HostapdGrpc.Server.Service
import Mathlib.Data.List.AList

/-!
# The gauge of connected clients

`metrics.go`, with the calls of `util.go` that it makes to a server in the same process.
-/

namespace HostapdGrpc.Server

open Go Interaction

/-- `hostapd.HostapdControlServer` -/
structure HostapdControlServer where
  listSockets : Act (Except GoError SocketList)
  ping (req : PingRequest) : Act (Except GoError PongResponse)
  listClients (req : ListClientsRequest) : Act (Except GoError ListClientsResponse)

/-- A `*Service` as the server -/
def Service.server (fuel : Nat) : HostapdControlServer := ⟨listSockets, ping, listClients fuel⟩

/-! ### `util.go` -/

namespace Util

def listSockets (cli : HostapdControlServer) : Act (Except GoError (List GoString)) := do
  match ← cli.listSockets with
  | .error err => pure (.error err)
  | .ok res => pure (.ok (res.socket.map SocketMessage.name))

/-- The field `Error` of the response is not looked at. -/
def listClients (cli : HostapdControlServer) (socket : GoString) :
    Act (Except GoError (List Client)) := do
  match ← cli.listClients ⟨[socket]⟩ with
  | .error err => pure (.error err)
  | .ok res => pure (.ok res.client)

end Util

/-! ### `metrics.go` -/

/-- The calls of a `g.GaugeVec.WithLabelValues(sock).Set(float64(value))` -/
def setLabel (sock : GoString) (value : Nat) : List (Sigma Ans) :=
  [⟨.withLabelValues sock, ()⟩, ⟨.setGauge sock value, ()⟩]

/-- `scrapeErr` -/
abbrev SocketErrors := AList fun _ : GoString => GoError

/-- An error that `Scrape` returns: that of `listSockets`, or a `scrapeErr`. -/
inductive ScrapeError where
  | list (err : GoError)
  | sockets (errs : SocketErrors)

/-- `scrapeErr.err` -/
def SocketErrors.err (errs : SocketErrors) : Option ScrapeError :=
  if errs.entries.length ≠ 0 then some (.sockets errs) else none

namespace ConnectedClientsGauge

def clearLoop (socks : List GoString) : Act Unit :=
  match socks with
  | [] => pure ()
  | sock :: rest => do
    act (.withLabelValues sock)
    act (.setGauge sock 0)
    clearLoop rest

/-- `g.sockets` keeps every socket ever scraped, so that its label does not disappear. -/
def clear : Act Unit := do
  let socks ← act .knownSockets
  clearLoop socks

def scrapeSocket (cli : HostapdControlServer) (sock : GoString) : Act (Option GoError) := do
  match ← Util.listClients cli sock with
  | .error err => pure (some err)
  | .ok connectedClients =>
    act (.addSocket sock)
    act (.withLabelValues sock)
    act (.setGauge sock connectedClients.length)
    pure none

def scrapeLoop (cli : HostapdControlServer) (sockets : List GoString) (sErr : SocketErrors) :
    Act SocketErrors :=
  match sockets with
  | [] => pure sErr
  | sock :: rest => do
    match ← scrapeSocket cli sock with
    | some err => scrapeLoop cli rest (sErr.insert sock err)
    | none => scrapeLoop cli rest sErr

/-- What `Scrape` does with `g.mu` locked -/
def scrapeLocked (cli : HostapdControlServer) : Act (Option ScrapeError) := do
  match ← Util.listSockets cli with
  | .error err => pure (some (.list err))
  | .ok sockets =>
    clear
    let sErr ← scrapeLoop cli sockets ∅
    pure sErr.err

def scrape (cli : HostapdControlServer) : Act (Option ScrapeError) := do
  act .lockGauge
  let err ← scrapeLocked cli
  act .unlockGauge
  pure err

end ConnectedClientsGauge

end HostapdGrpc.Server
