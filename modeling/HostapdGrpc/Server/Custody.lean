import HostapdGrpc.Interaction.Ownership
import HostapdGrpc.Server.Gauge

/-!
# The sockets that a method has

A method sends commands only to sockets that it got and has not closed, and it closes none
twice. A `Ping` leaves its goroutine with the sockets it had before; a listing adds those that
it got.
-/

namespace HostapdGrpc.Server

open Go Interaction

def custody : Custody Op Ans Sock where
  needs
    | .sendRawCmd sock _ => some sock
    | .close sock => some sock
    | _ => none
  after
    | .get _, .ok sock, held => sock :: held
    | .close sock, _, held => held.erase sock
    | _, _, held => held

variable {α : Type} {held : List Sock}

/-- The call has nothing to do with a socket. -/
private def Apart (op : Op) : Prop := custody.needs op = none ∧ ∀ x l, custody.after op x l = l

private theorem apart_panic : Apart .panic := ⟨rfl, fun x => x.elim⟩

private theorem apart_stuck : Apart .stuck := ⟨rfl, fun x => x.elim⟩

private theorem apart_available : Apart .available := ⟨rfl, fun _ _ => rfl⟩

private theorem owns_apart {p : Act α} (only : p.Only Apart) :
    Owns custody held p fun _ l => l = held :=
  .of_only only fun _ apart => apart

private theorem owns_statusErr (err : GoError) :
    Owns custody held (statusErr err) fun _ l => l = held :=
  owns_apart (only_statusErr apart_panic err)

private theorem owns_getSockets (socketName : List GoString) :
    Owns custody held (getSockets socketName) fun _ l => l = held :=
  owns_apart (only_getSockets apart_panic apart_available socketName)

/-- A call that has nothing to do with a socket, before others -/
private theorem owns_other {op : Op} {k : Ans op → Act α} {Q : α → List Sock → Prop}
    (apart : Apart op) (rest : ∀ x, Owns custody held (k x) Q) :
    Owns custody held (act op >>= k) Q := by
  refine (owns_apart (.perform apart)).bind fun x l same => ?_
  subst same
  exact rest x

private theorem owns_get {name : GoString} {k : Except GoError Sock → Act α}
    {Q : α → List Sock → Prop} (failed : ∀ err, Owns custody held (k (.error err)) Q)
    (got : ∀ sock, Owns custody (sock :: held) (k (.ok sock)) Q) :
    Owns custody held (act (.get name) >>= k) Q :=
  .call (fun _ needed => by cases needed) fun ans => match ans with
    | .error err => failed err
    | .ok sock => got sock

private theorem owns_send {sock : Sock} {cmd : GoString} {k : Except GoError GoString → Act α}
    {Q : α → List Sock → Prop} (mine : sock ∈ held) (rest : ∀ x, Owns custody held (k x) Q) :
    Owns custody held (act (.sendRawCmd sock cmd) >>= k) Q :=
  .call (fun _ needed => by cases needed; exact mine) rest

/-! ### `Ping` -/

private theorem owns_pingOpened (sock : Sock) (sockName : GoString) (mine : sock ∈ held) :
    Owns custody held (pingOpened sock sockName) fun _ l => l = held := by
  refine owns_send mine fun ans => ?_
  split
  · exact .ret rfl
  · exact .map _ (owns_statusErr _)
  · split <;> exact .ret rfl

private theorem owns_pingSocket (sockName : GoString) :
    Owns custody held (pingSocket sockName) fun _ l => l = held := by
  refine owns_get (fun err => .map _ (owns_statusErr err)) fun sock => ?_
  refine (owns_pingOpened sock sockName List.mem_cons_self).bind fun res l same => ?_
  subst same
  -- The deferred `Close` gives up the socket that was got.
  refine .call (fun _ needed => by cases needed; exact List.mem_cons_self) fun _ => .ret ?_
  exact List.erase_cons_head sock held

private theorem owns_pingLoop (sockets : List GoString) (res : PongResponse) :
    Owns custody held (pingLoop sockets res) fun _ l => l = held := by
  induction sockets generalizing res with
  | nil => exact .ret rfl
  | cons sockName sockets ih =>
    refine (owns_pingSocket sockName).bind fun ans l same => ?_
    subst same
    cases ans with
    | error err => exact .ret rfl
    | ok pong => exact ih _

theorem owns_ping (req : PingRequest) : Owns custody held (ping req) fun _ l => l = held := by
  refine (owns_getSockets _).bind fun ans l same => ?_
  subst same
  cases ans with
  | error err => exact .ret rfl
  | ok sockets => exact owns_pingLoop sockets _

/-! ### `ListClients` -/

private theorem owns_staLoop (sock : Sock) (sockName : GoString) (fuel : Nat) (tok : GoString)
    (clis : List Client) (mine : sock ∈ held) :
    Owns custody held (staLoop sock sockName fuel tok clis) fun _ l => l = held := by
  induction fuel generalizing tok clis with
  | zero =>
    unfold staLoop
    split
    · exact .ret rfl
    · exact owns_apart (.call apart_stuck fun x => x.elim)
  | succ fuel ih =>
    unfold staLoop
    split
    · exact .ret rfl
    · refine owns_send mine fun ans => ?_
      cases ans with
      | error err => exact .ret rfl
      | ok next => exact ih next _

private theorem owns_listClientsOnSock (fuel : Nat) (sockName : GoString) :
    Owns custody held (listClientsOnSock fuel sockName) fun _ l => held <:+ l := by
  refine owns_get (fun err => .ret (List.suffix_refl _)) fun sock => ?_
  -- The socket is not given up, whatever its peer replies.
  have kept {β : Type} : ∀ (_ : β) l, l = sock :: held → held <:+ l := by
    rintro _ _ rfl
    exact List.suffix_cons sock held
  refine owns_send List.mem_cons_self fun ans => ?_
  cases ans with
  | error err => exact .ret (List.suffix_cons sock held)
  | ok tok => exact (owns_staLoop sock sockName fuel tok [] List.mem_cons_self).mono kept

private theorem owns_listClientsLoop (fuel : Nat) (sockets : List GoString)
    (res : ListClientsResponse) :
    Owns custody held (listClientsLoop fuel sockets res) fun _ l => held <:+ l := by
  induction sockets generalizing held res with
  | nil => exact .ret (List.suffix_refl _)
  | cons sockName sockets ih =>
    refine (owns_listClientsOnSock fuel sockName).bind fun ans l more => ?_
    have onward : ∀ res', Owns custody l (listClientsLoop fuel sockets res') fun _ l' =>
        held <:+ l' := fun res' => (ih res').mono fun _ _ more' => more.trans more'
    split
    · exact onward _
    · refine .map _ ((owns_statusErr _).mono ?_)
      rintro _ _ rfl
      exact more
    · exact onward _

theorem owns_listClients (fuel : Nat) (req : ListClientsRequest) :
    Owns custody held (listClients fuel req) fun _ l => held <:+ l := by
  refine (owns_getSockets _).bind fun ans l same => ?_
  subst same
  cases ans with
  | error err => exact .ret (List.suffix_refl _)
  | ok sockets => exact owns_listClientsLoop fuel sockets _

/-! ### `ListSockets` and `Scrape` -/

theorem owns_listSockets : Owns custody held listSockets fun _ l => l = held := by
  refine owns_other apart_available fun ans => ?_
  cases ans <;> exact .ret rfl

namespace ConnectedClientsGauge

private theorem owns_clearLoop (socks : List GoString) :
    Owns custody held (clearLoop socks) fun _ l => l = held := by
  induction socks with
  | nil => exact .ret rfl
  | cons sock socks ih =>
    exact owns_other ⟨rfl, fun _ _ => rfl⟩ fun _ => owns_other ⟨rfl, fun _ _ => rfl⟩ fun _ => ih

private theorem owns_util_listClients (fuel : Nat) (sock : GoString) :
    Owns custody held (Util.listClients (Service.server fuel) sock) fun _ l => held <:+ l := by
  refine (owns_listClients fuel _).bind fun ans l more => ?_
  cases ans <;> exact .ret more

private theorem owns_util_listSockets (fuel : Nat) :
    Owns custody held (Util.listSockets (Service.server fuel)) fun _ l => l = held := by
  refine owns_listSockets.bind fun ans l same => ?_
  cases ans <;> exact .ret same

private theorem owns_scrapeSocket (fuel : Nat) (sock : GoString) :
    Owns custody held (scrapeSocket (Service.server fuel) sock) fun _ l => held <:+ l := by
  refine (owns_util_listClients fuel sock).bind fun ans l more => ?_
  cases ans with
  | error err => exact .ret more
  | ok clis =>
    exact owns_other ⟨rfl, fun _ _ => rfl⟩ fun _ => owns_other ⟨rfl, fun _ _ => rfl⟩ fun _ =>
      owns_other ⟨rfl, fun _ _ => rfl⟩ fun _ => .ret more

private theorem owns_scrapeLoop (fuel : Nat) (sockets : List GoString) (sErr : SocketErrors) :
    Owns custody held (scrapeLoop (Service.server fuel) sockets sErr) fun _ l => held <:+ l := by
  induction sockets generalizing held sErr with
  | nil => exact .ret (List.suffix_refl _)
  | cons sock sockets ih =>
    refine (owns_scrapeSocket fuel sock).bind fun err l more => ?_
    cases err <;> exact (ih _).mono fun _ _ more' => more.trans more'

private theorem owns_scrapeLocked (fuel : Nat) :
    Owns custody held (scrapeLocked (Service.server fuel)) fun _ l => held <:+ l := by
  refine (owns_util_listSockets fuel).bind fun ans l same => ?_
  subst same
  cases ans with
  | error err => exact .ret (List.suffix_refl _)
  | ok sockets =>
    refine .bind (owns_other ⟨rfl, fun _ _ => rfl⟩ fun socks => owns_clearLoop socks) ?_
    rintro _ _ rfl
    exact (owns_scrapeLoop fuel sockets ∅).bind fun _ _ more => .ret more

theorem owns_scrape (fuel : Nat) :
    Owns custody held (scrape (Service.server fuel)) fun _ l => held <:+ l := by
  refine owns_other ⟨rfl, fun _ _ => rfl⟩ fun _ => ?_
  refine (owns_scrapeLocked fuel).bind fun err l more => ?_
  exact owns_other ⟨rfl, fun _ _ => rfl⟩ fun _ => .ret more

end ConnectedClientsGauge

end HostapdGrpc.Server
