import HostapdGrpc.Server.Service

/-!
# The calls of the methods

Which calls the methods of the service can come to, whatever these are answered.
-/

namespace HostapdGrpc.Server

open Go Interaction

def Op.ofListing : Op → Bool
  | .get _ | .available | .sendRawCmd _ _ | .panic | .stuck => true
  | _ => false

/-- The calls of `ListClients` -/
structure Op.Listing (op : Op) : Prop where
  listing : op.ofListing = true

theorem only_act {P : Op → Prop} {op : Op} (here : P op) : (act op).Only P :=
  .perform here

theorem only_statusErr {P : Op → Prop} (atPanic : P .panic) (err : GoError) :
    (statusErr err).Only P := by
  unfold statusErr
  split
  · exact .ret _
  · exact .call atPanic fun x => x.elim

theorem only_getSockets {P : Op → Prop} (atPanic : P .panic) (atAvailable : P .available)
    (socketName : List GoString) : (getSockets socketName).Only P := by
  unfold getSockets
  split
  · refine (only_act atAvailable).bind fun ans => ?_
    cases ans with
    | error err => exact (only_statusErr atPanic err).map _
    | ok sockets => exact .ret _
  · exact .ret _

/-! ### `ListClients` -/

private theorem only_staLoop (sock : Sock) (sockName : GoString) (fuel : Nat) (tok : GoString)
    (clis : List Client) :
    (staLoop sock sockName fuel tok clis).Only Op.Listing := by
  induction fuel generalizing tok clis with
  | zero =>
    unfold staLoop
    split
    · exact .ret _
    · exact .call ⟨rfl⟩ fun x => x.elim
  | succ fuel ih =>
    unfold staLoop
    split
    · exact .ret _
    · refine Prog.Only.bind (only_act ⟨rfl⟩) fun ans => ?_
      cases ans with
      | error err => exact .ret _
      | ok next => exact ih next _

theorem only_listClientsOnSock (fuel : Nat) (sockName : GoString) :
    (listClientsOnSock fuel sockName).Only Op.Listing := by
  unfold listClientsOnSock
  refine Prog.Only.bind (only_act ⟨rfl⟩) fun ans => ?_
  cases ans with
  | error err => exact .ret _
  | ok sock =>
    refine Prog.Only.bind (only_act ⟨rfl⟩) fun ans => ?_
    cases ans with
    | error err => exact .ret _
    | ok tok => exact only_staLoop sock sockName fuel tok []

private theorem only_listClientsLoop (fuel : Nat) (sockets : List GoString)
    (sofar : ListClientsResponse) :
    (listClientsLoop fuel sockets sofar).Only Op.Listing := by
  induction sockets generalizing sofar with
  | nil => exact .ret _
  | cons sockName sockets ih =>
    refine (only_listClientsOnSock fuel sockName).bind fun clis => ?_
    split
    · exact ih _
    · exact Prog.Only.map (only_statusErr ⟨rfl⟩ _) _
    · exact ih _

/-- `ListClients` gets sockets and sends commands on them; it closes none. -/
theorem only_listClients (fuel : Nat) (req : ListClientsRequest) :
    (listClients fuel req).Only Op.Listing := by
  unfold listClients
  refine Prog.Only.bind (only_getSockets ⟨rfl⟩ ⟨rfl⟩ req.socketName) fun sockets => ?_
  cases sockets with
  | error err => exact .ret _
  | ok sockets => exact only_listClientsLoop fuel sockets _

/-! ### All methods -/

def Op.ofService : Op → Bool
  | .lockGauge | .unlockGauge | .knownSockets | .addSocket _ | .withLabelValues _
  | .setGauge _ _ => false
  | _ => true

/-- The calls of the methods: none concerns a gauge. -/
structure Op.Serving (op : Op) : Prop where
  serving : op.ofService = true

theorem Op.Listing.serving {op : Op} (listing : op.Listing) : op.Serving := by
  have listed := listing.listing
  cases op <;> first | exact ⟨rfl⟩ | cases listed

private theorem serving_then {α : Type} {op : Op} {k : Ans op → Act α} (here : op.Serving)
    (rest : ∀ x, (k x).Only Op.Serving) : (act op >>= k).Only Op.Serving :=
  .call here rest

private theorem serving_pingOpened (sock : Sock) (sockName : GoString) :
    (pingOpened sock sockName).Only Op.Serving := by
  unfold pingOpened
  refine serving_then ⟨rfl⟩ fun ans => ?_
  split
  · exact .ret _
  · exact (only_statusErr ⟨rfl⟩ _).map _
  · split <;> exact .ret _

private theorem serving_pingLoop (sockets : List GoString) (res : PongResponse) :
    (pingLoop sockets res).Only Op.Serving := by
  induction sockets generalizing res with
  | nil => exact .ret _
  | cons sockName sockets ih =>
    have pinged : (pingSocket sockName).Only Op.Serving := by
      refine serving_then ⟨rfl⟩ fun ans => ?_
      cases ans with
      | error err => exact (only_statusErr ⟨rfl⟩ err).map _
      | ok sock =>
        exact (serving_pingOpened sock sockName).bind fun _ => serving_then ⟨rfl⟩ fun _ => .ret _
    refine pinged.bind fun ans => ?_
    cases ans with
    | error err => exact .ret _
    | ok pong => exact ih _

theorem serving_ping (req : PingRequest) : (ping req).Only Op.Serving := by
  refine (only_getSockets ⟨rfl⟩ ⟨rfl⟩ req.socketName).bind fun ans => ?_
  cases ans with
  | error err => exact .ret _
  | ok sockets => exact serving_pingLoop sockets _

theorem serving_listSockets : listSockets.Only Op.Serving := by
  refine serving_then ⟨rfl⟩ fun ans => ?_
  cases ans <;> exact .ret _

theorem serving_listClients (fuel : Nat) (req : ListClientsRequest) :
    (listClients fuel req).Only Op.Serving :=
  (only_listClients fuel req).mono fun _ listing => listing.serving

theorem serving_serve (fuel : Nat) (req : Request) : (serve fuel req).Only Op.Serving := by
  cases req with
  | ping req => exact (serving_ping req).map _
  | listClients req => exact (serving_listClients fuel req).map _

end HostapdGrpc.Server
