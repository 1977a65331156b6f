import HostapdGrpc.Server.Aggregation
import HostapdGrpc.Socket.Reconnect

/-!
# One socket that fails

With the connections of the `Manager` behind the service: an exchange that fails with a
`RequestError` costs its own socket an entry. One that fails in the `Open` of `reconnect` costs
the request its response, and one without a `Socket` to send on costs the process.
-/

namespace HostapdGrpc.Server

open Go Interaction

/-! ### `Ping` -/

def PongResponse.append (first second : PongResponse) : PongResponse :=
  ⟨first.pong ++ second.pong⟩

/-- How `pingLoop` goes on with more sockets -/
def pingRest (sockets : List GoString) (res : Except GoError PongResponse) :
    Act (Except GoError PongResponse) :=
  match res with
  | .error err => pure (.error err)
  | .ok res => pingLoop sockets res

theorem pingLoop_append (xs ys : List GoString) (sofar : PongResponse) :
    pingLoop (xs ++ ys) sofar = pingLoop xs sofar >>= pingRest ys := by
  induction xs generalizing sofar with
  | nil => rfl
  | cons x xs ih =>
    rw [List.cons_append, pingLoop, pingLoop, bind_assoc]
    refine congrArg _ (funext fun ponged => ?_)
    cases ponged with
    | error err => rfl
    | ok pong => exact ih _

/-- What was gathered before stands in front. -/
theorem pingLoop_sofar (names : List GoString) (sofar : PongResponse) :
    pingLoop names sofar = Except.map sofar.append <$> pingLoop names ⟨[]⟩ := by
  induction names generalizing sofar with
  | nil =>
    rw [pingLoop, pingLoop, map_pure]
    simp [Except.map, PongResponse.append]
  | cons name names ih =>
    rw [pingLoop, pingLoop, map_bind]
    refine congrArg _ (funext fun ponged => ?_)
    cases ponged with
    | error err => rfl
    | ok pong =>
      simp only
      rw [ih, ih { pong := [] ++ [pong] }, Functor.map_map]
      refine congrArg (· <$> _) (funext fun res => ?_)
      cases res <;> simp [Except.map, PongResponse.append]

/-! ### `ListClients` -/

/-- How `listClientsLoop` goes on with more sockets -/
def listRest (fuel : Nat) (sockets : List GoString) (res : Except GoError ListClientsResponse) :
    Act (Except GoError ListClientsResponse) :=
  match res with
  | .error err => pure (.error err)
  | .ok res => listClientsLoop fuel sockets res

theorem listClientsLoop_append (fuel : Nat) (xs ys : List GoString)
    (sofar : ListClientsResponse) :
    listClientsLoop fuel (xs ++ ys) sofar =
      listClientsLoop fuel xs sofar >>= listRest fuel ys := by
  induction xs generalizing sofar with
  | nil => rfl
  | cons x xs ih =>
    rw [List.cons_append, listClientsLoop_cons, listClientsLoop_cons, bind_assoc]
    refine congrArg _ (funext fun out => ?_)
    unfold onward
    split
    · rw [map_eq_pure_bind, bind_assoc]
      rfl
    · exact ih _

/-- What was gathered before stands in front. -/
theorem listClientsLoop_sofar (fuel : Nat) (names : List GoString)
    (sofar : ListClientsResponse) :
    listClientsLoop fuel names sofar =
      Except.map sofar.append <$> listClientsLoop fuel names ⟨[], []⟩ := by
  induction names generalizing sofar with
  | nil =>
    rw [listClientsLoop, listClientsLoop, map_pure]
    simp [Except.map, ListClientsResponse.append]
  | cons name names ih =>
    rw [listClientsLoop_cons, listClientsLoop_cons, map_bind]
    refine congrArg _ (funext fun out => ?_)
    unfold onward
    split
    · rw [Functor.map_map]
      rfl
    · rw [ih, ih (ListClientsResponse.append ⟨[], []⟩ _), Functor.map_map]
      refine congrArg (· <$> _) (funext fun res => ?_)
      cases res <;> simp [Except.map, ListClientsResponse.append]

/-! ### A request with a socket that fails -/

/-- A request that has asked for its sockets and had the turns of the first, up to that of `name`
which fails and makes `calls`. If that returns, the request goes on to the sockets after it. For
all but `name` the response is `without`. -/
inductive Failing {R : Type} (loop : List GoString → Act (Except GoError R))
    (turn : List (Sigma Ans) → Option GoError → Prop) (given : List GoString) (name : GoString)
    (without : R) : List (Sigma Ans) → Prop where
  | returns {asked first calls second : List (Sigma Ans)} {xs ys : List GoString} {before : R}
      {err : GoError} (asks : (getSockets given).Path asked (.ok (xs ++ name :: ys)))
      (earlier : (loop xs).Path first (.ok before))
      (others : (loop (xs ++ ys)).Path (first ++ second) (.ok without))
      (fails : turn calls (some err)) :
      Failing loop turn given name without (asked ++ (first ++ (calls ++ second)))
  | ends {asked first calls second : List (Sigma Ans)} {xs ys : List GoString} {before : R}
      (asks : (getSockets given).Path asked (.ok (xs ++ name :: ys)))
      (earlier : (loop xs).Path first (.ok before))
      (others : (loop (xs ++ ys)).Path (first ++ second) (.ok without))
      (fails : turn calls none) :
      Failing loop turn given name without (asked ++ (first ++ calls))

/-- The turn of a socket in `Ping` whose exchange fails. With `none` the process ends in that. -/
inductive PingTurn (exchange : GoString → Option GoError → Prop) (sh : Sock) (name : GoString) :
    List (Sigma Ans) → Option GoError → Prop where
  | returns {err : GoError} (fails : exchange (lit "PING") (some err)) (closing : Option GoError) :
      PingTurn exchange sh name [⟨.get name, .ok sh⟩, ⟨.sendRawCmd sh (lit "PING"), .error err⟩,
        ⟨.close sh, closing⟩] (some err)
  | ends (fails : exchange (lit "PING") none) :
      PingTurn exchange sh name [⟨.get name, .ok sh⟩] none

/-- The turn of a socket in `ListClients` whose last exchange fails -/
inductive ListTurn (exchange : GoString → Option GoError → Prop) (sh : Sock) (fuel : Nat)
    (name : GoString) : List (Sigma Ans) → Option GoError → Prop where
  | returns {calls : List (Sigma Ans)} {cmd : GoString} {err : GoError}
      (fails : exchange cmd (some err))
      (path : (listClientsOnSock fuel name).Path (calls ++ [⟨.sendRawCmd sh cmd, .error err⟩])
        (.error err)) :
      ListTurn exchange sh fuel name (calls ++ [⟨.sendRawCmd sh cmd, .error err⟩]) (some err)
  | ends {calls : List (Sigma Ans)} {cmd : GoString} {k : Ans (.sendRawCmd sh cmd) → Act Outcome}
      (fails : exchange cmd none)
      (leads : (listClientsOnSock fuel name).Leads calls (.call (.sendRawCmd sh cmd) k)) :
      ListTurn exchange sh fuel name calls none

/-- The response has what it has without `name`, and an error for `name`. -/
def PongResponse.Adds (name : GoString) (without res : PongResponse) : Prop :=
  ∃ before after err, without.pong = before ++ after ∧
    res.pong = before ++ ⟨name, some err⟩ :: after

def ListClientsResponse.Adds (without res : ListClientsResponse) : Prop :=
  res.client = without.client ∧
    ∃ before after err, without.error = before ++ after ∧ res.error = before ++ err :: after

/-- What comes after the failing socket is what came after the sockets before it. -/
private theorem loop_after {R : Type} {loop : R → Act (Except GoError R)} {append : R → R → R}
    {empty : R} (sofar : ∀ r, loop r = Except.map (append r) <$> loop empty) {before without : R}
    {t : List (Sigma Ans)} (path : (loop before).Path t (.ok without)) :
    ∃ rest, without = append before rest ∧ ∀ r, (loop r).Path t (.ok (append r rest)) := by
  rw [sofar] at path
  obtain ⟨res, rest_path, same⟩ := (Prog.path_map _ _ _ _).mp path
  cases res with
  | error err => cases same
  | ok rest =>
    refine ⟨rest, Except.ok.inj same, fun r => ?_⟩
    rw [sofar]
    exact (Prog.path_map _ _ _ _).mpr ⟨_, rest_path, rfl⟩

section
variable {ι : Type} [DecidableEq ι] {null : Socket.Conn → Bool} {i : ι} {s : Socket.State ι}
  {sh : Socket.Ptr} {u : List (Sigma Socket.Ans)} {name : GoString} {t : List (Sigma Ans)}

/-- `Ping` answers for the others exactly if there is a `Socket` to send on and no `Open` of
`reconnect` fails. -/
theorem ping_isolates_iff {req : PingRequest} {without : PongResponse}
    (failing : Failing (pingLoop · ⟨[]⟩)
      (PingTurn (fun cmd => Socket.Fails null i s sh cmd u) sh name) req.socketName name
      without t) :
    (∃ res, (ping req).Path t (.ok res) ∧ without.Adds name res) ↔
      s.Connected null sh ∧ Socket.reopenFails null u = false := by
  -- The calls up to the failing socket lead to its turn.
  have at_name : ∀ {asked first xs ys before}, (getSockets req.socketName).Path asked
      (.ok (xs ++ name :: ys)) → (pingLoop xs ⟨[]⟩).Path first (.ok before) → ∀ calls res,
        (ping req).Path (asked ++ (first ++ calls)) res ↔
          (pingLoop (name :: ys) before).Path calls res := by
    intro asked first xs ys before asks earlier calls res
    refine asks.bind_iff.trans ?_
    simp only [pingLoop_append xs]
    exact earlier.bind_iff
  cases failing with
  | @returns asked first _ second xs ys before err asks earlier others fails =>
    obtain @⟨_, exchange, closing⟩ | _ := fails
    rw [pingLoop_append] at others
    obtain ⟨rest, rfl, goes_on⟩ := loop_after (pingLoop_sofar ys) (earlier.bind_iff.mp others)
    simp only [at_name asks earlier]
    obtain ⟨isolates, r, same⟩ | ⟨breaks, ended | ⟨e, same⟩⟩ := exchange.cases
    -- A `RequestError` goes into the `Pong`, any other error ends the request.
    · cases same
      have turn : (pingSocket name).Path [⟨.get name, .ok sh⟩,
          ⟨.sendRawCmd sh (lit "PING"), .error (.request r)⟩, ⟨.close sh, closing⟩]
          (.ok ⟨name, some (reqErrToHostapdErr r)⟩) := .call _ (.call _ (.call _ (.ret _)))
      refine iff_of_true ⟨_, turn.bind_iff.mpr (goes_on _), ?_⟩ isolates
      exact ⟨before.pong, rest.pong, _, rfl, List.append_assoc _ _ _⟩
    · cases ended
    · cases same
      have turn : (pingSocket name).Path [⟨.get name, .ok sh⟩,
          ⟨.sendRawCmd sh (lit "PING"), .error (.errno e)⟩, ⟨.close sh, closing⟩]
          (.error (.status ⟨grpcCodeFromErrno e, e.error⟩)) := .call _ (.call _ (.call _ (.ret _)))
      refine iff_of_false ?_ breaks
      rintro ⟨res, path, _⟩
      cases turn.bind_iff.mp path
  | @ends asked first _ second xs ys before asks earlier others fails =>
    obtain _ | exchange := fails
    simp only [at_name asks earlier]
    obtain ⟨_, _, same⟩ | ⟨breaks, _⟩ := exchange.cases
    · cases same
    · refine iff_of_false ?_ breaks
      rintro ⟨res, path, _⟩
      have leads : (pingSocket name).Leads [⟨.get name, .ok sh⟩] _ := .call _ (.refl _)
      exact leads.not_path path

/-- So does `ListClients`. -/
theorem listClients_isolates_iff {fuel : Nat} {req : ListClientsRequest}
    {without : ListClientsResponse}
    (failing : Failing (listClientsLoop fuel · ⟨[], []⟩)
      (ListTurn (fun cmd => Socket.Fails null i s sh cmd u) sh fuel name) req.socketName name
      without t) :
    (∃ res, (listClients fuel req).Path t (.ok res) ∧ without.Adds res) ↔
      s.Connected null sh ∧ Socket.reopenFails null u = false := by
  have at_name : ∀ {asked first xs ys before}, (getSockets req.socketName).Path asked
      (.ok (xs ++ name :: ys)) → (listClientsLoop fuel xs ⟨[], []⟩).Path first (.ok before) →
        ∀ calls res, (listClients fuel req).Path (asked ++ (first ++ calls)) res ↔
          (listClientsOnSock fuel name >>= onward fuel ys before).Path calls res := by
    intro asked first xs ys before asks earlier calls res
    refine asks.bind_iff.trans ?_
    simp only [listClientsLoop_append fuel xs, ← listClientsLoop_cons]
    exact earlier.bind_iff
  cases failing with
  | @returns asked first _ second xs ys before err asks earlier others fails =>
    obtain @⟨calls, cmd, _, exchange, turn⟩ | _ := fails
    rw [listClientsLoop_append] at others
    obtain ⟨rest, rfl, goes_on⟩ :=
      loop_after (listClientsLoop_sofar fuel ys) (earlier.bind_iff.mp others)
    -- What the loop does with the error of the turn depends on its type only.
    simp only [at_name asks earlier, turn.bind_iff]
    obtain ⟨isolates, r, same⟩ | ⟨breaks, ended | ⟨e, same⟩⟩ := exchange.cases
    · cases same
      refine iff_of_true ⟨_, goes_on _, ?_⟩ isolates
      refine ⟨?_, before.error, rest.error, reqErrToHostapdErr r, rfl, ?_⟩
      · simp [ListClientsResponse.append, gather, Outcome.clients]
      · simp [ListClientsResponse.append, gather, Outcome.errors]
    · cases ended
    · cases same
      refine iff_of_false ?_ breaks
      rintro ⟨res, path, _⟩
      obtain ⟨_, _, _, same⟩ := path_statusErr.mp path
      cases same
  | @ends asked first _ second xs ys before asks earlier others fails =>
    obtain _ | ⟨exchange, leads⟩ := fails
    simp only [at_name asks earlier]
    obtain ⟨_, _, same⟩ | ⟨breaks, _⟩ := exchange.cases
    · cases same
    · refine iff_of_false ?_ breaks
      rintro ⟨res, path, _⟩
      exact leads.not_path path

/-- With a failing exchange, both requests respond as for the other sockets with an error
added, exactly if it has a `Socket` to send on and it is not the `Open` of `reconnect` that
failed. -/
theorem isolates_iff (null : Socket.Conn → Bool) (i : ι) (s : Socket.State ι) (sh : Socket.Ptr)
    (u : List (Sigma Socket.Ans)) (name : GoString) :
    (∀ req without t, Failing (pingLoop · ⟨[]⟩)
        (PingTurn (fun cmd => Socket.Fails null i s sh cmd u) sh name) req.socketName name without
          t →
        ((∃ res, (ping req).Path t (.ok res) ∧ without.Adds name res) ↔
          s.Connected null sh ∧ Socket.reopenFails null u = false)) ∧
    ∀ fuel req without t, Failing (listClientsLoop fuel · ⟨[], []⟩)
        (ListTurn (fun cmd => Socket.Fails null i s sh cmd u) sh fuel name) req.socketName name
          without t →
        ((∃ res, (listClients fuel req).Path t (.ok res) ∧ without.Adds res) ↔
          s.Connected null sh ∧ Socket.reopenFails null u = false) :=
  ⟨fun _ _ _ => ping_isolates_iff, fun _ _ _ _ => listClients_isolates_iff⟩

end

/-! ### Two sockets -/

/-- The `Get` of `wlan0` has returned. -/
def opened : Socket.State Unit :=
  { Socket.State.init with
    heap.s := fun _ => some 0
    heap.device := fun _ => lit "/var/run/hostapd/wlan0"
    heap.clientDir := fun _ => lit "/tmp"
    next := 1
    nextConn := 1 }

/-- No reply comes in time. -/
def timesOut (cmd : GoString) : List (Sigma Socket.Ans) :=
  [⟨.lock (.smu 0), ()⟩, ⟨.sock 0, some 0⟩, ⟨.send (some 0) cmd, .ok 0⟩, ⟨.recv 0, .timeout⟩,
    ⟨.unlock (.smu 0), ()⟩]

/-- The peer is gone, and so is its socket when the connection is opened again. -/
def peerGone (cmd : GoString) : List (Sigma Socket.Ans) :=
  [⟨.lock (.smu 0), ()⟩, ⟨.sock 0, some 0⟩, ⟨.send (some 0) cmd, .error 111⟩, ⟨.sock 0, some 0⟩,
    ⟨.closeSock (some 0), none⟩, ⟨.setSock 0 none, ()⟩,
    ⟨.device 0, (lit "/var/run/hostapd/wlan0", lit "/tmp")⟩,
    ⟨.openSock (lit "/var/run/hostapd/wlan0") (lit "/tmp"), .error (.errno 2)⟩,
    ⟨.setSock 0 none, ()⟩, ⟨.unlock (.smu 0), ()⟩]

private theorem fails_timesOut (cmd : GoString) :
    Socket.Fails Socket.noneNull () opened 0 cmd (timesOut cmd)
      (some (.request ⟨none, deadlineExceeded⟩)) :=
  .returns (Socket.runs_alone .go rfl rfl (Socket.runs_alone .go rfl rfl (Socket.runs_alone .go rfl
    rfl (Socket.runs_alone .timeout rfl rfl (Socket.runs_alone .go rfl rfl (.ret _ _))))))

private theorem fails_peerGone (cmd : GoString) :
    Socket.Fails Socket.noneNull () opened 0 cmd (peerGone cmd) (some (.errno 2)) :=
  .returns (Socket.runs_alone .go rfl rfl (Socket.runs_alone .go rfl rfl (Socket.runs_alone
    (.fail 111) rfl rfl (Socket.runs_alone .go rfl rfl (Socket.runs_alone .go rfl rfl
    (Socket.runs_alone .go rfl rfl (Socket.runs_alone .go rfl rfl (Socket.runs_alone (.fail 2) rfl
    rfl (Socket.runs_alone .go rfl rfl (Socket.runs_alone .go rfl rfl (.ret _ _)))))))))))

/-- The calls of a `Ping` of two sockets of which the first fails -/
def pingCalls (err : GoError) : List (Sigma Ans) :=
  [⟨.get (lit "wlan0"), .ok 0⟩, ⟨.sendRawCmd 0 (lit "PING"), .error err⟩, ⟨.close 0, none⟩,
    ⟨.get (lit "wlan1"), .ok 1⟩, ⟨.sendRawCmd 1 (lit "PING"), .ok (lit "PONG\n")⟩,
    ⟨.close 1, none⟩]

def listCalls (err : GoError) : List (Sigma Ans) :=
  [⟨.get (lit "wlan0"), .ok 0⟩, ⟨.sendRawCmd 0 (lit "STA-FIRST"), .error err⟩,
    ⟨.get (lit "wlan1"), .ok 1⟩, ⟨.sendRawCmd 1 (lit "STA-FIRST"), .ok []⟩]

section
variable {u : List (Sigma Socket.Ans)} {err : GoError}

private theorem ping_failing
    (fails : Socket.Fails Socket.noneNull () opened 0 (lit "PING") u (some err)) :
    Failing (pingLoop · ⟨[]⟩)
      (PingTurn (fun cmd => Socket.Fails Socket.noneNull () opened 0 cmd u) 0 (lit "wlan0"))
      [lit "wlan0", lit "wlan1"] (lit "wlan0") ⟨[⟨lit "wlan1", none⟩]⟩ (pingCalls err) := by
  have asks : (getSockets [lit "wlan0", lit "wlan1"]).Path []
      (.ok ([] ++ lit "wlan0" :: [lit "wlan1"])) := .ret _
  have earlier : (pingLoop [] ⟨[]⟩).Path [] (.ok ⟨[]⟩) := .ret _
  have others : (pingLoop ([] ++ [lit "wlan1"]) ⟨[]⟩).Path ([] ++ [⟨.get (lit "wlan1"), .ok 1⟩,
      ⟨.sendRawCmd 1 (lit "PING"), .ok (lit "PONG\n")⟩, ⟨.close 1, none⟩])
      (.ok ⟨[⟨lit "wlan1", none⟩]⟩) := .call _ (.call _ (.call _ (.ret _)))
  change Failing _ _ _ _ _ ([] ++ ([] ++ ([_, _, _] ++ [_, _, _])))
  exact .returns asks earlier others (.returns fails none)

private theorem listClients_failing
    (fails : Socket.Fails Socket.noneNull () opened 0 (lit "STA-FIRST") u (some err)) :
    Failing (listClientsLoop 0 · ⟨[], []⟩)
      (ListTurn (fun cmd => Socket.Fails Socket.noneNull () opened 0 cmd u) 0 0 (lit "wlan0"))
      [lit "wlan0", lit "wlan1"] (lit "wlan0") ⟨[], []⟩ (listCalls err) := by
  have asks : (getSockets [lit "wlan0", lit "wlan1"]).Path []
      (.ok ([] ++ lit "wlan0" :: [lit "wlan1"])) := .ret _
  have earlier : (listClientsLoop 0 [] ⟨[], []⟩).Path [] (.ok ⟨[], []⟩) := .ret _
  have others : (listClientsLoop 0 ([] ++ [lit "wlan1"]) ⟨[], []⟩).Path
      ([] ++ [⟨.get (lit "wlan1"), .ok 1⟩, ⟨.sendRawCmd 1 (lit "STA-FIRST"), .ok []⟩])
      (.ok ⟨[], []⟩) := .call _ (.call _ (.ret _))
  have turn : (listClientsOnSock 0 (lit "wlan0")).Path
      ([⟨.get (lit "wlan0"), .ok 0⟩] ++ [⟨.sendRawCmd 0 (lit "STA-FIRST"), .error err⟩])
      (.error err) := .call _ (.call _ (.ret _))
  change Failing _ _ _ _ _ ([] ++ ([] ++ (([_] ++ [_]) ++ [_, _])))
  exact .returns asks earlier others (.returns fails turn)

end

/-- No reply comes in time, and both requests respond for the second socket. -/
theorem isolates_iff_timeout :
    (∀ cmd, Socket.Fails Socket.noneNull () opened 0 cmd (timesOut cmd)
      (some (.request ⟨none, deadlineExceeded⟩))) ∧
    (∃ res, (ping ⟨[lit "wlan0", lit "wlan1"]⟩).Path
        (pingCalls (.request ⟨none, deadlineExceeded⟩)) (.ok res) ∧
      PongResponse.Adds (lit "wlan0") ⟨[⟨lit "wlan1", none⟩]⟩ res) ∧
    ∃ res, (listClients 0 ⟨[lit "wlan0", lit "wlan1"]⟩).Path
        (listCalls (.request ⟨none, deadlineExceeded⟩)) (.ok res) ∧
      ListClientsResponse.Adds ⟨[], []⟩ res := by
  have connected : opened.Connected Socket.noneNull 0 := ⟨0, rfl, rfl⟩
  refine ⟨fails_timesOut, ?_, ?_⟩
  · exact ((isolates_iff Socket.noneNull () opened 0 (timesOut (lit "PING")) (lit "wlan0")).1
      ⟨[lit "wlan0", lit "wlan1"]⟩ _ _ (ping_failing (fails_timesOut _))).mpr
        ⟨connected, by decide⟩
  · exact ((isolates_iff Socket.noneNull () opened 0 (timesOut (lit "STA-FIRST")) (lit "wlan0")).2
      0 ⟨[lit "wlan0", lit "wlan1"]⟩ _ _ (listClients_failing (fails_timesOut _))).mpr
        ⟨connected, by decide⟩

/-- The second socket is there, but neither request responds for it. -/
theorem peer_gone_not_isolated :
    (Failing (pingLoop · ⟨[]⟩) (PingTurn (fun cmd => Socket.Fails Socket.noneNull () opened 0 cmd
          (peerGone (lit "PING"))) 0 (lit "wlan0")) [lit "wlan0", lit "wlan1"] (lit "wlan0")
        ⟨[⟨lit "wlan1", none⟩]⟩ (pingCalls (.errno 2)) ∧
      ¬∃ res, (ping ⟨[lit "wlan0", lit "wlan1"]⟩).Path (pingCalls (.errno 2)) (.ok res) ∧
        PongResponse.Adds (lit "wlan0") ⟨[⟨lit "wlan1", none⟩]⟩ res) ∧
    Failing (listClientsLoop 0 · ⟨[], []⟩) (ListTurn (fun cmd => Socket.Fails Socket.noneNull ()
          opened 0 cmd (peerGone (lit "STA-FIRST"))) 0 0 (lit "wlan0"))
        [lit "wlan0", lit "wlan1"] (lit "wlan0") ⟨[], []⟩ (listCalls (.errno 2)) ∧
      ¬∃ res, (listClients 0 ⟨[lit "wlan0", lit "wlan1"]⟩).Path (listCalls (.errno 2)) (.ok res) ∧
        ListClientsResponse.Adds ⟨[], []⟩ res := by
  have ping : Failing _ _ (PingRequest.socketName ⟨[lit "wlan0", lit "wlan1"]⟩) _ _ _ :=
    ping_failing (fails_peerGone (lit "PING"))
  have listing : Failing _ _ (ListClientsRequest.socketName ⟨[lit "wlan0", lit "wlan1"]⟩) _ _ _ :=
    listClients_failing (fails_peerGone (lit "STA-FIRST"))
  have reopens : ∀ cmd, Socket.reopenFails Socket.noneNull (peerGone cmd) = true := fun _ => rfl
  refine ⟨⟨ping, fun responds => ?_⟩, listing, fun responds => ?_⟩
  · have quiet := ((ping_isolates_iff ping).mp responds).2
    rw [reopens] at quiet
    cases quiet
  · have quiet := ((listClients_isolates_iff listing).mp responds).2
    rw [reopens] at quiet
    cases quiet

end HostapdGrpc.Server
