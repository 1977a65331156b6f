import HostapdGrpc.Interaction.Contracts
import HostapdGrpc.Server.Discipline

/-!
# No panic

`errToStatus` panics on a `RequestError` without `Errno`, which is what a timeout gives. The
service calls it with the errors of `Get` and `Available`, which are none, and with others only
where these are no `RequestError`s. Nor does the package `socket` come to its own panics. A method
of a nil `Socket` is another matter: it has no step here, and ends a run.
-/

namespace HostapdGrpc.Server

open Go Interaction

/-- `errToStatus` has a status for it. -/
def HasStatus (err : GoError) : Prop := ∃ st, errToStatus err = some st

/-! ### The methods -/

/-- The errors that the service relies on to have a status -/
def providing (op : Op) (a : Ans op) : Prop :=
  match op, a with
  | .get _, .error err => HasStatus err
  | .available, .error err => HasStatus err
  | _, _ => True

/-- While `Get` and `Available` have errors with a status, the program does not panic. -/
abbrev NoPanic {α : Type} (p : Act α) : Prop :=
  p.Given providing (fun op => op ≠ .panic) fun _ => True

section
variable {α β : Type}

private theorem noPanic_then {op : Op} {k : Ans op → Act α} (here : op ≠ .panic)
    (rest : ∀ x, providing op x → NoPanic (k x)) : NoPanic (act op >>= k) :=
  .call here rest

private theorem NoPanic.bind {p : Act α} {f : α → Act β} (first : NoPanic p)
    (second : ∀ a, NoPanic (f a)) : NoPanic (p >>= f) :=
  Prog.Given.bind first fun a _ => second a

private theorem NoPanic.map {p : Act α} (f : α → β) (first : NoPanic p) : NoPanic (f <$> p) :=
  Prog.Given.map first

private theorem noPanic_ret (a : α) : NoPanic (pure a : Act α) :=
  .ret trivial

private theorem noPanic_statusErr {err : GoError} (status : HasStatus err) :
    NoPanic (statusErr err) := by
  obtain ⟨st, given⟩ := status
  unfold statusErr
  rw [given]
  exact noPanic_ret _

end

private theorem noPanic_getSockets (socketName : List GoString) :
    NoPanic (getSockets socketName) := by
  unfold getSockets
  split
  · refine noPanic_then (by simp) fun ans known => ?_
    cases ans with
    | error err => exact .map _ (noPanic_statusErr known)
    | ok sockets => exact noPanic_ret _
  · exact noPanic_ret _

private theorem noPanic_pingOpened (sock : Sock) (sockName : GoString) :
    NoPanic (pingOpened sock sockName) := by
  unfold pingOpened
  refine noPanic_then (by simp) fun ans _ => ?_
  cases ans with
  | error err =>
    cases err with
    -- A `RequestError` is put into the `Pong`.
    | request rErr => exact noPanic_ret _
    | _ => exact .map _ (noPanic_statusErr ⟨_, rfl⟩)
  | ok res =>
    dsimp only
    split <;> exact noPanic_ret _

private theorem noPanic_pingSocket (sockName : GoString) : NoPanic (pingSocket sockName) := by
  unfold pingSocket
  refine noPanic_then (by simp) fun ans known => ?_
  cases ans with
  | error err => exact .map _ (noPanic_statusErr known)
  | ok sock =>
    refine .bind (noPanic_pingOpened sock sockName) fun _ => ?_
    exact noPanic_then (by simp) fun _ _ => noPanic_ret _

private theorem noPanic_pingLoop (sockets : List GoString) (res : PongResponse) :
    NoPanic (pingLoop sockets res) := by
  induction sockets generalizing res with
  | nil => exact noPanic_ret _
  | cons sockName sockets ih =>
    refine .bind (noPanic_pingSocket sockName) fun ans => ?_
    cases ans with
    | error err => exact noPanic_ret _
    | ok pong => exact ih _

private theorem noPanic_ping (req : PingRequest) : NoPanic (ping req) := by
  refine .bind (noPanic_getSockets _) fun ans => ?_
  cases ans with
  | error err => exact noPanic_ret _
  | ok sockets => exact noPanic_pingLoop sockets _

private theorem noPanic_staLoop (sock : Sock) (sockName : GoString) (fuel : Nat) (tok : GoString)
    (clis : List Client) : NoPanic (staLoop sock sockName fuel tok clis) := by
  induction fuel generalizing tok clis with
  | zero =>
    unfold staLoop
    split
    · exact noPanic_ret _
    · exact .call (by simp) fun x => x.elim
  | succ fuel ih =>
    unfold staLoop
    split
    · exact noPanic_ret _
    · refine noPanic_then (by simp) fun ans _ => ?_
      cases ans with
      | error err => exact noPanic_ret _
      | ok next => exact ih next _

private theorem noPanic_listClientsOnSock (fuel : Nat) (sockName : GoString) :
    NoPanic (listClientsOnSock fuel sockName) := by
  unfold listClientsOnSock
  refine noPanic_then (by simp) fun ans _ => ?_
  cases ans with
  | error err => exact noPanic_ret _
  | ok sock =>
    refine noPanic_then (by simp) fun ans _ => ?_
    cases ans with
    | error err => exact noPanic_ret _
    | ok tok => exact noPanic_staLoop sock sockName fuel tok []

private theorem noPanic_listClientsLoop (fuel : Nat) (sockets : List GoString)
    (res : ListClientsResponse) : NoPanic (listClientsLoop fuel sockets res) := by
  induction sockets generalizing res with
  | nil => exact noPanic_ret _
  | cons sockName sockets ih =>
    refine .bind (noPanic_listClientsOnSock fuel sockName) fun ans => ?_
    cases ans with
    | error err =>
      cases err with
      -- A `RequestError` is put into the response.
      | request rErr => exact ih _
      | _ => exact .map _ (noPanic_statusErr ⟨_, rfl⟩)
    | ok clis => exact ih _

private theorem noPanic_listClients (fuel : Nat) (req : ListClientsRequest) :
    NoPanic (listClients fuel req) := by
  refine .bind (noPanic_getSockets _) fun ans => ?_
  cases ans with
  | error err => exact noPanic_ret _
  | ok sockets => exact noPanic_listClientsLoop fuel sockets _

private theorem noPanic_listSockets : NoPanic listSockets := by
  refine noPanic_then (by simp) fun ans _ => ?_
  cases ans <;> exact noPanic_ret _

namespace ConnectedClientsGauge

private theorem noPanic_clearLoop (socks : List GoString) : NoPanic (clearLoop socks) := by
  induction socks with
  | nil => exact noPanic_ret _
  | cons sock socks ih =>
    exact noPanic_then (by simp) fun _ _ => noPanic_then (by simp) fun _ _ => ih

private theorem noPanic_scrapeSocket (fuel : Nat) (sock : GoString) :
    NoPanic (scrapeSocket (Service.server fuel) sock) := by
  have listed : NoPanic (Util.listClients (Service.server fuel) sock) := by
    refine .bind (noPanic_listClients fuel _) fun ans => ?_
    cases ans <;> exact noPanic_ret _
  refine .bind listed fun ans => ?_
  cases ans with
  | error err => exact noPanic_ret _
  | ok clis =>
    refine noPanic_then (by simp) fun _ _ => noPanic_then (by simp) fun _ _ => ?_
    exact noPanic_then (by simp) fun _ _ => noPanic_ret _

private theorem noPanic_scrapeLoop (fuel : Nat) (sockets : List GoString) (sErr : SocketErrors) :
    NoPanic (scrapeLoop (Service.server fuel) sockets sErr) := by
  induction sockets generalizing sErr with
  | nil => exact noPanic_ret _
  | cons sock sockets ih =>
    refine .bind (noPanic_scrapeSocket fuel sock) fun err => ?_
    cases err <;> exact ih _

private theorem noPanic_scrape (fuel : Nat) : NoPanic (scrape (Service.server fuel)) := by
  have listed : NoPanic (Util.listSockets (Service.server fuel)) := by
    refine .bind noPanic_listSockets fun ans => ?_
    cases ans <;> exact noPanic_ret _
  have locked : NoPanic (scrapeLocked (Service.server fuel)) := by
    refine .bind listed fun ans => ?_
    cases ans with
    | error err => exact noPanic_ret _
    | ok sockets =>
      refine .bind (noPanic_then (by simp) fun socks _ => noPanic_clearLoop socks) fun _ => ?_
      exact .bind (noPanic_scrapeLoop fuel sockets ∅) fun _ => noPanic_ret _
  refine noPanic_then (by simp) fun _ _ => .bind locked fun _ => ?_
  exact noPanic_then (by simp) fun _ _ => noPanic_ret _

end ConnectedClientsGauge

private theorem noPanic_goroutine (fuel : Nat) (task : Task) : NoPanic (goroutine fuel task) := by
  cases task with
  | listSockets => exact .map _ noPanic_listSockets
  | scrape => exact .map _ (ConnectedClientsGauge.noPanic_scrape fuel)
  | request req =>
    cases req with
    | ping req => exact .map _ (.map _ (noPanic_ping req))
    | listClients req => exact .map _ (.map _ (noPanic_listClients fuel req))

/-! ### The manager's errors -/

/-- An error is an `Errno`. -/
def ErrnoOnly {α : Type} (r : Except GoError α) : Prop :=
  ∀ err, r = .error err → ∃ e, err = .errno e

/-- The errors of `Open` are `Errno`s. -/
def opening (op : Socket.Op) (a : Socket.Ans op) : Prop :=
  match op, a with
  | .openSock _ _, opened => ErrnoOnly opened
  | _, _ => True

/-- Those of the directory are `PathError`s. -/
def failing (op : MainOp) (a : MainAns op) : Prop :=
  match op, a with
  | .socket op, a => opening op a
  | .service .available, socks => ∀ err, socks = .error err → ∃ msg, err = .other msg
  | _, _ => True

section
variable {ι : Type} [DecidableEq ι] {i : ι} {m : Socket.Manager} {fuel : Nat}

private theorem opening_exec {op : Socket.Op} {ch : Socket.Choice} {s s' : Socket.State ι}
    {a : Socket.Ans op} (done : s.exec i op ch = some (a, s')) : opening op a := by
  cases op with
  | openSock device clientDir =>
    simp only [Socket.State.exec] at done
    split at done <;> (try split at done) <;> cases done
    · intro err same
      cases same
    · intro err same
      cases same
      exact ⟨_, rfl⟩
  | _ => trivial

private theorem failing_exec {op : MainOp} {ch : MainChoice} {s s' : Main ι} {a : MainAns op}
    (done : s.exec i op ch = some (a, s')) : failing op a := by
  cases op with
  | socket op =>
    obtain ⟨ch, mem, rfl, moved, rfl⟩ := Main.exec_socket done
    exact opening_exec moved
  | service op =>
    cases op with
    | available =>
      simp only [Main.exec, Main.serviceExec] at done
      split at done <;> (try split at done) <;> cases done
      · intro err same
        cases same
        exact ⟨_, rfl⟩
      · intro err same
        cases same
    | _ => trivial
  | _ => trivial

/-- A `Get` fails only with what `Open` fails with. -/
private theorem get_errno (name : GoString) :
    (m.get name).Given opening (fun _ => True) ErrnoOnly := by
  have any {α : Type} (p : Socket.Act α) : p.Given opening (fun _ => True) fun _ => True :=
    .of_only (.any p)
  have open_errno (device clientDir : GoString) :
      (Socket.openShared name device clientDir).Given opening (fun _ => True) ErrnoOnly := by
    refine .call trivial fun opened known => ?_
    cases opened with
    | error err =>
      refine .ret fun err' same => ?_
      cases same
      exact known err rfl
    | ok d => exact .call trivial fun _ _ => .ret fun _ same => by cases same
  unfold Socket.Manager.get
  refine .call trivial fun _ _ => (any (Socket.Manager.reuse name)).bind fun found _ => ?_
  cases found with
  | some s =>
    refine (any (m.store name s)).bind fun _ _ => .call trivial fun _ _ => .ret fun _ same => ?_
    cases same
  | none =>
    refine (open_errno _ _).bind fun opened known => ?_
    cases opened with
    | error err =>
      refine .call trivial fun _ _ => .ret fun err' same => ?_
      cases same
      exact known err rfl
    | ok s =>
      refine (any (m.store name s)).bind fun _ _ => .call trivial fun _ _ => .ret fun _ same => ?_
      cases same

/-- The steps of the package, in a call -/
private theorem noPanic_calling {α : Type} {call : Socket.Call} {p : Socket.Act α}
    {res : α → Socket.Res} {Q : α → Prop} (given : p.Given opening (fun _ => True) Q) :
    (calling call p res).Given failing (fun op => op ≠ .service .panic) Q := by
  have direct (op : Socket.Op) : (step (.socket op)).Given failing
      (fun op => op ≠ .service .panic) (failing (.socket op)) := .perform (by simp)
  have returns : (steps p).Given failing (fun op => op ≠ .service .panic) Q :=
    given.interpret fun op _ => direct op
  refine .call (by simp) fun _ _ => returns.bind fun _ result => ?_
  exact .call (by simp) fun _ _ => .ret result

private theorem overManager_provides (op : Op) (here : op ≠ .panic) :
    (overManager m op).Given failing (fun op => op ≠ .service .panic) (providing op) := by
  have direct : (step (.service op)).Given failing (fun op => op ≠ .service .panic)
      (failing (.service op)) := .perform fun same => here (MainOp.service.inj same)
  cases op with
  | get name =>
    refine (noPanic_calling (get_errno name)).mono fun r known => ?_
    cases r with
    | error err =>
      obtain ⟨e, rfl⟩ := known err rfl
      exact ⟨_, rfl⟩
    | ok sock => trivial
  | available =>
    refine direct.mono fun socks known => ?_
    cases socks with
    | error err =>
      obtain ⟨msg, rfl⟩ := known err rfl
      exact ⟨_, rfl⟩
    | ok socks => trivial
  | sendRawCmd sock cmd =>
    exact .map ((noPanic_calling (.of_only (.any _))).mono fun _ _ => trivial)
  | close sock => exact (noPanic_calling (.of_only (.any _))).mono fun _ _ => trivial
  | panic => exact absurd rfl here
  | _ => exact direct.mono fun _ _ => trivial

variable [Fintype ι] {c : Config ι MainOp MainAns (Main ι) Task TaskRes}

section
variable {task : Task} {op : MainOp} {k : MainAns op → MainAct TaskRes}

omit [Fintype ι] in
theorem service_calm (run : Reach (main ι m fuel) unrestricted (starting ι) c)
    (at_op : c.thread i = .running task (.call op k)) : op ≠ .service .panic := by
  have calm (task : Task) : ((goroutine fuel task).interpret (overManager m)).Given failing
      (fun op => op ≠ .service .panic) fun _ => True :=
    (noPanic_goroutine fuel task).interpret fun op here => overManager_provides op here
  exact run.given (P := fun op => op ≠ .service .panic) calm
    (fun _ _ _ _ _ _ _ done => failing_exec done) (fun _ => rfl) at_op

theorem socket_calm (run : Reach (main ι m fuel) unrestricted (starting ι) c)
    (at_op : c.thread i = .running task (.call op k)) : op ≠ .socket .panic := by
  rintro rfl
  exact main_good (guaranteed run) at_op (.inl trivial)

end

/-- In no run does a goroutine come to the `nil` that `errToStatus` would dereference, or to a
`panic` of the package `socket`: errors without an `Errno` do not get to `errToStatus`, what `Get`
has just taken a reference of is not closed, and replies fit the buffer. -/
theorem never_panics (run : Reach (main ι m fuel) unrestricted (starting ι) c) {task : Task}
    {op : MainOp} {k : MainAns op → MainAct TaskRes}
    (at_op : c.thread i = .running task (.call op k)) :
    op ≠ .service .panic ∧ op ≠ .socket .panic :=
  ⟨service_calm run at_op, socket_calm run at_op⟩

end

/-- The error of a `Get` that is about to return -/
private def failed : Thread MainOp MainAns Task TaskRes → Option GoError
  | .running _ (.call (.leave _ (.get (.error err))) _) => some err
  | _ => none

/-- A `Ping` whose `Open` gives `ENOENT` -/
theorem never_panics_refused : ∃ (c : Config Unit MainOp MainAns (Main Unit) Task TaskRes)
    (task : Task) (call : Socket.Call) (k : Unit → MainAct TaskRes),
    Reach (main Unit ⟨[], [], 0⟩ 0) unrestricted (starting Unit) c ∧
      c.thread () = .running task (.call (.leave call (.get (.error (.errno 2)))) k) ∧
      MainOp.leave call (.get (.error (.errno 2))) ≠ .service .panic ∧
      MainOp.leave call (.get (.error (.errno 2))) ≠ .socket .panic := by
  obtain ⟨c, run, last⟩ := exists_main ⟨[], [], 0⟩ 0
    (pingTask.take 4 ++ [.step () (.socket (.fail 2)), .step () (.socket .go)])
    (fun c => failed (c.thread ()) == some (.errno 2)) (by decide +kernel)
  have refused : failed (c.thread ()) = some (.errno 2) := eq_of_beq last
  unfold failed at refused
  split at refused
  next at_op =>
    cases refused
    exact ⟨c, _, _, _, run, at_op, never_panics run at_op⟩
  · cases refused

end HostapdGrpc.Server
