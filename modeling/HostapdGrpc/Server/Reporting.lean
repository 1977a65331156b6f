import HostapdGrpc.Server.Metrics

/-!
# What a scrape reports

A listing that fails with a `RequestError` passes `ListClients` as an entry of the response
and ends in `util.go`: the gauge shows no clients and `Scrape` has no error for it. Any other
failure reaches the error that `Scrape` returns.
-/

namespace HostapdGrpc.Server

open Go Interaction

/-- One round of a scrape: the calls of the listing and its outcome, then the calls to the
gauge and the error for the socket. -/
structure Round where
  sock : GoString
  calls : List (Sigma Ans)
  outcome : Except GoError (List Client)
  gauge : List (Sigma Ans)
  err : Option GoError

namespace Round

/-- The listing of the round is one of `listClientsOnSock`, and the whole of it one of
`scrapeSocket`. -/
structure Ran (fuel : Nat) (r : Round) : Prop where
  listing : (listClientsOnSock fuel r.sock).Path r.calls r.outcome
  whole : (ConnectedClientsGauge.scrapeSocket (Service.server fuel) r.sock).Path
    (r.calls ++ r.gauge) r.err

/-- The listing was complete, and the gauge was set to the number of clients. -/
def Complete (r : Round) : Prop :=
  ∃ clis, r.outcome = .ok clis ∧
    r.gauge = ⟨.addSocket r.sock, ()⟩ :: setLabel r.sock clis.length

/-- The listing failed with a `RequestError`. -/
def requestFailed (r : Round) : Bool :=
  match r.outcome with
  | .error (.request _) => true
  | _ => false

/-- The listing failed with an error of another kind. -/
def otherFailed (r : Round) : Bool :=
  match r.outcome with
  | .error (.request _) => false
  | .error _ => true
  | .ok _ => false

end Round

/-- The error names the socket. -/
def ScrapeError.names (err : Option ScrapeError) (sock : GoString) : Prop :=
  ∃ errs, err = some (.sockets errs) ∧ sock ∈ errs

/-- A scrape of `sockets` whose rounds are `rounds` -/
structure Scraped (fuel : Nat) (sockets : List GoString) (rounds : List Round)
    (t : List (Sigma Ans)) : Prop where
  socks : rounds.map Round.sock = sockets
  ran : ∀ r ∈ rounds, r.Ran fuel
  calls : ∃ clear, t = ⟨.lockGauge, ()⟩ :: ⟨.available, .ok sockets⟩ :: clear ++
    rounds.flatMap (fun r => r.calls ++ r.gauge) ++ [⟨.unlockGauge, ()⟩]

/-- A socket that the error does not name was listed completely; so were all if there is no
error. -/
structure Faithful (rounds : List Round) (err : Option ScrapeError) : Prop where
  absent : ∀ r ∈ rounds, ¬ ScrapeError.names err r.sock → r.Complete
  clear : err = none → ∀ r ∈ rounds, r.Complete

/-! ### One socket -/

/-- What becomes of the outcome of a listing -/
def report (sock : GoString) : Except GoError (List Client) → Act (Option GoError)
  | .ok clis => do
    act (.addSocket sock)
    act (.withLabelValues sock)
    act (.setGauge sock clis.length)
    pure none
  | .error (.request _) => do
    act (.addSocket sock)
    act (.withLabelValues sock)
    act (.setGauge sock 0)
    pure none
  | .error err => some <$> statusErr err

/-- Through `ListClients` and `util.go`, `scrapeSocket` is a listing and its report. -/
theorem scrapeSocket_eq (fuel : Nat) (sock : GoString) :
    ConnectedClientsGauge.scrapeSocket (Service.server fuel) sock =
      listClientsOnSock fuel sock >>= report sock := by
  -- One name is asked for, so there is one listing and no call of `Available`.
  simp only [ConnectedClientsGauge.scrapeSocket, Util.listClients, Service.server, listClients,
    getSockets, List.length_singleton, Nat.one_ne_zero, if_false, Prog.pure_eq, Prog.ret_bind,
    listClientsLoop, bind_assoc]
  refine congrArg _ (funext fun outcome => ?_)
  cases outcome with
  | ok clis => rfl
  | error err =>
    cases err with
    | request err => rfl
    | errno e | status e | other e =>
      simp only [report, map_eq_pure_bind, bind_assoc, Prog.ret_bind, Prog.pure_eq]

namespace Round

variable {fuel : Nat} {r : Round}

theorem Ran.report (ran : r.Ran fuel) : (report r.sock r.outcome).Path r.gauge r.err := by
  have whole := ran.whole
  rw [scrapeSocket_eq] at whole
  exact ran.listing.rest whole

private theorem path_set {sock : GoString} {n : Nat} {t : List (Sigma Ans)} {err : Option GoError}
    (path : Prog.Path (do
      act (.addSocket sock)
      act (.withLabelValues sock)
      act (.setGauge sock n)
      pure none) t err) :
    t = ⟨.addSocket sock, ()⟩ :: setLabel sock n ∧ err = none := by
  obtain ⟨_, _, rfl, labels⟩ := (Prog.path_perform_bind _ _ _ _).mp path
  obtain ⟨_, _, rfl, sets⟩ := (Prog.path_perform_bind _ _ _ _).mp labels
  obtain ⟨_, _, rfl, done⟩ := (Prog.path_perform_bind _ _ _ _).mp sets
  obtain ⟨rfl, rfl⟩ := (Prog.path_ret _ _ _).mp done
  exact ⟨rfl, rfl⟩

/-- Exactly the listings that came to their end are reported as complete. -/
theorem Ran.complete_iff (ran : r.Ran fuel) : r.Complete ↔ ∃ clis, r.outcome = .ok clis := by
  constructor
  · rintro ⟨clis, outcome, _⟩
    exact ⟨clis, outcome⟩
  · rintro ⟨clis, outcome⟩
    have reported := ran.report
    rw [outcome] at reported
    exact ⟨clis, outcome, (path_set reported).1⟩

/-- An error is kept for the socket exactly if the listing failed with no `RequestError`. -/
theorem Ran.err_iff (ran : r.Ran fuel) : r.err ≠ none ↔ r.otherFailed = true := by
  have reported := ran.report
  unfold otherFailed
  cases outcome : r.outcome with
  | ok clis =>
    rw [outcome] at reported
    simp [(path_set reported).2]
  | error err =>
    rw [outcome] at reported
    cases err with
    | request err =>
      simp [(path_set reported).2]
    | errno e | status e | other e =>
      obtain ⟨st, _, kept⟩ := (Prog.path_map _ _ _ _).mp reported
      simp [kept]

end Round

/-! ### All sockets -/

/-- The sockets for which the rounds kept an error -/
def kept (rounds : List Round) (sock : GoString) : Prop :=
  ∃ r ∈ rounds, r.sock = sock ∧ r.err ≠ none

private theorem scrapeLoop_rounds {fuel : Nat} {sockets : List GoString}
    {sErr errs : SocketErrors} {t : List (Sigma Ans)}
    (path : (ConnectedClientsGauge.scrapeLoop (Service.server fuel) sockets sErr).Path t errs) :
    ∃ rounds, rounds.map Round.sock = sockets ∧ (∀ r ∈ rounds, r.Ran fuel) ∧
      t = rounds.flatMap (fun r => r.calls ++ r.gauge) ∧
      ∀ sock, sock ∈ errs ↔ sock ∈ sErr ∨ kept rounds sock := by
  induction sockets generalizing sErr t with
  | nil =>
    obtain ⟨rfl, rfl⟩ := (Prog.path_ret _ _ _).mp path
    exact ⟨[], rfl, by simp, rfl, by simp [kept]⟩
  | cons sock sockets ih =>
    obtain ⟨first, rest, err, rfl, one, others⟩ := (Prog.path_bind _ _ _ _).mp path
    have parts := one
    rw [scrapeSocket_eq] at parts
    obtain ⟨calls, gauge, outcome, rfl, listing, _⟩ := (Prog.path_bind _ _ _ _).mp parts
    -- The error, if there is one, is stored under the name before the loop goes on.
    have onward : ∃ sErr',
        (ConnectedClientsGauge.scrapeLoop (Service.server fuel) sockets sErr').Path rest errs ∧
          ∀ name, name ∈ sErr' ↔ name ∈ sErr ∨ (sock = name ∧ err ≠ none) := by
      cases err with
      | none => exact ⟨sErr, others, by simp⟩
      | some err =>
        refine ⟨sErr.insert sock err, others, fun name => ?_⟩
        simp only [AList.mem_insert, ne_eq, reduceCtorEq, not_false_eq_true, and_true]
        rw [or_comm, eq_comm]
    obtain ⟨sErr', path', start⟩ := onward
    obtain ⟨rounds, socks, ran, calls_eq, mem⟩ := ih path'
    refine ⟨⟨sock, calls, outcome, gauge, err⟩ :: rounds, by simp [socks], ?_, ?_, ?_⟩
    · exact List.forall_mem_cons.mpr ⟨⟨listing, one⟩, ran⟩
    · simp [calls_eq]
    · intro name
      rw [mem, start, or_assoc]
      simp [kept]

private theorem names_err (errs : SocketErrors) (sock : GoString) :
    ScrapeError.names errs.err sock ↔ sock ∈ errs := by
  unfold ScrapeError.names SocketErrors.err
  split
  · simp
  · next empty =>
    have : errs.entries = [] := List.length_eq_zero_iff.mp (not_not.mp empty)
    simp [AList.mem_keys, AList.keys, this]

private theorem path_listSockets {fuel : Nat} {t : List (Sigma Ans)}
    {res : Except GoError (List GoString)}
    (path : (Util.listSockets (Service.server fuel)).Path t res) : t = [⟨.available, res⟩] := by
  obtain ⟨_, _, ans, rfl, listed, read⟩ := (Prog.path_bind _ _ _ _).mp path
  obtain ⟨available, _, rfl, answered⟩ := (Prog.path_perform_bind _ _ _ _).mp listed
  cases available with
  | error e =>
    obtain ⟨rfl, rfl⟩ := (Prog.path_ret _ _ _).mp answered
    obtain ⟨rfl, rfl⟩ := (Prog.path_ret _ _ _).mp read
    rfl
  | ok sockets =>
    obtain ⟨rfl, rfl⟩ := (Prog.path_ret _ _ _).mp answered
    obtain ⟨rfl, rfl⟩ := (Prog.path_ret _ _ _).mp read
    have names : (sockets.map SocketMessage.mk).map SocketMessage.name = sockets :=
      List.map_map.trans (List.map_id sockets)
    rw [names]
    rfl

/-- The rounds of a scrape that got its list of sockets; the error it returns is made of
those they kept. -/
private theorem scrape_rounds {fuel : Nat} {t : List (Sigma Ans)} {err : Option ScrapeError}
    (path : (ConnectedClientsGauge.scrape (Service.server fuel)).Path t err) :
    (∃ e, t = [⟨.lockGauge, ()⟩, ⟨.available, .error e⟩, ⟨.unlockGauge, ()⟩] ∧
        err = some (.list e)) ∨
      ∃ sockets rounds, Scraped fuel sockets rounds t ∧
        ∀ sock, ScrapeError.names err sock ↔ kept rounds sock := by
  obtain ⟨_, _, rfl, locked⟩ := (Prog.path_perform_bind _ _ _ _).mp path
  obtain ⟨held, _, _, rfl, inside, leave⟩ := (Prog.path_bind _ _ _ _).mp locked
  obtain ⟨_, _, rfl, done⟩ := (Prog.path_perform_bind _ _ _ _).mp leave
  obtain ⟨rfl, rfl⟩ := (Prog.path_ret _ _ _).mp done
  obtain ⟨_, rest, ans, rfl, listed, others⟩ := (Prog.path_bind _ _ _ _).mp inside
  cases path_listSockets listed
  cases ans with
  | error e =>
    obtain ⟨rfl, rfl⟩ := (Prog.path_ret _ _ _).mp others
    exact .inl ⟨e, rfl, rfl⟩
  | ok sockets =>
    obtain ⟨clear, _, _, rfl, _, onward⟩ := (Prog.path_bind _ _ _ _).mp others
    obtain ⟨_, _, errs, rfl, looped, last⟩ := (Prog.path_bind _ _ _ _).mp onward
    obtain ⟨rfl, rfl⟩ := (Prog.path_ret _ _ _).mp last
    obtain ⟨rounds, socks, ran, rfl, mem⟩ := scrapeLoop_rounds looped
    refine .inr ⟨sockets, rounds, ⟨socks, ran, clear, by simp⟩, fun sock => ?_⟩
    rw [names_err, mem]
    simp

/-- Whatever the outcomes of its listings, a scrape that got a list of sockets is faithful
exactly if each listing that failed with a `RequestError` was of a socket with another one,
that failed otherwise. -/
theorem faithful_iff {fuel : Nat} {t : List (Sigma Ans)} {err : Option ScrapeError}
    (path : (ConnectedClientsGauge.scrape (Service.server fuel)).Path t err) :
    (∃ e, t = [⟨.lockGauge, ()⟩, ⟨.available, .error e⟩, ⟨.unlockGauge, ()⟩] ∧
        err = some (.list e)) ∨
      ∃ sockets rounds, Scraped fuel sockets rounds t ∧
        (Faithful rounds err ↔ ∀ r ∈ rounds, r.requestFailed = true →
          ∃ r' ∈ rounds, r'.sock = r.sock ∧ r'.otherFailed = true) := by
  obtain unlisted | ⟨sockets, rounds, scraped, names⟩ := scrape_rounds path
  · exact .inl unlisted
  refine .inr ⟨sockets, rounds, scraped, ?_⟩
  constructor
  · intro faithful r member failed
    by_contra alone
    have absent : ¬ ScrapeError.names err r.sock := by
      rw [names]
      rintro ⟨r', member', same, some_err⟩
      exact alone ⟨r', member', same, (scraped.ran r' member').err_iff.mp some_err⟩
    obtain ⟨clis, outcome, _⟩ := faithful.absent r member absent
    simp [Round.requestFailed, outcome] at failed
  · intro covered
    have absent : ∀ r ∈ rounds, ¬ ScrapeError.names err r.sock → r.Complete := by
      intro r member absent
      have ran := scraped.ran r member
      rw [names] at absent
      rw [ran.complete_iff]
      cases outcome : r.outcome with
      | ok clis => exact ⟨clis, rfl⟩
      | error e =>
        refine absurd ?_ absent
        by_cases failed : r.requestFailed = true
        · obtain ⟨r', member', same, other⟩ := covered r member failed
          exact ⟨r', member', same, (scraped.ran r' member').err_iff.mpr other⟩
        · refine ⟨r, member, rfl, ran.err_iff.mpr ?_⟩
          cases e <;> simp_all [Round.requestFailed, Round.otherFailed]
    refine ⟨absent, fun none_err r member => absent r member ?_⟩
    rw [none_err]
    rintro ⟨errs, ⟨⟩, _⟩

/-- A scrape of one socket with one station -/
def oneStation : List (Sigma Ans) :=
  [⟨.lockGauge, ()⟩, ⟨.available, .ok [lit "wlan0"]⟩, ⟨.knownSockets, []⟩,
    ⟨.get (lit "wlan0"), .ok 0⟩,
    ⟨.sendRawCmd 0 (lit "STA-FIRST"), .ok (lit "02:00:00:00:01:00\n")⟩,
    ⟨.sendRawCmd 0 (lit "STA-NEXT 02:00:00:00:01:00"), .ok []⟩,
    ⟨.addSocket (lit "wlan0"), ()⟩, ⟨.withLabelValues (lit "wlan0"), ()⟩,
    ⟨.setGauge (lit "wlan0") 1, ()⟩, ⟨.unlockGauge, ()⟩]

theorem faithful_iff_one_station :
    (ConnectedClientsGauge.scrape (Service.server 1)).Path oneStation none ∧
      ∃ sockets rounds, Scraped 1 sockets rounds oneStation ∧
        (Faithful rounds none ↔ ∀ r ∈ rounds, r.requestFailed = true →
          ∃ r' ∈ rounds, r'.sock = r.sock ∧ r'.otherFailed = true) := by
  have path : (ConnectedClientsGauge.scrape (Service.server 1)).Path oneStation none := by
    repeat refine .call _ ?_
    exact .ret _
  obtain ⟨_, _, ⟨⟩⟩ | found := faithful_iff path
  exact ⟨path, found⟩

/-- A round whose peer does not answer `STA-FIRST` in time -/
def silent : Round where
  sock := lit "wlan0"
  calls := [⟨.get (lit "wlan0"), .ok 0⟩,
    ⟨.sendRawCmd 0 (lit "STA-FIRST"), .error (.request ⟨none, deadlineExceeded⟩)⟩]
  outcome := .error (.request ⟨none, deadlineExceeded⟩)
  gauge := ⟨.addSocket (lit "wlan0"), ()⟩ :: setLabel (lit "wlan0") 0
  err := none

theorem silent_unreported :
    ∃ t, (ConnectedClientsGauge.scrape (Service.server 0)).Path t none ∧
      Scraped 0 [lit "wlan0"] [silent] t ∧ ¬ Faithful [silent] none := by
  refine ⟨⟨.lockGauge, ()⟩ :: ⟨.available, .ok [lit "wlan0"]⟩ :: ⟨.knownSockets, []⟩ ::
    (silent.calls ++ silent.gauge) ++ [⟨.unlockGauge, ()⟩], ?_, ?_, ?_⟩
  · repeat refine .call _ ?_
    exact .ret _
  · refine ⟨rfl, ?_, [⟨.knownSockets, []⟩], rfl⟩
    rintro _ (_ | ⟨_, ⟨⟩⟩)
    exact ⟨.call _ (.call _ (.ret _)), .call _ (.call _ (.call _ (.call _ (.call _ (.ret _)))))⟩
  · intro faithful
    obtain ⟨_, ⟨⟩, _⟩ := faithful.clear rfl silent (List.mem_singleton_self _)

end HostapdGrpc.Server
