import HostapdGrpc.Server.Service

/-!
# What `ListClients` puts together

The listings of the sockets go into the response one after the other: the clients of each, or
the error in their place. An error other than a `RequestError` ends the request, and what was
gathered before it is dropped.
-/

namespace HostapdGrpc.Server

open Go Interaction

/-! ### Outcomes -/

/-- What `listClientsOnSock` returns -/
abbrev Outcome := Except GoError (List Client)

namespace Outcome

def clients : Outcome → List Client
  | .ok clis => clis
  | .error _ => []

def errors : Outcome → List SocketError
  | .error (.request err) => [reqErrToHostapdErr err]
  | _ => []

/-- The error that ends the request, if it is one -/
def fatal : Outcome → Option GoError
  | .error (.request _) => none
  | .error err => some err
  | .ok _ => none

end Outcome

/-- The response of the first sockets, then that of the others -/
def ListClientsResponse.append (first second : ListClientsResponse) : ListClientsResponse :=
  ⟨first.client ++ second.client, first.error ++ second.error⟩

/-- The response to outcomes none of which ends the request -/
def gather (outs : List Outcome) : ListClientsResponse :=
  ⟨outs.flatMap Outcome.clients, outs.flatMap Outcome.errors⟩

theorem gather_append (first second : List Outcome) :
    gather (first ++ second) = (gather first).append (gather second) := by
  simp [gather, ListClientsResponse.append]

theorem append_gather_cons (sofar : ListClientsResponse) (out : Outcome) (outs : List Outcome) :
    (sofar.append (gather [out])).append (gather outs) = sofar.append (gather (out :: outs)) := by
  simp [gather, ListClientsResponse.append]

/-! ### The loop -/

theorem path_statusErr {β : Type} {err : GoError} {t : List (Sigma Ans)}
    {res : Except GoError β} :
    ((Except.error <$> statusErr err : Act (Except GoError β)).Path t res) ↔
      ∃ st, errToStatus err = some st ∧ t = [] ∧ res = .error (.status st) := by
  rw [Prog.path_map]
  unfold statusErr
  cases errToStatus err with
  -- Without a status the method panics, and does not return.
  | none =>
    simp only [reduceCtorEq, false_and, exists_false, iff_false, not_exists, not_and]
    intro e path
    obtain ⟨x, _⟩ := (Prog.path_call _ _ _ _).mp path
    exact x.elim
  | some st =>
    simp only [Prog.pure_eq, Prog.path_ret, Option.some.injEq]
    constructor
    · rintro ⟨_, ⟨rfl, rfl⟩, rfl⟩
      exact ⟨st, rfl, rfl, rfl⟩
    · rintro ⟨_, rfl, rfl, rfl⟩
      exact ⟨_, ⟨rfl, rfl⟩, rfl⟩

/-- One socket's turn -/
structure Visit where
  sock : GoString
  calls : List (Sigma Ans)
  outcome : Outcome

def Visit.Ran (fuel : Nat) (v : Visit) : Prop :=
  (listClientsOnSock fuel v.sock).Path v.calls v.outcome

/-- How the loop goes on from an outcome -/
def onward (fuel : Nat) (rest : List GoString) (res : ListClientsResponse) (out : Outcome) :
    Act (Except GoError ListClientsResponse) :=
  match out.fatal with
  | some err => .error <$> statusErr err
  | none => listClientsLoop fuel rest (res.append (gather [out]))

theorem listClientsLoop_cons (fuel : Nat) (sockName : GoString) (rest : List GoString)
    (res : ListClientsResponse) :
    listClientsLoop fuel (sockName :: rest) res =
      listClientsOnSock fuel sockName >>= onward fuel rest res := by
  rw [listClientsLoop]
  refine congrArg _ (funext fun out => ?_)
  cases out with
  | ok clis => simp [onward, Outcome.fatal, gather, ListClientsResponse.append, Outcome.clients,
      Outcome.errors]
  | error e =>
    cases e with
    | request r => simp [onward, Outcome.fatal, gather, ListClientsResponse.append,
        Outcome.clients, Outcome.errors]
    | errno e | status e | other e => rfl

/-- All of `names` had their turn, and none ended the request. -/
structure Visited (fuel : Nat) (names : List GoString) (visits : List Visit) : Prop where
  socks : visits.map Visit.sock = names
  ran : ∀ v ∈ visits, v.Ran fuel
  fine : ∀ v ∈ visits, v.outcome.fatal = none

/-- The turn of `last` ended the request with `err`; the names after it had none. -/
structure Ended (fuel : Nat) (names : List GoString) (visits : List Visit) (last : Visit)
    (err : GoError) : Prop where
  before : ∃ first rest, names = first ++ last.sock :: rest ∧ Visited fuel first visits
  ran : last.Ran fuel
  fatal : last.outcome.fatal = some err

section
variable {fuel : Nat} {sockName : GoString} {names : List GoString} {v last : Visit}
  {visits : List Visit} {calls : List (Sigma Ans)} {out : Outcome} {err : GoError}

theorem Visited.cons (visited : Visited fuel names visits)
    (ran : (listClientsOnSock fuel sockName).Path calls out) (fine : out.fatal = none) :
    Visited fuel (sockName :: names) (⟨sockName, calls, out⟩ :: visits) :=
  ⟨by simp [visited.socks], List.forall_mem_cons.mpr ⟨ran, visited.ran⟩,
    List.forall_mem_cons.mpr ⟨fine, visited.fine⟩⟩

theorem Visited.uncons (visited : Visited fuel (sockName :: names) (v :: visits)) :
    v.sock = sockName ∧ v.Ran fuel ∧ v.outcome.fatal = none ∧ Visited fuel names visits := by
  obtain ⟨socks, ran, fine⟩ := visited
  obtain ⟨here, later⟩ := List.cons.inj socks
  obtain ⟨v_ran, ran⟩ := List.forall_mem_cons.mp ran
  obtain ⟨v_fine, fine⟩ := List.forall_mem_cons.mp fine
  exact ⟨here, v_ran, v_fine, later, ran, fine⟩

theorem Ended.cons (ended : Ended fuel names visits last err)
    (ran : (listClientsOnSock fuel sockName).Path calls out) (fine : out.fatal = none) :
    Ended fuel (sockName :: names) (⟨sockName, calls, out⟩ :: visits) last err := by
  obtain ⟨⟨first, rest, rfl, visited⟩, last_ran, fatal⟩ := ended
  exact ⟨⟨sockName :: first, rest, rfl, visited.cons ran fine⟩, last_ran, fatal⟩

theorem Ended.first (ended : Ended fuel (sockName :: names) [] last err) :
    last.sock = sockName := by
  obtain ⟨⟨first, rest, split, visited⟩, _, _⟩ := ended
  have none_before : first = [] := visited.socks.symm
  subst none_before
  exact (List.cons.inj split).1.symm

theorem Ended.uncons (ended : Ended fuel (sockName :: names) (v :: visits) last err) :
    v.sock = sockName ∧ v.Ran fuel ∧ v.outcome.fatal = none ∧
      Ended fuel names visits last err := by
  obtain ⟨⟨first, rest, split, visited⟩, last_ran, fatal⟩ := ended
  cases first with
  | nil => cases visited.socks
  | cons name first =>
    obtain ⟨rfl, rfl⟩ := List.cons.inj split
    obtain ⟨here, ran, fine, visited⟩ := visited.uncons
    exact ⟨here, ran, fine, ⟨first, rest, rfl, visited⟩, last_ran, fatal⟩

end

theorem listClientsLoop_iff {fuel : Nat} {names : List GoString} {sofar : ListClientsResponse}
    {t : List (Sigma Ans)} {res : Except GoError ListClientsResponse} :
    (listClientsLoop fuel names sofar).Path t res ↔
      (∃ visits, Visited fuel names visits ∧ t = visits.flatMap Visit.calls ∧
          res = .ok (sofar.append (gather (visits.map Visit.outcome)))) ∨
        ∃ visits last err st, Ended fuel names visits last err ∧ errToStatus err = some st ∧
          t = visits.flatMap Visit.calls ++ last.calls ∧ res = .error (.status st) := by
  -- Each turn adds to what was gathered before, so that is general.
  induction names generalizing sofar t with
  | nil =>
    simp only [listClientsLoop, Prog.pure_eq, Prog.path_ret]
    constructor
    · rintro ⟨rfl, rfl⟩
      exact .inl ⟨[], ⟨rfl, by simp, by simp⟩, rfl, by simp [gather, ListClientsResponse.append]⟩
    · rintro (⟨visits, visited, rfl, rfl⟩ | ⟨_, _, _, _, ended, _⟩)
      · have none_left : visits = [] := List.map_eq_nil_iff.mp visited.socks
        subst none_left
        exact ⟨rfl, by simp [gather, ListClientsResponse.append]⟩
      · obtain ⟨first, rest, names, _⟩ := ended.before
        simp at names
  | cons sockName names ih =>
    rw [listClientsLoop_cons, Prog.path_bind]
    constructor
    · rintro ⟨calls, others, out, rfl, ran, goes_on⟩
      cases fatal : Outcome.fatal out with
      -- The turn of `sockName` is the last one.
      | some err =>
        simp only [onward, fatal] at goes_on
        obtain ⟨st, status, rfl, rfl⟩ := path_statusErr.mp goes_on
        exact .inr ⟨[], ⟨sockName, calls, out⟩, err, st,
          ⟨⟨[], names, rfl, rfl, by simp, by simp⟩, ran, fatal⟩, status, by simp, rfl⟩
      | none =>
        simp only [onward, fatal] at goes_on
        obtain ⟨visits, visited, rfl, rfl⟩ | ⟨visits, last, err, st, ended, status, rfl, rfl⟩ :=
          ih.mp goes_on
        · refine .inl ⟨⟨sockName, calls, out⟩ :: visits, visited.cons ran fatal, rfl, ?_⟩
          rw [append_gather_cons]
          rfl
        · exact .inr ⟨⟨sockName, calls, out⟩ :: visits, last, err, st, ended.cons ran fatal,
            status, by simp, rfl⟩
    -- The turns that are given are those of `sockName` and of the rest.
    · rintro (⟨visits, visited, rfl, rfl⟩ | ⟨visits, last, err, st, ended, status, rfl, rfl⟩)
      · cases visits with
        | nil => cases visited.socks
        | cons v visits =>
          obtain ⟨rfl, ran, fatal, visited⟩ := visited.uncons
          refine ⟨v.calls, visits.flatMap Visit.calls, v.outcome, rfl, ran, ?_⟩
          simp only [onward, fatal]
          refine ih.mpr (.inl ⟨visits, visited, rfl, ?_⟩)
          rw [append_gather_cons]
          rfl
      · cases visits with
        | nil =>
          obtain ⟨rfl⟩ := ended.first
          refine ⟨last.calls, [], last.outcome, by simp, ended.ran, ?_⟩
          simp only [onward, ended.fatal]
          exact path_statusErr.mpr ⟨st, status, rfl, rfl⟩
        | cons v visits =>
          obtain ⟨rfl, ran, fatal, ended⟩ := ended.uncons
          refine ⟨v.calls, visits.flatMap Visit.calls ++ last.calls, v.outcome, by simp, ran, ?_⟩
          simp only [onward, fatal]
          exact ih.mpr (.inr ⟨visits, last, err, st, ended, status, rfl, rfl⟩)

/-! ### The names of the clients -/

private theorem staLoop_named {sock : Sock} {sockName tok : GoString} {fuel : Nat}
    {clis : List Client} {t : List (Sigma Ans)} {out : Outcome}
    (path : (staLoop sock sockName fuel tok clis).Path t out)
    (named : ∀ cli ∈ clis, cli.socketName = sockName) :
    ∀ cli ∈ Outcome.clients out, cli.socketName = sockName := by
  induction fuel generalizing tok clis t with
  | zero =>
    unfold staLoop at path
    split at path
    · obtain ⟨_, rfl⟩ := (Prog.path_ret _ _ _).mp path
      exact named
    · obtain ⟨x, _⟩ := (Prog.path_call _ _ _ _).mp path
      exact x.elim
  | succ fuel ih =>
    unfold staLoop at path
    split at path
    · obtain ⟨_, rfl⟩ := (Prog.path_ret _ _ _).mp path
      exact named
    · obtain ⟨ans, rest, _, goes_on⟩ := (Prog.path_perform_bind _ _ _ _).mp path
      cases ans with
      -- An error leaves none of the clients.
      | error err =>
        obtain ⟨_, rfl⟩ := (Prog.path_ret _ _ _).mp goes_on
        simp [Outcome.clients]
      | ok next =>
        refine ih goes_on ?_
        simp only [List.mem_append, List.mem_singleton]
        rintro cli (old | rfl)
        · exact named cli old
        · rfl

/-- Each client carries the name of the socket it was listed on. -/
theorem Visit.Ran.named {fuel : Nat} {v : Visit} (ran : v.Ran fuel) :
    ∀ cli ∈ v.outcome.clients, cli.socketName = v.sock := by
  obtain ⟨sock, _, _, got⟩ := (Prog.path_perform_bind _ _ _ _).mp ran
  cases sock with
  | error err =>
    obtain ⟨_, failed⟩ := (Prog.path_ret _ _ _).mp got
    simp [failed, Outcome.clients]
  | ok sock =>
    obtain ⟨tok, _, _, first⟩ := (Prog.path_perform_bind _ _ _ _).mp got
    cases tok with
    | error err =>
      obtain ⟨_, failed⟩ := (Prog.path_ret _ _ _).mp first
      simp [failed, Outcome.clients]
    | ok tok => exact staLoop_named first (by simp)

/-! ### The request -/

theorem path_getSockets {given : List GoString} {t : List (Sigma Ans)}
    {out : Except GoError (List GoString)} :
    (getSockets given).Path t out ↔ (given ≠ [] ∧ t = [] ∧ out = .ok given) ∨
      (given = [] ∧ ((∃ names, t = [⟨.available, .ok names⟩] ∧ out = .ok names) ∨
        ∃ err st, errToStatus err = some st ∧ t = [⟨.available, .error err⟩] ∧
          out = .error (.status st))) := by
  unfold getSockets
  by_cases absent : given = []
  · rw [if_pos (by simp [absent])]
    refine (Prog.path_perform_bind _ _ _ _).trans ?_
    simp only [absent, ne_eq, not_true_eq_false, false_and, true_and, false_or]
    constructor
    · rintro ⟨ans, t', rfl, goes_on⟩
      cases ans with
      | error err =>
        obtain ⟨st, status, rfl, rfl⟩ := path_statusErr.mp goes_on
        exact .inr ⟨err, st, status, rfl, rfl⟩
      | ok names =>
        obtain ⟨rfl, rfl⟩ := (Prog.path_ret _ _ _).mp goes_on
        exact .inl ⟨names, rfl, rfl⟩
    · rintro (⟨names, rfl, rfl⟩ | ⟨err, st, status, rfl, rfl⟩)
      · exact ⟨.ok names, [], rfl, .ret _⟩
      · exact ⟨.error err, [], rfl, path_statusErr.mpr ⟨st, status, rfl, rfl⟩⟩
  · rw [if_neg (by simpa using absent)]
    simp [absent]

/-- The sockets a request is for, with the calls that find them -/
inductive Asks (req : ListClientsRequest) : List (Sigma Ans) → List GoString → Prop where
  | named (given : req.socketName ≠ []) : Asks req [] req.socketName
  | available (absent : req.socketName = []) (names : List GoString) :
      Asks req [⟨.available, .ok names⟩] names

/-- No socket is named, and the available ones cannot be listed. -/
def Unlisted (req : ListClientsRequest) (t : List (Sigma Ans))
    (res : Except GoError ListClientsResponse) : Prop :=
  req.socketName = [] ∧ ∃ err st, errToStatus err = some st ∧
    t = [⟨.available, .error err⟩] ∧ res = .error (.status st)

/-- The calls `t` are the turns of the names in order. With no outcome that ends the request
the response has what the outcomes give; otherwise there is no response, but the status of the
first such outcome, and its socket's turn is the last. -/
def Aggregates (fuel : Nat) (names : List GoString) (t : List (Sigma Ans))
    (res : Except GoError ListClientsResponse) : Prop :=
  (∃ visits, Visited fuel names visits ∧ t = visits.flatMap Visit.calls ∧
      res = .ok (gather (visits.map Visit.outcome))) ∨
    ∃ visits last err st, Ended fuel names visits last err ∧ errToStatus err = some st ∧
      t = visits.flatMap Visit.calls ++ last.calls ∧ res = .error (.status st)

private theorem path_loop {fuel : Nat} {names : List GoString} {t : List (Sigma Ans)}
    {res : Except GoError ListClientsResponse} :
    (listClientsLoop fuel names ⟨[], []⟩).Path t res ↔ Aggregates fuel names t res := by
  have empty : ∀ outs, ListClientsResponse.append ⟨[], []⟩ (gather outs) = gather outs :=
    fun outs => rfl
  simp only [listClientsLoop_iff, empty]
  rfl

theorem listClients_iff {fuel : Nat} {req : ListClientsRequest} {t : List (Sigma Ans)}
    {res : Except GoError ListClientsResponse} :
    (listClients fuel req).Path t res ↔ Unlisted req t res ∨
      ∃ asked names calls, Asks req asked names ∧ t = asked ++ calls ∧
        Aggregates fuel names calls res := by
  unfold listClients
  rw [Prog.path_bind]
  constructor
  · rintro ⟨asked, calls, names, rfl, found, goes_on⟩
    obtain ⟨given, rfl, rfl⟩ | ⟨absent, ⟨names, rfl, rfl⟩ | ⟨err, st, status, rfl, rfl⟩⟩ :=
      path_getSockets.mp found
    · exact .inr ⟨[], _, calls, .named given, rfl, path_loop.mp goes_on⟩
    · exact .inr ⟨_, names, calls, .available absent names, rfl, path_loop.mp goes_on⟩
    · obtain ⟨rfl, rfl⟩ := (Prog.path_ret _ _ _).mp goes_on
      exact .inl ⟨absent, err, st, status, rfl, rfl⟩
  · rintro (⟨absent, err, st, status, rfl, rfl⟩ | ⟨asked, names, calls, asks, rfl, aggregates⟩)
    · exact ⟨_, [], _, rfl, path_getSockets.mpr (.inr ⟨absent, .inr ⟨err, st, status, rfl, rfl⟩⟩),
        .ret _⟩
    · cases asks with
      | named given =>
        exact ⟨[], calls, _, rfl, path_getSockets.mpr (.inl ⟨given, rfl, rfl⟩),
          path_loop.mpr aggregates⟩
      | available absent names =>
        exact ⟨_, calls, _, rfl, path_getSockets.mpr (.inr ⟨absent, .inl ⟨names, rfl, rfl⟩⟩),
          path_loop.mpr aggregates⟩

/-- All of `names`, with the outcomes `outs`, gave the response `res`. -/
def Responded (fuel : Nat) (names : List GoString) (outs : List Outcome)
    (res : ListClientsResponse) : Prop :=
  ∃ visits, Visited fuel names visits ∧ visits.map Visit.outcome = outs ∧
    (listClients fuel ⟨names⟩).Path (visits.flatMap Visit.calls) (.ok res)

theorem responded_iff {fuel : Nat} {names : List GoString} (given : names ≠ [])
    {outs : List Outcome} {res : ListClientsResponse} :
    Responded fuel names outs res ↔
      ∃ visits, Visited fuel names visits ∧ visits.map Visit.outcome = outs ∧
        res = gather outs := by
  have path : ∀ visits, Visited fuel names visits →
      (listClients fuel ⟨names⟩).Path (visits.flatMap Visit.calls)
        (.ok (gather (visits.map Visit.outcome))) := fun visits visited =>
    listClients_iff.mpr (.inr ⟨[], names, _, .named given, rfl, .inl ⟨visits, visited, rfl, rfl⟩⟩)
  constructor
  · rintro ⟨visits, visited, rfl, responded⟩
    exact ⟨visits, visited, rfl, Except.ok.inj (responded.unique (path visits visited))⟩
  · rintro ⟨visits, visited, rfl, rfl⟩
    exact ⟨visits, visited, rfl, path visits visited⟩

/-- The outcomes of the listings decide the response, and that of a request for more sockets
is made of those for its parts. -/
theorem listClients_aggregates (fuel : Nat) :
    (∀ req t res, (listClients fuel req).Path t res ↔ Unlisted req t res ∨
      ∃ asked names calls, Asks req asked names ∧ t = asked ++ calls ∧
        Aggregates fuel names calls res) ∧
    (∀ v : Visit, v.Ran fuel → ∀ cli ∈ v.outcome.clients, cli.socketName = v.sock) ∧
    ∀ xs ys first second res, xs ≠ [] → ys ≠ [] → first.length = xs.length →
      Responded fuel (xs ++ ys) (first ++ second) res →
      (∃ r, Responded fuel xs first r) ∧ (∃ r, Responded fuel ys second r) ∧
        ∀ r₁ r₂, Responded fuel xs first r₁ → Responded fuel ys second r₂ →
          res = r₁.append r₂ := by
  refine ⟨fun _ _ _ => listClients_iff, fun _ ran => ran.named, ?_⟩
  intro xs ys first second res some_xs some_ys length responded
  simp only [responded_iff some_xs, responded_iff some_ys]
  obtain ⟨visits, visited, outcomes, rfl⟩ := (responded_iff (by simp [some_xs])).mp responded
  -- As many turns as there are first names are theirs, the others are for the rest.
  obtain ⟨left, right, rfl, rfl, rfl⟩ := List.map_eq_append_iff.mp outcomes
  have socks := visited.socks
  rw [List.map_append] at socks
  obtain ⟨left_socks, right_socks⟩ := List.append_inj socks (by simpa using length)
  obtain ⟨left_ran, right_ran⟩ := List.forall_mem_append.mp visited.ran
  obtain ⟨left_fine, right_fine⟩ := List.forall_mem_append.mp visited.fine
  refine ⟨⟨_, left, ⟨left_socks, left_ran, left_fine⟩, rfl, rfl⟩,
    ⟨_, right, ⟨right_socks, right_ran, right_fine⟩, rfl, rfl⟩, ?_⟩
  rintro _ _ ⟨_, _, _, rfl⟩ ⟨_, _, _, rfl⟩
  exact gather_append _ _

/-- A socket without stations, and one whose peer does not answer -/
def emptyAndSilent : List Visit :=
  [⟨lit "wlan0", [⟨.get (lit "wlan0"), .ok 0⟩, ⟨.sendRawCmd 0 (lit "STA-FIRST"), .ok []⟩], .ok []⟩,
    ⟨lit "wlan1", [⟨.get (lit "wlan1"), .ok 1⟩,
      ⟨.sendRawCmd 1 (lit "STA-FIRST"), .error (.request ⟨none, deadlineExceeded⟩)⟩],
      .error (.request ⟨none, deadlineExceeded⟩)⟩]

theorem listClients_aggregates_two :
    (∃ t res, (listClients 0 ⟨[lit "wlan0", lit "wlan1"]⟩).Path t (.ok res) ∧
      Responded 0 ([lit "wlan0"] ++ [lit "wlan1"]) ([.ok []] ++
        [.error (.request ⟨none, deadlineExceeded⟩)]) res) ∧
      ∃ r, Responded 0 [lit "wlan1"] [.error (.request ⟨none, deadlineExceeded⟩)] r := by
  have visited : Visited 0 [lit "wlan0", lit "wlan1"] emptyAndSilent := by
    refine ⟨rfl, ?_, by decide⟩
    rintro v (_ | ⟨_, _ | ⟨_, ⟨⟩⟩⟩) <;> exact .call _ (.call _ (.ret _))
  obtain ⟨visits, all, outcomes, path⟩ :
      Responded 0 [lit "wlan0", lit "wlan1"] (emptyAndSilent.map Visit.outcome) _ :=
    (responded_iff (by simp)).mpr ⟨_, visited, rfl, rfl⟩
  refine ⟨⟨_, _, path, visits, all, outcomes, path⟩, ?_⟩
  exact ((listClients_aggregates 0).2.2 [lit "wlan0"] [lit "wlan1"] [.ok []] _ _ (by simp) (by simp)
    rfl ⟨visits, all, outcomes, path⟩).2.1

end HostapdGrpc.Server
