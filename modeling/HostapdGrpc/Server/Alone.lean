import HostapdGrpc.Server.Sharing

/-!
# A request alone and among others

The response that a request gets in any interleaving is the one outcome that it has with each
call answered as the provider and the peers always answer it. Alone, a request can be run to
that outcome.
-/

namespace HostapdGrpc.Server

open Go Interaction

section
variable {ι : Type} [DecidableEq ι] {fuel : Nat} {provider : Provider}
  {reply : Socket.Conn → GoString → GoString} {i : ι} {α : Type}

/-- Nobody is in an exchange. -/
structure Still (s : Shared ι) : Prop where
  tidy : Tidy s
  unlocked : ∀ p, s.mem.heap.smu p = none

/-- Only `i` is in an exchange, on the connection of `p`. -/
structure Exchanging (i : ι) (p : Socket.Ptr) (s : Shared ι) : Prop where
  tidy : Tidy s
  locked : s.mem.heap.smu p = some i
  unlocked : ∀ q, q ≠ p → s.mem.heap.smu q = none

omit [DecidableEq ι] in
theorem Shared.init_still : Still (Shared.init : Shared ι) :=
  ⟨⟨fun _ => rfl, fun _ => rfl, fun _ => rfl, fun _ _ => ⟨rfl, rfl⟩⟩, fun _ => rfl⟩

private theorem exec_of_step {s s' : Shared ι} {op : SharedOp} {a : SharedAns op} (tidy : Tidy s)
    (step : Step provider i s op a s') : s.exec provider i op = some (a, s') := by
  cases step with
  | service answer => simp [Shared.exec, answer]
  | lock p free => simp [Shared.exec, Shared.logAfter, Socket.State.exec, Socket.State.holder, free]
  | unlock p mine quiet => rfl
  | sock p => rfl
  | send c cmd mine => simp [Shared.exec, Shared.logAfter, Socket.State.exec, tidy.live c]
  | recv c d rest mine received =>
    simp [Shared.exec, Shared.logAfter, Socket.State.exec, Socket.State.recv, received,
      Socket.State.bufSize]

/-! ### Running alone -/

/-- Only `i` makes requests, and only `req`. -/
def alone (i : ι) (req : Request) :
    Condition ι SharedOp (Shared ι) (Socket.Conn × Nat) Request :=
  ⟨fun j call _ => j = i ∧ call = req, fun _ _ _ _ => True⟩

private theorem runs_step {req : Request} {op : SharedOp} {P : Shared ι → Prop}
    {Q : SharedAns op → Shared ι → Prop}
    (step : ∀ s, P s → Tidy s ∧ ∃ a s', Step provider i s op a s' ∧ Q a s') :
    Runs (sharing ι fuel provider reply) (alone i req) i P (Prog.perform op) Q := by
  refine .perform fun s pre => ?_
  obtain ⟨tidy, a, s', step, post⟩ := step s pre
  exact ⟨(0, 0), a, s', trivial, exec_of_step tidy step, post⟩

private theorem runs_lift {req : Request} {op : Socket.Op} {f : Socket.Ans op → Socket.Act α}
    {P : Shared ι → Prop} {R : Socket.Ans op → Shared ι → Prop} {Q : α → Shared ι → Prop}
    (first : Runs (sharing ι fuel provider reply) (alone i req) i P
      (Prog.perform (SharedOp.socket op) : SharedAct _) R)
    (second : ∀ x, Runs (sharing ι fuel provider reply) (alone i req) i (R x) (lift (f x)) Q) :
    Runs (sharing ι fuel provider reply) (alone i req) i P (lift (Socket.act op >>= f)) Q :=
  first.bind second

omit [DecidableEq ι] in
/-- The peer answers the one command. -/
private theorem answers {p : Socket.Ptr} {cmd : GoString} {s : Shared ι} {id : Socket.CmdId}
    (exchanging : Exchanging i p s) (asked : (s.mem.conn p).outstanding = [id])
    (logged : (s.log p)[id]? = some cmd) (empty : (s.mem.conn p).queue = []) :
    ∃ s', s.peer reply p 0 = some s' ∧ Exchanging i p s' ∧
      (s'.mem.conn p).outstanding = [] ∧
        (s'.mem.conn p).queue = [⟨reply p cmd, some id⟩] := by
  have moved : s.peer reply p 0 = some { s with mem := s.mem.setConn p { s.mem.conn p with
      outstanding := [], queue := [⟨reply p cmd, some id⟩] } } := by
    simp [Shared.peer, Socket.State.peer, asked, logged, empty, exchanging.tidy.live p]
  refine ⟨_, moved, ⟨(exchanging.tidy.peer moved).1, exchanging.locked, exchanging.unlocked⟩, ?_⟩
  simp [Socket.State.setConn]

/-- Alone, a request on the connection of `p` gets its reply. -/
private theorem request_runs {req : Request} (p : Socket.Ptr) {cmd : GoString}
    (own : Socket.Datagram.isMessage ⟨reply p cmd, none⟩ = false) :
    Runs (sharing ι fuel provider reply) (alone i req) i
      (fun s => Exchanging i p s ∧ Quiet s p) (lift (Socket.WpaCtrl.request (some p) cmd))
      fun r s => (Exchanging i p s ∧ Quiet s p) ∧ r.1 = 0 ∧
        r.2.2.text = (reply p cmd).take 4096 := by
  have send : Runs (sharing ι fuel provider reply) (alone i req) i
      (fun s => Exchanging i p s ∧ Quiet s p)
      (Prog.perform (SharedOp.socket (.send (some p) cmd)) : SharedAct _)
      fun (r : Except Errno Socket.CmdId) s => (Exchanging i p s ∧ ∃ id,
        (s.mem.conn p).outstanding = [id] ∧ (s.log p)[id]? = some cmd ∧
          (s.mem.conn p).queue = []) ∧ ∃ id, r = .ok id := by
    refine runs_step ?_
    rintro s ⟨exchanging, answered, received⟩
    have step : Step provider i s (.socket (.send (some p) cmd)) _ _ :=
      .send p cmd exchanging.locked
    refine ⟨exchanging.tidy, _, _, step, ⟨⟨step.tidy exchanging.tidy, exchanging.locked,
      exchanging.unlocked⟩, (s.mem.conn p).sent, ?_, ?_, ?_⟩, _, rfl⟩
    · simp [Socket.State.setConn, answered]
    · simp [exchanging.tidy.counted p]
    · simpa [Socket.State.setConn] using received
  have recv : Runs (sharing ι fuel provider reply) (alone i req) i
      (fun s => Exchanging i p s ∧ (s.mem.conn p).outstanding = [] ∧
        ∃ origin, (s.mem.conn p).queue = [⟨reply p cmd, origin⟩])
      (Prog.perform (SharedOp.socket (.recv p)) : SharedAct _)
      fun (r : Socket.Received) s => (Exchanging i p s ∧ Quiet s p) ∧ ∃ d, r = .reply d ∧
        d.text = (reply p cmd).take 4096 := by
    refine runs_step ?_
    rintro s ⟨exchanging, answered, origin, one⟩
    have received : (s.mem.conn p).queue.dropWhile Socket.Datagram.isMessage =
        [⟨reply p cmd, origin⟩] := by
      rw [one, List.dropWhile_cons_of_neg]
      simpa [Socket.Datagram.isMessage] using own
    have step : Step provider i s (.socket (.recv p)) _ _ :=
      .recv p _ _ exchanging.locked received
    refine ⟨exchanging.tidy, _, _, step, ⟨⟨step.tidy exchanging.tidy, exchanging.locked,
      exchanging.unlocked⟩, ?_, ?_⟩, _, rfl, rfl⟩
    · simpa [Socket.State.setConn] using answered
    · simp [Socket.State.setConn]
  unfold Socket.WpaCtrl.request
  refine runs_lift send fun r => .assume (fun _ pre => pre.2) ?_
  rintro ⟨id, rfl⟩
  -- The peer is to answer before anything can be received.
  refine .after_env ?_ (runs_lift recv fun r => .assume (fun _ pre => pre.2) ?_)
  · rintro s ⟨⟨exchanging, _, asked, logged, empty⟩, _⟩
    obtain ⟨s', moved, exchanging', answered, one⟩ := answers exchanging asked logged empty
    exact ⟨(p, 0), s', moved, exchanging', answered, _, one⟩
  · rintro ⟨d, rfl, text⟩
    exact .ret _ fun s pre => ⟨pre.1, rfl, text⟩

private theorem sendRawCmd_runs {req : Request} (p : Socket.Ptr) {cmd : GoString}
    (own : Socket.Datagram.isMessage ⟨reply p cmd, none⟩ = false) :
    Runs (sharing ι fuel provider reply) (alone i req) i Still
      (lift (Socket.SharedSocket.sendRawCmd p cmd)) fun out s => Still s ∧
        ∃ r, out = .ok r ∧ r.text = (reply p cmd).take 4096 := by
  have lock : Runs (sharing ι fuel provider reply) (alone i req) i Still
      (Prog.perform (SharedOp.socket (.lock (.smu p))) : SharedAct _)
      fun _ s => Exchanging i p s ∧ Quiet s p := by
    refine runs_step fun s still => ?_
    have step : Step provider i s (.socket (.lock (.smu p))) _ _ := .lock p (still.unlocked p)
    refine ⟨still.tidy, _, _, step, ⟨step.tidy still.tidy, ?_, fun q other => ?_⟩,
      still.tidy.quiet p (still.unlocked p)⟩
    · simp [Socket.State.setHolder]
    · simpa [Socket.State.setHolder, Function.update_of_ne other] using still.unlocked q
  have sock : Runs (sharing ι fuel provider reply) (alone i req) i
      (fun s => Exchanging i p s ∧ Quiet s p)
      (Prog.perform (SharedOp.socket (.sock p)) : SharedAct _)
      fun (c : Option Socket.Conn) s => (Exchanging i p s ∧ Quiet s p) ∧ c = some p :=
    runs_step fun s pre => ⟨pre.1.tidy, _, _, .sock p, pre, pre.1.tidy.wired p⟩
  have unlock : Runs (sharing ι fuel provider reply) (alone i req) i
      (fun s => Exchanging i p s ∧ Quiet s p)
      (Prog.perform (SharedOp.socket (.unlock (.smu p))) : SharedAct _) fun _ => Still := by
    refine runs_step ?_
    rintro s ⟨exchanging, quiet⟩
    have step : Step provider i s (.socket (.unlock (.smu p))) _ _ :=
      .unlock p exchanging.locked quiet
    refine ⟨exchanging.tidy, _, _, step, step.tidy exchanging.tidy, fun q => ?_⟩
    by_cases same : q = p
    · subst same
      simp [Socket.State.setHolder]
    · simpa [Socket.State.setHolder, Function.update_of_ne same] using exchanging.unlocked q same
  unfold Socket.SharedSocket.sendRawCmd
  refine runs_lift lock fun _ => runs_lift sock fun c => .assume (fun _ pre => pre.2) ?_
  rintro rfl
  unfold Socket.WpaCtrl.sendRawCmd lift
  rw [bind_assoc, Prog.interpret_bind]
  refine Runs.bind ((request_runs p own).weaken (fun _ pre => pre.1) fun _ _ post => post)
    fun answer => .assume (fun _ pre => pre.2) ?_
  rintro ⟨done, text⟩
  obtain ⟨ret, errno, r⟩ := answer
  simp only at done text
  simp only [done, ne_eq, not_true_eq_false, if_false, fits_of_take text, Prog.pure_eq,
    Prog.ret_bind]
  refine runs_lift (unlock.weaken (fun _ pre => pre.1) fun _ _ post => post) fun _ => ?_
  exact .ret _ fun s still => ⟨still, r, rfl, text⟩

private theorem lower_runs {req : Request} (op : Op) (x : Ans op)
    (answer : world provider reply op = some x) :
    Runs (sharing ι fuel provider reply) (alone i req) i Still (lower op)
      fun y s => Still s ∧ y = x := by
  have service : ∀ (op : Op) (x : Ans op), provider.answer op = some x →
      Runs (sharing ι fuel provider reply) (alone i req) i Still
        (Prog.perform (SharedOp.service op) : SharedAct _) fun (y : Ans op) s =>
          Still s ∧ y = x := fun op x answer =>
    runs_step fun s still => ⟨still.tidy, x, s, .service answer, still, rfl⟩
  cases op with
  | sendRawCmd sock cmd =>
    simp only [world] at answer
    split at answer
    · cases answer
    next own =>
      cases answer
      refine .map _ ((sendRawCmd_runs sock (by simpa using own)).weaken (fun _ pre => pre) ?_)
      rintro out s ⟨still, r, rfl, text⟩
      exact ⟨still, by simp [Except.map, text]⟩
  | _ => exact service _ x answer

/-! ### Any number of requests -/

/-- No caller is in a request, and each `sharedSocket` is connected. -/
def unrequested (ι : Type) :
    Config ι SharedOp SharedAns (Shared ι) Request (Except GoError Response) :=
  ⟨.init, fun _ => .idle⟩

/-- The response `res` to `req`, if `i` makes no other request and the others make none -/
def RespondsAlone (fuel : Nat) (provider : Provider) (reply : Socket.Conn → GoString → GoString)
    (i : ι) (req : Request) (res : Except GoError Response) : Prop :=
  ∃ c, Reach (sharing ι fuel provider reply) (alone i req) (unrequested ι) c ∧
    c.thread i = .running req (.ret res)

/-- What is known in every configuration of a run, under whichever condition -/
private theorem sharing_ok {C : Condition ι SharedOp (Shared ι) (Socket.Conn × Nat) Request}
    {c : Config ι SharedOp SharedAns (Shared ι) Request (Except GoError Response)}
    (run : Reach (sharing ι fuel provider reply) C (unrequested ι) c) :
    (sharedProof ι fuel provider reply).ConfigOk c := by
  refine (sharedProof ι fuel provider reply).sound (unrequested ι) c ?_
    (run.weaken (fun _ _ _ _ => trivial) fun _ _ _ _ _ => trivial)
  exact ⟨Shared.init_still.tidy, fun i p mine => by cases mine⟩

/-- In every interleaving with other requests, a request gets the response it gets alone. -/
theorem responds_as_alone {c : Config ι SharedOp SharedAns (Shared ι) Request
      (Except GoError Response)}
    (run : Reach (sharing ι fuel provider reply) ⟨fun _ _ _ => True, fun _ _ _ _ => True⟩
      (unrequested ι) c) {req : Request} {res : Except GoError Response}
    (returns : c.thread i = .running req (.ret res)) (res' : Except GoError Response) :
    RespondsAlone fuel provider reply i req res' ↔ res' = res := by
  have outcome := ((sharing_ok run).post returns).2
  constructor
  · rintro ⟨c', run', returns'⟩
    have outcome' := ((sharing_ok run').post returns').2
    exact Option.some.inj (outcome'.symm.trans outcome)
  · rintro rfl
    -- Alone, the request can be run to the outcome it has in the world.
    obtain ⟨c₁, started, still, thread⟩ : ∃ c₁, Reach (sharing ι fuel provider reply)
        (alone i req) (unrequested ι) c₁ ∧ Still c₁.state ∧
          c₁.thread i = .running req ((serve fuel req).interpret lower >>= .ret) := by
      refine ⟨_, .step (.start i req) .refl ⟨rfl, rfl⟩ rfl, Shared.init_still, ?_⟩
      rw [Prog.bind_ret]
      exact Function.update_self _ _ _
    obtain ⟨c₂, b, goes_on, ⟨_, rfl⟩, last⟩ :=
      Runs.interpret lower_runs outcome c₁ req .ret still thread
    exact ⟨c₂, started.trans goes_on, last⟩

end

/-- Every name stands for the same `sharedSocket`. -/
def oneSocket : Provider := ⟨.ok [lit "wlan0"], fun _ => .ok 0, fun _ => none⟩

/-- An access point without stations -/
def pong (_ : Socket.Conn) (cmd : GoString) : GoString :=
  if cmd = lit "PING" then lit "PONG\n" else []

/-- A `ListClients` sends its command and gets the reply between two steps of a `Ping`. -/
theorem responds_as_alone_two :
    ∃ c : Config (Fin 2) SharedOp SharedAns (Shared (Fin 2)) Request (Except GoError Response),
      Reach (sharing (Fin 2) 0 oneSocket pong) ⟨fun _ _ _ => True, fun _ _ _ _ => True⟩
        (unrequested (Fin 2)) c ∧
      c.thread 0 = .running (.ping ⟨[lit "wlan0"]⟩) (.ret (.ok (.ping ⟨[⟨lit "wlan0", none⟩]⟩))) ∧
      c.thread 1 = .running (.listClients ⟨[]⟩) (.ret (.ok (.listClients ⟨[], []⟩))) ∧
      RespondsAlone 0 oneSocket pong (0 : Fin 2) (.ping ⟨[lit "wlan0"]⟩)
        (.ok (.ping ⟨[⟨lit "wlan0", none⟩]⟩)) ∧
      RespondsAlone 0 oneSocket pong (1 : Fin 2) (.listClients ⟨[]⟩)
        (.ok (.listClients ⟨[], []⟩)) := by
  have ran : (sharing (Fin 2) 0 oneSocket pong).run (fun _ _ _ => true) (fun _ _ _ _ => true)
    [.start 0 (.ping ⟨[lit "wlan0"]⟩), .start 1 (.listClients ⟨[]⟩), .step 0 (0, 0),
      .step 1 (0, 0), .step 1 (0, 0), .step 1 (0, 0), .step 1 (0, 0), .step 1 (0, 0),
      .env (0, 0), .step 1 (0, 0), .step 1 (0, 0), .step 0 (0, 0), .step 0 (0, 0),
      .step 0 (0, 0), .env (0, 0), .step 0 (0, 0), .step 0 (0, 0), .step 0 (0, 0)]
    (unrequested (Fin 2)) = some _ := rfl
  have run := reach_of_run _ _ _ ran
  have any := Reach.weaken (D := ⟨fun _ _ _ => True, fun _ _ _ _ => True⟩)
    (fun _ _ _ _ => trivial) (fun _ _ _ _ _ => trivial) run
  obtain ⟨c, both, ping, listing⟩ :
      ∃ c, Reach (sharing (Fin 2) 0 oneSocket pong) ⟨fun _ _ _ => True, fun _ _ _ _ => True⟩
        (unrequested (Fin 2)) c ∧
      c.thread 0 = .running (.ping ⟨[lit "wlan0"]⟩) (.ret (.ok (.ping ⟨[⟨lit "wlan0", none⟩]⟩))) ∧
      c.thread 1 = .running (.listClients ⟨[]⟩) (.ret (.ok (.listClients ⟨[], []⟩))) :=
    ⟨_, any, rfl, rfl⟩
  exact ⟨c, both, ping, listing, (responds_as_alone both ping _).mpr rfl,
    (responds_as_alone both listing _).mpr rfl⟩

end HostapdGrpc.Server
