import HostapdGrpc.Interaction.Interpret
import HostapdGrpc.Server.Service
import HostapdGrpc.Socket.Manager

/-!
# Requests that share connections

Any number of requests send their commands through the same `sharedSocket`s. `smu` keeps a
command and the receipt of its reply together, and a listing has its place in its commands
only, so no request sees that there are others.
-/

namespace HostapdGrpc.Server

open Go Interaction

/-! ### The requests and the connections below them -/

/-- The calls of the service, and the steps of `SendRawCmd` -/
inductive SharedOp where
  | service (op : Op)
  | socket (op : Socket.Op)

abbrev SharedAns : SharedOp → Type
  | .service op => Ans op
  | .socket op => Socket.Ans op

abbrev SharedAct (α : Type) := Prog SharedOp SharedAns α

def lift {α : Type} (p : Socket.Act α) : SharedAct α :=
  p.interpret fun op => Prog.perform (.socket op)

/-- `SendRawCmd` is that of the `sharedSocket`. -/
def lower (op : Op) : SharedAct (Ans op) :=
  match op with
  | .sendRawCmd sock cmd =>
    Except.map Socket.Reply.text <$> lift (Socket.SharedSocket.sendRawCmd sock cmd)
  | op => Prog.perform (SharedOp.service op)

/-- What does not depend on the other requests: the sockets there are, and the handles that
are given out for them. -/
structure Provider where
  available : Except GoError (List GoString)
  get : GoString → Except GoError Sock
  close : Sock → Option GoError

def Provider.answer (provider : Provider) (op : Op) : Option (Ans op) :=
  match op with
  | .get name => some (provider.get name)
  | .available => some provider.available
  | .close sock => some (provider.close sock)
  | _ => none

/-- The memory below, and the commands sent on each connection -/
structure Shared (ι : Type) where
  mem : Socket.State ι
  log : Socket.Conn → List GoString

namespace Shared

variable {ι : Type} [DecidableEq ι] (s : Shared ι)

/-- Each `sharedSocket` has a connection of its own. -/
def init : Shared ι where
  mem := { Socket.State.init with heap := { Socket.State.init.heap with s := some } }
  log _ := []

def logAfter (op : Socket.Op) : Socket.Conn → List GoString :=
  match op with
  | .send (some c) cmd => Function.update s.log c (s.log c ++ [cmd])
  | _ => s.log

/-- No operation fails or times out. -/
def exec (provider : Provider) (i : ι) (op : SharedOp) : Option (SharedAns op × Shared ι) :=
  match op with
  | .service op => (provider.answer op).map fun a => (a, s)
  | .socket op => (s.mem.exec i op .go).map fun r => (r.1, ⟨r.2, s.logAfter op⟩)

/-- The peer of `c` answers the command at place `n` of those it has not answered. -/
def peer (reply : Socket.Conn → GoString → GoString) (c : Socket.Conn) (n : Nat) :
    Option (Shared ι) := do
  let id ← (s.mem.conn c).outstanding[n]?
  let cmd ← (s.log c)[id]?
  let mem ← s.mem.peer (.answer c n (reply c cmd))
  pure ⟨mem, s.log⟩

end Shared

/-- Any number of callers make requests, and the peers answer them. -/
def sharing (ι : Type) [DecidableEq ι] (fuel : Nat) (provider : Provider)
    (reply : Socket.Conn → GoString → GoString) :
    System ι SharedOp SharedAns (Shared ι) (Socket.Conn × Nat) Request
      (Except GoError Response) where
  exec i op _ s := s.exec provider i op
  body req := (serve fuel req).interpret lower
  start _ _ s := some s
  finish _ _ _ s := s
  env choice s := s.peer reply choice.1 choice.2

/-! ### What is known of a connection -/

section
variable {ι : Type} (reply : Socket.Conn → GoString → GoString) (i : ι) (s : Shared ι)
  (p : Socket.Ptr)

/-- Every command is answered, and every reply received. -/
def Quiet : Prop := (s.mem.conn p).outstanding = [] ∧ (s.mem.conn p).queue = []

/-- Nothing but `cmd` is to be answered, or but the reply to it received. -/
def Awaiting (cmd : GoString) : Prop :=
  (∃ id, (s.mem.conn p).outstanding = [id] ∧ (s.log p)[id]? = some cmd ∧
      (s.mem.conn p).queue = []) ∨
    (s.mem.conn p).outstanding = [] ∧ ∃ origin, (s.mem.conn p).queue = [⟨reply p cmd, origin⟩]

/-- A connection that nobody is using is quiet. -/
structure Tidy : Prop where
  wired : ∀ p, s.mem.heap.s p = some p
  live : ∀ p, (s.mem.conn p).closed = false
  counted : ∀ p, (s.mem.conn p).sent = (s.log p).length
  quiet : ∀ p, s.mem.heap.smu p = none → Quiet s p

/-- `i` holds no lock. -/
def Free : Prop := ∀ p, s.mem.heap.smu p ≠ some i

/-- `i` holds the lock of `p` and no other. -/
def Holding : Prop := ∀ q, s.mem.heap.smu q = some i ↔ q = p

/-- The locks of `i` stay its own, and with them what it knows of their connections. -/
def Undisturbed (s' : Shared ι) : Prop :=
  ∀ p, (s.mem.heap.smu p = some i ↔ s'.mem.heap.smu p = some i) ∧
    (s.mem.heap.smu p = some i → (Quiet s p → Quiet s' p) ∧
      ∀ cmd, Awaiting reply s p cmd → Awaiting reply s' p cmd)

/-- What `SendRawCmd` does not do, if no operation fails. -/
def Unfit (op : SharedOp) : Prop :=
  match op with
  | .service _ => False
  | .socket (.lock (.smu _)) | .socket (.sock _) => False
  | .socket (.unlock (.smu p)) => ¬ (s.mem.heap.smu p = some i ∧ Quiet s p)
  | .socket (.send (some c) _) | .socket (.recv c) => s.mem.heap.smu c ≠ some i
  | _ => True

end

section
variable {ι : Type} {reply : Socket.Conn → GoString → GoString} {i j : ι} {s s' : Shared ι}

theorem Undisturbed.of_frame
    (locks : ∀ p, s.mem.heap.smu p = some j ↔ s'.mem.heap.smu p = some j)
    (same : ∀ p, s.mem.heap.smu p = some j →
      s'.mem.conn p = s.mem.conn p ∧ s'.log p = s.log p) :
    Undisturbed reply j s s' := by
  refine fun p => ⟨locks p, fun mine => ?_⟩
  obtain ⟨conn, log⟩ := same p mine
  simp only [Quiet, Awaiting, conn, log]
  exact ⟨id, fun _ => id⟩

theorem Undisturbed.trans {s'' : Shared ι} (first : Undisturbed reply i s s')
    (second : Undisturbed reply i s' s'') : Undisturbed reply i s s'' := by
  intro p
  obtain ⟨locks, known⟩ := first p
  obtain ⟨locks', known'⟩ := second p
  refine ⟨locks.trans locks', fun mine => ?_⟩
  obtain ⟨quiet, awaiting⟩ := known mine
  obtain ⟨quiet', awaiting'⟩ := known' (locks.mp mine)
  exact ⟨fun h => quiet' (quiet h), fun cmd h => awaiting' cmd (awaiting cmd h)⟩

/-- What a move of a peer does -/
private theorem peer_cases {c : Socket.Conn} {n : Nat} (moved : s.peer reply c n = some s') :
    ∃ id cmd, (s.mem.conn c).outstanding[n]? = some id ∧ (s.log c)[id]? = some cmd ∧
      s' = { s with mem := s.mem.setConn c { s.mem.conn c with
        outstanding := (s.mem.conn c).outstanding.eraseIdx n
        queue := (s.mem.conn c).queue ++ [⟨reply c cmd, some id⟩] } } := by
  simp only [Shared.peer, Option.bind_eq_bind, Option.bind_eq_some_iff, Option.pure_def,
    Option.some.injEq] at moved
  obtain ⟨id, sent, cmd, logged, mem, answered, rfl⟩ := moved
  refine ⟨id, cmd, sent, logged, ?_⟩
  simp only [Socket.State.peer, sent] at answered
  split at answered
  · cases answered
  · cases answered
    rfl

/-- The step lemma for the peers -/
theorem Tidy.peer {c : Socket.Conn} {n : Nat} (tidy : Tidy s)
    (moved : s.peer reply c n = some s') : Tidy s' ∧ ∀ i, Undisturbed reply i s s' := by
  obtain ⟨id, cmd, sent, logged, rfl⟩ := peer_cases moved
  have busy : (s.mem.conn c).outstanding ≠ [] := fun empty => by simp [empty] at sent
  constructor
  · constructor
    · exact tidy.wired
    · intro p
      by_cases same : p = c
      · subst same
        simpa [Socket.State.setConn] using tidy.live p
      · simpa [Socket.State.setConn, Function.update_of_ne same] using tidy.live p
    · intro p
      by_cases same : p = c
      · subst same
        simpa [Socket.State.setConn] using tidy.counted p
      · simpa [Socket.State.setConn, Function.update_of_ne same] using tidy.counted p
    · intro p free
      by_cases same : p = c
      · subst same
        exact absurd (tidy.quiet p free).1 busy
      · simpa [Quiet, Socket.State.setConn, Function.update_of_ne same] using tidy.quiet p free
  · refine fun i p => ⟨Iff.rfl, fun mine => ?_⟩
    by_cases same : p = c
    · subst same
      -- Only a connection with a command under way can be answered.
      refine ⟨fun quiet => absurd quiet.1 busy, fun cmd' awaiting => ?_⟩
      obtain ⟨id', one, logged', empty⟩ | ⟨answered, _⟩ := awaiting
      -- The one command is answered.
      · rw [one, List.getElem?_singleton] at sent
        obtain ⟨rfl, rfl⟩ : n = 0 ∧ id' = id := by simpa using sent
        rw [logged'] at logged
        cases logged
        exact .inr ⟨by simp [Socket.State.setConn, one], some id',
          by simp [Socket.State.setConn, empty]⟩
      · exact absurd answered busy
    · simp only [Quiet, Awaiting, Socket.State.setConn, Function.update_of_ne same]
      exact ⟨fun h => h, fun _ h => h⟩

variable [DecidableEq ι] {provider : Provider}

/-- What an operation that is not unfit does: nothing to the memory, or one of the five steps
of an exchange. -/
inductive Step (provider : Provider) (i : ι) (s : Shared ι) :
    (op : SharedOp) → SharedAns op → Shared ι → Prop where
  | service {op : Op} {a : Ans op} (answer : provider.answer op = some a) :
      Step provider i s (.service op) a s
  | lock (p : Socket.Ptr) (free : s.mem.heap.smu p = none) :
      Step provider i s (.socket (.lock (.smu p))) () ⟨s.mem.setHolder (.smu p) (some i), s.log⟩
  | unlock (p : Socket.Ptr) (mine : s.mem.heap.smu p = some i) (quiet : Quiet s p) :
      Step provider i s (.socket (.unlock (.smu p))) () ⟨s.mem.setHolder (.smu p) none, s.log⟩
  | sock (p : Socket.Ptr) : Step provider i s (.socket (.sock p)) (s.mem.heap.s p) s
  | send (c : Socket.Conn) (cmd : GoString) (mine : s.mem.heap.smu c = some i) :
      Step provider i s (.socket (.send (some c) cmd)) (.ok (s.mem.conn c).sent)
        ⟨s.mem.setConn c { s.mem.conn c with
            sent := (s.mem.conn c).sent + 1
            outstanding := (s.mem.conn c).outstanding ++ [(s.mem.conn c).sent] },
          Function.update s.log c (s.log c ++ [cmd])⟩
  | recv (c : Socket.Conn) (d : Socket.Datagram) (rest : List Socket.Datagram)
      (mine : s.mem.heap.smu c = some i)
      (received : (s.mem.conn c).queue.dropWhile Socket.Datagram.isMessage = d :: rest) :
      Step provider i s (.socket (.recv c)) (.reply { d with text := d.text.take 4096 })
        ⟨s.mem.setConn c { s.mem.conn c with
            queue := rest
            replied := (s.mem.conn c).replied + 1 }, s.log⟩

theorem step_of_exec {op : SharedOp} {a : SharedAns op} (fit : ¬ Unfit i s op)
    (done : s.exec provider i op = some (a, s')) : Step provider i s op a s' := by
  cases op with
  | service op =>
    simp only [Shared.exec, Option.map_eq_some_iff] at done
    obtain ⟨x, answer, ⟨⟩⟩ := done
    exact .service answer
  | socket op =>
    simp only [Shared.exec, Option.map_eq_some_iff] at done
    obtain ⟨⟨x, mem⟩, stepped, ⟨⟩⟩ := done
    cases op with
    | lock l =>
      cases l with
      | smu p =>
        simp only [Socket.State.exec] at stepped
        split at stepped
        next free =>
          cases stepped
          exact .lock p free
        · cases stepped
      | mu | fmu _ => exact absurd trivial fit
    | unlock l =>
      cases l with
      | smu p =>
        obtain ⟨mine, quiet⟩ := not_not.mp fit
        cases stepped
        exact .unlock p mine quiet
      | mu | fmu _ => exact absurd trivial fit
    | sock p =>
      cases stepped
      exact .sock p
    | send c cmd =>
      cases c with
      | none => exact absurd trivial fit
      | some c =>
        simp only [Socket.State.exec] at stepped
        split at stepped
        · cases stepped
        · cases stepped
          exact .send c cmd (not_not.mp fit)
    | recv c =>
      simp only [Socket.State.exec, Socket.State.recv] at stepped
      split at stepped
      next d rest received =>
        cases stepped
        exact .recv c d rest (not_not.mp fit) received
      · cases stepped
    | _ => exact absurd trivial fit

omit [DecidableEq ι] in
private theorem Tidy.setConn {c : Socket.Conn} {k : Socket.Connection ι} {l : List GoString}
    (tidy : Tidy s) (held : s.mem.heap.smu c ≠ none) (live : k.closed = false)
    (counted : k.sent = l.length) : Tidy ⟨s.mem.setConn c k, Function.update s.log c l⟩ := by
  refine ⟨tidy.wired, fun q => ?_, fun q => ?_, fun q free => ?_⟩
  all_goals by_cases same : q = c
  · subst same
    simpa [Socket.State.setConn] using live
  · simpa [Socket.State.setConn, Function.update_of_ne same] using tidy.live q
  · subst same
    simpa [Socket.State.setConn] using counted
  · simpa [Socket.State.setConn, Function.update_of_ne same] using tidy.counted q
  · subst same
    exact absurd free held
  · simpa [Quiet, Socket.State.setConn, Function.update_of_ne same] using tidy.quiet q free

namespace Step
variable {op : SharedOp} {a : SharedAns op}

omit [DecidableEq ι] in
/-- The step lemma for the callers -/
theorem tidy (step : Step provider i s op a s') (tidy : Tidy s) : Tidy s' := by
  cases step with
  | service answer => exact tidy
  | sock p => exact tidy
  | lock p free =>
    refine ⟨tidy.wired, tidy.live, tidy.counted, fun q free' => tidy.quiet q ?_⟩
    by_cases same : q = p
    · subst same
      simp [Socket.State.setHolder] at free'
    · simpa [Socket.State.setHolder, Function.update_of_ne same] using free'
  | unlock p mine quiet =>
    refine ⟨tidy.wired, tidy.live, tidy.counted, fun q free' => ?_⟩
    by_cases same : q = p
    · subst same
      exact quiet
    · exact tidy.quiet q (by simpa [Socket.State.setHolder, Function.update_of_ne same] using free')
  | send c cmd mine =>
    exact tidy.setConn (by simp [mine]) (tidy.live c) (by simp [tidy.counted c])
  | recv c d rest mine received =>
    -- The log is as before.
    have kept := tidy.setConn
      (k := { s.mem.conn c with queue := rest, replied := (s.mem.conn c).replied + 1 })
      (c := c) (l := s.log c) (by simp [mine]) (tidy.live c) (tidy.counted c)
    rwa [Function.update_eq_self] at kept

omit [DecidableEq ι] in
/-- No other caller is disturbed: its connections are not those of the step. -/
theorem undisturbed (step : Step provider i s op a s') (ne : j ≠ i) :
    Undisturbed reply j s s' := by
  cases step with
  | service answer => exact .of_frame (fun _ => Iff.rfl) fun _ _ => ⟨rfl, rfl⟩
  | sock p => exact .of_frame (fun _ => Iff.rfl) fun _ _ => ⟨rfl, rfl⟩
  | lock p free =>
    refine .of_frame (fun q => ?_) fun _ _ => ⟨rfl, rfl⟩
    by_cases same : q = p
    · subst same
      simp [Socket.State.setHolder, free, Ne.symm ne]
    · simp [Socket.State.setHolder, Function.update_of_ne same]
  | unlock p mine quiet =>
    refine .of_frame (fun q => ?_) fun _ _ => ⟨rfl, rfl⟩
    by_cases same : q = p
    · subst same
      simp [Socket.State.setHolder, mine, Ne.symm ne]
    · simp [Socket.State.setHolder, Function.update_of_ne same]
  | send c cmd mine =>
    refine .of_frame (fun _ => Iff.rfl) fun q theirs => ?_
    have other : q ≠ c := fun same =>
      ne (Option.some.inj (theirs.symm.trans (same ▸ mine)))
    exact ⟨Function.update_of_ne other _ _, Function.update_of_ne other _ _⟩
  | recv c d rest mine received =>
    refine .of_frame (fun _ => Iff.rfl) fun q theirs => ?_
    have other : q ≠ c := fun same =>
      ne (Option.some.inj (theirs.symm.trans (same ▸ mine)))
    exact ⟨Function.update_of_ne other _ _, rfl⟩

end Step

end

/-! ### An exchange among others -/

/-- What each call of the service is answered. A reply that starts like an unsolicited message
is not received. -/
def world (provider : Provider) (reply : Socket.Conn → GoString → GoString) (op : Op) :
    Option (Ans op) :=
  match op with
  | .sendRawCmd sock cmd =>
    if Socket.Datagram.isMessage ⟨reply sock cmd, none⟩ then none
    else some (.ok ((reply sock cmd).take 4096))
  | op => provider.answer op

def sharedLogic (ι : Type) [DecidableEq ι] (fuel : Nat) (provider : Provider)
    (reply : Socket.Conn → GoString → GoString) :
    Logic ι SharedOp SharedAns (Shared ι) (Socket.Conn × Nat) Request
      (Except GoError Response) where
  sys := sharing ι fuel provider reply
  cond := ⟨fun _ _ _ => True, fun _ _ _ _ => True⟩
  inv := Tidy
  rely := Undisturbed reply
  bad i op s := Unfit i s op
  rely_refl _ _ _ := ⟨Iff.rfl, fun _ => ⟨id, fun _ => id⟩⟩
  rely_trans _ _ _ _ := .trans
  guarantee _ _ _ _ _ _ _ fit done _ ne := (step_of_exec fit done).undisturbed ne

section
variable {ι : Type} [DecidableEq ι] {fuel : Nat} {provider : Provider}
  {reply : Socket.Conn → GoString → GoString} {i : ι} {α : Type}

private theorem free_stable : (sharedLogic ι fuel provider reply).Stable i (Free i) :=
  fun _ _ _ _ rely free p mine => free p ((rely p).1.mpr mine)

private theorem quiet_stable (p : Socket.Ptr) :
    (sharedLogic ι fuel provider reply).Stable i fun s => Holding i s p ∧ Quiet s p := by
  rintro s s' _ _ rely ⟨holding, quiet⟩
  refine ⟨fun q => (rely q).1.symm.trans (holding q), ?_⟩
  exact ((rely p).2 ((holding p).mpr rfl)).1 quiet

private theorem awaiting_stable (p : Socket.Ptr) (cmd : GoString) :
    (sharedLogic ι fuel provider reply).Stable i fun s =>
      Holding i s p ∧ Awaiting reply s p cmd := by
  rintro s s' _ _ rely ⟨holding, awaiting⟩
  refine ⟨fun q => (rely q).1.symm.trans (holding q), ?_⟩
  exact ((rely p).2 ((holding p).mpr rfl)).2 cmd awaiting

private theorem triple_step {op : SharedOp} {P : Shared ι → Prop}
    {Q : SharedAns op → Shared ι → Prop} (fit : ∀ s, P s → ¬ Unfit i s op)
    (effect : ∀ s a s', Tidy s → P s → Step provider i s op a s' → Q a s')
    (stable : ∀ a, (sharedLogic ι fuel provider reply).Stable i (Q a)) :
    (sharedLogic ι fuel provider reply).Triple i P (Prog.perform op) Q := by
  refine .perform (fun s _ pre => fit s pre) (fun s _ a s' tidy pre _ done => ?_) stable
  have step := step_of_exec (fit s pre) done
  exact ⟨step.tidy tidy, effect s a s' tidy pre step⟩

/-- The first operation of a program below -/
private theorem triple_lift {op : Socket.Op} {f : Socket.Ans op → Socket.Act α}
    {P : Shared ι → Prop} {R : Socket.Ans op → Shared ι → Prop} {Q : α → Shared ι → Prop}
    (first : (sharedLogic ι fuel provider reply).Triple i P
      (Prog.perform (SharedOp.socket op) : SharedAct _) R)
    (second : ∀ x, (sharedLogic ι fuel provider reply).Triple i (R x) (lift (f x)) Q) :
    (sharedLogic ι fuel provider reply).Triple i P (lift (Socket.act op >>= f)) Q :=
  first.bind second

private theorem send_triple (p : Socket.Ptr) (cmd : GoString) :
    (sharedLogic ι fuel provider reply).Triple i (fun s => Holding i s p ∧ Quiet s p)
      (Prog.perform (SharedOp.socket (.send (some p) cmd)) : SharedAct _)
      fun (r : Except Errno Socket.CmdId) s =>
        (Holding i s p ∧ Awaiting reply s p cmd) ∧ ∃ id, r = .ok id := by
  refine triple_step (fun s pre unfit => unfit ((pre.1 p).mpr rfl)) ?_
    fun _ => (awaiting_stable p cmd).and (.const _)
  rintro s a s' tidy ⟨holding, answered, received⟩ step
  cases step with
  | send _ _ mine =>
    refine ⟨⟨holding, .inl ⟨(s.mem.conn p).sent, ?_, ?_, ?_⟩⟩, _, rfl⟩
    · simp [Socket.State.setConn, answered]
    · simp [tidy.counted p]
    · simpa [Socket.State.setConn] using received

private theorem recv_triple (p : Socket.Ptr) (cmd : GoString) :
    (sharedLogic ι fuel provider reply).Triple i (fun s => Holding i s p ∧ Awaiting reply s p cmd)
      (Prog.perform (SharedOp.socket (.recv p)) : SharedAct _)
      fun (r : Socket.Received) s => (Holding i s p ∧ Quiet s p) ∧ ∃ d, r = .reply d ∧
        d.text = (reply p cmd).take 4096 ∧
          Socket.Datagram.isMessage ⟨reply p cmd, none⟩ = false := by
  refine triple_step (fun s pre unfit => unfit ((pre.1 p).mpr rfl)) ?_
    fun _ => (quiet_stable p).and (.const _)
  rintro s a s' tidy ⟨holding, awaiting⟩ step
  cases step with
  | recv _ d rest mine received =>
    obtain ⟨_, _, _, empty⟩ | ⟨answered, origin, one⟩ := awaiting
    -- Nothing is received before the answer.
    · simp [empty] at received
    · rw [one, List.dropWhile_cons] at received
      split at received
      · cases received
      next own =>
        obtain ⟨rfl, rfl⟩ := List.cons.inj received
        refine ⟨⟨holding, ?_, ?_⟩, _, rfl, rfl, by simpa [Socket.Datagram.isMessage] using own⟩
        · simpa [Socket.State.setConn] using answered
        · simp [Socket.State.setConn]

/-- What a request on the connection of `p` returns among other callers -/
private theorem request_triple (p : Socket.Ptr) (cmd : GoString) :
    (sharedLogic ι fuel provider reply).Triple i (fun s => Holding i s p ∧ Quiet s p)
      (lift (Socket.WpaCtrl.request (some p) cmd)) fun r s => (Holding i s p ∧ Quiet s p) ∧
        r.1 = 0 ∧ r.2.2.text = (reply p cmd).take 4096 ∧
          Socket.Datagram.isMessage ⟨reply p cmd, none⟩ = false := by
  unfold Socket.WpaCtrl.request
  refine triple_lift (send_triple p cmd) fun r => .assume (fun _ _ pre => pre.2) ?_
  rintro ⟨id, rfl⟩
  refine triple_lift ((recv_triple p cmd).weaken (fun _ _ pre => pre.1) fun _ _ _ post => post)
    fun r => .assume (fun _ _ pre => pre.2) ?_
  rintro ⟨d, rfl, text, own⟩
  exact .ret _ fun s _ pre => ⟨pre.1, rfl, text, own⟩

/-- What the peer sends fits into the buffer once it is cut. -/
theorem fits_of_take {r : Socket.Reply} {text : GoString} (cut : r.text = text.take 4096) :
    ¬ r.text.length > Socket.State.bufSize := by
  rw [cut, List.length_take]
  exact Nat.not_lt.mpr (Nat.min_le_left _ _)

private theorem wpaCtrl_triple (p : Socket.Ptr) (cmd : GoString) :
    (sharedLogic ι fuel provider reply).Triple i (fun s => Holding i s p ∧ Quiet s p)
      (lift (Socket.WpaCtrl.sendRawCmd (some p) cmd)) fun out s => (Holding i s p ∧ Quiet s p) ∧
        ∃ r, out = .ok r ∧ r.text = (reply p cmd).take 4096 ∧
          Socket.Datagram.isMessage ⟨reply p cmd, none⟩ = false := by
  unfold Socket.WpaCtrl.sendRawCmd lift
  rw [Prog.interpret_bind]
  refine (request_triple p cmd).bind fun answer => .assume (fun _ _ pre => pre.2) ?_
  rintro ⟨done, text, own⟩
  obtain ⟨ret, errno, r⟩ := answer
  simp only at done text
  simp only [done, ne_eq, not_true_eq_false, if_false, fits_of_take text]
  exact .ret _ fun s _ pre => ⟨pre.1, r, rfl, text, own⟩

/-- Whatever the others do, `SendRawCmd` returns the reply to its own command. -/
private theorem sendRawCmd_triple (p : Socket.Ptr) (cmd : GoString) :
    (sharedLogic ι fuel provider reply).Triple i (Free i)
      (lift (Socket.SharedSocket.sendRawCmd p cmd)) fun out s => Free i s ∧
        ∃ r, out = .ok r ∧ r.text = (reply p cmd).take 4096 ∧
          Socket.Datagram.isMessage ⟨reply p cmd, none⟩ = false := by
  have lock : (sharedLogic ι fuel provider reply).Triple i (Free i)
      (Prog.perform (SharedOp.socket (.lock (.smu p))) : SharedAct _)
      fun _ s => Holding i s p ∧ Quiet s p := by
    refine triple_step (fun _ _ unfit => unfit) ?_ fun _ => quiet_stable p
    intro s a s' tidy free step
    cases step with
    | lock _ unlocked =>
      refine ⟨fun q => ?_, tidy.quiet p unlocked⟩
      by_cases same : q = p
      · subst same
        simp [Socket.State.setHolder]
      · simpa [Socket.State.setHolder, Function.update_of_ne same, same] using free q
  have sock : (sharedLogic ι fuel provider reply).Triple i (fun s => Holding i s p ∧ Quiet s p)
      (Prog.perform (SharedOp.socket (.sock p)) : SharedAct _)
      fun (c : Option Socket.Conn) s => (Holding i s p ∧ Quiet s p) ∧ c = some p := by
    refine triple_step (fun _ _ unfit => unfit) ?_ fun _ => (quiet_stable p).and (.const _)
    intro s a s' tidy pre step
    cases step with
    | sock => exact ⟨pre, tidy.wired p⟩
  have unlock : (sharedLogic ι fuel provider reply).Triple i (fun s => Holding i s p ∧ Quiet s p)
      (Prog.perform (SharedOp.socket (.unlock (.smu p))) : SharedAct _) fun _ => Free i := by
    refine triple_step (fun s pre unfit => unfit ⟨(pre.1 p).mpr rfl, pre.2⟩) ?_
      fun _ => free_stable
    intro s a s' tidy pre step
    cases step with
    | unlock _ mine quiet =>
      intro q
      by_cases same : q = p
      · subst same
        simp [Socket.State.setHolder]
      · simpa [Socket.State.setHolder, Function.update_of_ne same, same] using pre.1 q
  unfold Socket.SharedSocket.sendRawCmd
  refine triple_lift lock fun _ => triple_lift sock fun c => .assume (fun _ _ pre => pre.2) ?_
  rintro rfl
  unfold lift
  rw [Prog.interpret_bind]
  refine Logic.Triple.bind ((wpaCtrl_triple p cmd).weaken (fun _ _ pre => pre.1)
    fun _ _ _ post => post) fun out => .assume (fun _ _ pre => pre.2) ?_
  rintro ⟨r, rfl, text, own⟩
  refine triple_lift (unlock.weaken (fun _ _ pre => pre.1) fun _ _ _ post => post) fun _ => ?_
  exact .ret _ fun s _ free => ⟨free, r, rfl, text, own⟩

private theorem lower_triple (op : Op) :
    (sharedLogic ι fuel provider reply).Triple i (Free i) (lower op) fun x s =>
      Free i s ∧ world provider reply op = some x := by
  have service : ∀ op : Op, world provider reply op = provider.answer op →
      (sharedLogic ι fuel provider reply).Triple i (Free i)
        (Prog.perform (SharedOp.service op) : SharedAct _) fun (x : Ans op) s =>
          Free i s ∧ world provider reply op = some x := by
    intro op same
    refine triple_step (fun _ _ unfit => unfit) ?_ fun _ => free_stable.and (.const _)
    intro s a s' tidy free step
    cases step with
    | service answer => exact ⟨free, same.trans answer⟩
  cases op with
  | sendRawCmd sock cmd =>
    refine .map _ ((sendRawCmd_triple sock cmd).weaken (fun _ _ pre => pre) ?_)
    rintro out s _ ⟨free, r, rfl, text, own⟩
    refine ⟨free, ?_⟩
    simp only [world, own, Except.map, text]
    rfl
  | _ => exact service _ rfl

/-- The proof about any number of requests -/
def sharedProof (ι : Type) [DecidableEq ι] (fuel : Nat) (provider : Provider)
    (reply : Socket.Conn → GoString → GoString) :
    Proof ι SharedOp SharedAns (Shared ι) (Socket.Conn × Nat) Request
      (Except GoError Response) where
  toLogic := sharedLogic ι fuel provider reply
  idle i := Free i
  pre i _ := Free i
  post i req res s := Free i s ∧ (serve fuel req).outcome (world provider reply) = some res
  idle_stable _ := free_stable
  pre_stable _ _ := free_stable
  start_ok i call s s' tidy free _ started := by
    cases started
    exact ⟨tidy, free, fun _ _ => (sharedLogic ι fuel provider reply).rely_refl _ _⟩
  body_ok i req := Logic.Triple.interpret lower_triple (serve fuel req)
  finish_ok i req res s tidy post :=
    ⟨tidy, post.1, fun _ _ => (sharedLogic ι fuel provider reply).rely_refl _ _⟩
  env_ok _ _ _ tidy moved := tidy.peer moved

end

end HostapdGrpc.Server
