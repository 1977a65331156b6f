import HostapdGrpc.Socket.Process
import HostapdGrpc.Socket.WpaCtrlRequest

/-!
# The package in system calls

The calls of the package with every system call below them as a step of its own: those of
`Open` and `Close`, and those of `wpa_ctrl_request`. Other goroutines and the peers go on
between any two of them.
-/

namespace HostapdGrpc.Socket

open Go Interaction

/-! ### Operations -/

/-- An operation of the process, or a call that `wpa_ctrl_request` makes on the connection `c` -/
inductive FullOp where
  | proc (op : ProcOp)
  | io (c : Conn) (op : IoOp)

abbrev FullAns : FullOp → Type
  | .proc op => ProcAns op
  | .io _ op => IoAns op

abbrev FullAct (α : Type) := Prog FullOp FullAns α

def full (op : FullOp) : FullAct (FullAns op) := Prog.perform op

def mem (op : Op) : FullAct (Ans op) := full (.proc (.mem op))

/-- An operation of the manager, with the system calls of an `Open` and a `Close` -/
def inProcess (op : Op) : FullAct (Ans op) := (carryOut op).interpret fun op => full (.proc op)

/-- A panic, or an access to `NULL`; either ends the process. -/
def crash {α : Type} : FullAct α := Prog.call (.proc (.mem .panic)) Empty.elim

/-! ### `SendRawCmd` -/

/-- `wpaCtrl.SendRawCmd`; a method of a nil `Socket` panics, and `wpa_ctrl_request` reads the
descriptor of its `struct wpa_ctrl`. -/
def WpaCtrl.fullSendRawCmd (fuel : Nat) (c : Option Conn) (req : GoString) :
    FullAct (Except GoError Reply) := do
  match c with
  | none => crash
  | some c =>
    match ← full (.proc (.ctrl c)) with
    | none => crash
    | some _ =>
      let (ret, err, reply) ← (callRequest fuel req).interpret fun op => full (.io c op)
      if ret ≠ 0 then
        pure (.error (.request ⟨cgoError err, ret⟩))
      else if reply.text.length > State.bufSize then
        crash
      else
        pure (.ok reply)

/-- `sharedSocket.SendRawCmd` -/
def SharedSocket.fullSendRawCmd (fuel : Nat) (sh : Ptr) (cmd : GoString) :
    FullAct (Except GoError Reply) := do
  mem (.lock (.smu sh))
  let s ← mem (.sock sh)
  match ← WpaCtrl.fullSendRawCmd fuel s cmd with
  | .ok reply =>
    mem (.unlock (.smu sh))
    pure (.ok reply)
  | .error err =>
    if isSocketDead err then
      match ← (reconnect sh).interpret inProcess with
      | some err =>
        mem (.unlock (.smu sh))
        pure (.error err)
      | none =>
        let s ← mem (.sock sh)
        let res ← WpaCtrl.fullSendRawCmd fuel s cmd
        mem (.unlock (.smu sh))
        pure res
    else
      mem (.unlock (.smu sh))
      pure (.error err)

/-- The program of a call -/
def fullBody (m : Manager) (fuel : Nat) : Call → FullAct Res
  | .get name => (body m (.get name)).interpret inProcess
  | .sendRawCmd sh cmd => Res.sendRawCmd <$> SharedSocket.fullSendRawCmd fuel sh cmd
  | .close sh => (body m (.close sh)).interpret inProcess

/-! ### A request that gets a reply -/

/-- The calls `w` of a request, on the connection `c` -/
def onConn (c : Conn) (w : List (Sigma IoAns)) : List (Sigma FullAns) :=
  w.map fun e => ⟨.io c e.1, e.2⟩

/-- In the calls `w`, `cmd` was sent once, with the number that `reply` has for it, and what came
in is messages and then what `reply` says. -/
structure Responded (cmd : GoString) (reply : Reply) (w : List (Sigma IoAns)) : Prop where
  sent : numbered w = [(cmd, reply.command)]
  arrived : ∃ msgs : List Datagram, (∀ m ∈ msgs, m.isMessage = true) ∧
    received w = msgs ++ [⟨reply.text, reply.origin⟩]

/-- At the end of `t`, `cmd` was sent and answered with `reply` on one connection, and `smu` was
unlocked. -/
def FullyExchanged (p : Ptr) (cmd : GoString) (reply : Reply) (t : List (Sigma FullAns)) : Prop :=
  ∃ u c w, t = u ++ onConn c w ++ [⟨.proc (.mem (.unlock (.smu p))), ()⟩] ∧ Responded cmd reply w

section
variable {fuel : Nat} {p : Ptr} {cmd : GoString} {reply : Reply} {t : List (Sigma FullAns)}

theorem FullyExchanged.after (exchanged : FullyExchanged p cmd reply t)
    (u : List (Sigma FullAns)) : FullyExchanged p cmd reply (u ++ t) := by
  obtain ⟨v, c, w, rfl, responded⟩ := exchanged
  exact ⟨u ++ v, c, w, by simp only [List.append_assoc], responded⟩

private theorem carried_onConn {c : Conn} {w : List (Sigma IoAns)}
    (carried : Prog.Carried (fun op => full (.io c op)) w t) : t = onConn c w := by
  induction carried with
  | nil => rfl
  | cons first _ ih =>
    rw [(Prog.path_perform _ _ _).mp first, ih]
    rfl

/-- Setting and reading `errno` is neither a `send` nor a `recv`. -/
private theorem callRequest_responded {w : List (Sigma IoAns)} {e : Errno}
    (path : (callRequest fuel cmd).Path w (0, e, reply)) : Responded cmd reply w := by
  obtain ⟨_, _, rfl, clears⟩ := (Prog.path_perform_bind _ _ _ _).mp path
  obtain ⟨v, _, ⟨ret, reply'⟩, rfl, requests, reads⟩ := (Prog.path_bind _ _ _ _).mp clears
  obtain ⟨e', _, rfl, ends⟩ := (Prog.path_perform_bind _ _ _ _).mp reads
  obtain ⟨rfl, same⟩ := (Prog.path_ret _ _ _).mp ends
  cases same
  have silent (calls : false = true) : ∀ d ∈ received v, d.text.length ≤ State.bufSize := by
    cases calls
  obtain ⟨_, _, _, _, failed⟩ | ⟨sent, msgs, waited⟩ := wpaCtrlRequest_waited requests silent
  · exact absurd failed (by decide)
  · obtain ⟨_, d, _, split, same⟩ | ⟨failed, _⟩ := waited.arrived
    · have ends : received (v ++ [⟨.errno, e⟩]) = msgs ++ [d] := by
        rw [received_append, split]
        exact List.append_nil _
      have sends : numbered (v ++ [⟨.errno, e⟩]) = [(cmd, reply.command)] := by
        rw [numbered_append, sent]
        rfl
      refine ⟨sends, msgs, waited.messages, ?_⟩
      rw [same]
      exact ends
    · exact absurd failed (by decide)

private theorem wpaFullSendRawCmd_ok {s : Option Conn}
    (path : (WpaCtrl.fullSendRawCmd fuel s cmd).Path t (.ok reply)) :
    ∃ u c w, t = u ++ onConn c w ∧ Responded cmd reply w := by
  cases s with
  | none =>
    obtain ⟨x, _⟩ := (Prog.path_call _ _ _ _).mp path
    exact x.elim
  | some c =>
    obtain ⟨ctrl, _, rfl, calls⟩ := (Prog.path_perform_bind _ _ _ _).mp path
    cases ctrl with
    | none =>
      obtain ⟨x, _⟩ := (Prog.path_call _ _ _ _).mp calls
      exact x.elim
    | some ctrl =>
      obtain ⟨v, _, ⟨ret, e, reply'⟩, rfl, requests, judged⟩ := (Prog.path_bind _ _ _ _).mp calls
      obtain ⟨w, above, carried⟩ := Prog.path_interpret _ requests
      simp only at judged
      split at judged
      · obtain ⟨_, same⟩ := (Prog.path_ret _ _ _).mp judged
        cases same
      next zero =>
        split at judged
        · obtain ⟨x, _⟩ := (Prog.path_call _ _ _ _).mp judged
          exact x.elim
        · obtain ⟨rfl, same⟩ := (Prog.path_ret _ _ _).mp judged
          cases same
          obtain rfl : ret = 0 := not_not.mp zero
          refine ⟨[⟨.proc (.ctrl c), some ctrl⟩], c, w, ?_, callRequest_responded above⟩
          rw [List.append_nil, carried_onConn carried]
          rfl

theorem fullSendRawCmd_exchanged
    (path : (SharedSocket.fullSendRawCmd fuel p cmd).Path t (.ok reply)) :
    FullyExchanged p cmd reply t := by
  obtain ⟨_, _, rfl, locked⟩ := (Prog.path_perform_bind _ _ _ _).mp path
  obtain ⟨s, _, rfl, reads⟩ := (Prog.path_perform_bind _ _ _ _).mp locked
  obtain ⟨first, _, out, rfl, requested, judged⟩ := (Prog.path_bind _ _ _ _).mp reads
  cases out with
  | ok reply' =>
    obtain ⟨_, _, rfl, ends⟩ := (Prog.path_perform_bind _ _ _ _).mp judged
    obtain ⟨rfl, same⟩ := (Prog.path_ret _ _ _).mp ends
    cases same
    obtain ⟨u, c, w, rfl, responded⟩ := wpaFullSendRawCmd_ok requested
    exact FullyExchanged.after ⟨u, c, w, rfl, responded⟩ [_, _]
  | error err =>
    simp only at judged
    split at judged
    · obtain ⟨again, _, reconnected, rfl, reconnects, goes_on⟩ :=
        (Prog.path_bind _ _ _ _).mp judged
      cases reconnected with
      | some err' =>
        obtain ⟨_, _, rfl, ends⟩ := (Prog.path_perform_bind _ _ _ _).mp goes_on
        obtain ⟨_, same⟩ := (Prog.path_ret _ _ _).mp ends
        cases same
      -- The reply is that to the second request.
      | none =>
        obtain ⟨s', _, rfl, again_on⟩ := (Prog.path_perform_bind _ _ _ _).mp goes_on
        obtain ⟨second, _, out, rfl, requests, returns⟩ := (Prog.path_bind _ _ _ _).mp again_on
        obtain ⟨_, _, rfl, ends⟩ := (Prog.path_perform_bind _ _ _ _).mp returns
        obtain ⟨rfl, rfl⟩ := (Prog.path_ret _ _ _).mp ends
        obtain ⟨u, c, w, rfl, responded⟩ := wpaFullSendRawCmd_ok requests
        have last : FullyExchanged p cmd reply (u ++ onConn c w ++ [_]) := ⟨u, c, w, rfl, responded⟩
        exact (((last.after [_]).after again).after first).after [_, _]
    · obtain ⟨_, _, rfl, ends⟩ := (Prog.path_perform_bind _ _ _ _).mp judged
      obtain ⟨_, same⟩ := (Prog.path_ret _ _ _).mp ends
      cases same

end

/-! ### The process -/

/-- What is outside the program, with the outcomes of the calls of `wpa_ctrl_request` and what
the clock shows -/
inductive FullChoice where
  | proc (ch : ProcChoice)
  | io (ch : Choice)
  | time (t : Option Reltime)

namespace Process

variable {ι : Type} [DecidableEq ι] (s : Process ι)

def setConn (c : Conn) (k : Connection ι) : Process ι := { s with mem := s.mem.setConn c k }

/-- One call that goroutine `i` makes in `wpa_ctrl_request` -/
def ioExec (i : ι) (c : Conn) (op : IoOp) (ch : FullChoice) : Option (IoAns op × Process ι) :=
  let k := s.mem.conn c
  match op with
  | .errno => some (s.errno i, s)
  | .setErrno e => some ((), s.setErrno i e)
  | .send _ =>
    match ch with
    | .io .go => if k.closed then none else some (some k.sent,
        s.setConn c { k with sent := k.sent + 1, outstanding := k.outstanding ++ [k.sent] })
    | .io (.fail e) => if k.closed then none else s.failing i e none
    | _ => none
  | .getReltime =>
    match ch with
    | .time t => some (t, s)
    | _ => none
  | .indeterminate =>
    match ch with
    | .time (some t) => some (t, s)
    | _ => none
  | .sleep => some ((), s)
  -- A descriptor may also be readable because of an error.
  | .select =>
    match ch with
    | .io .go => some (.readable, s)
    | .io .timeout => if k.queue = [] then some (.timeout, s) else none
    | .io (.fail e) => s.failing i e .failed
    | _ => none
  | .recv size =>
    match ch with
    | .io .go =>
      match k.queue with
      | d :: rest => some (some { d with text := d.text.take size }, s.setConn c { k with
          queue := rest
          replied := if d.isMessage then k.replied else k.replied + 1 })
      | [] => none
    | .io (.fail e) => s.failing i e none
    | _ => none
  | .terminate _ | .msgCb _ => some ((), s)
  | .stuck => none

/-- One operation of goroutine `i` -/
def fullExec (pid : Int) (i : ι) (op : FullOp) (ch : FullChoice) :
    Option (FullAns op × Process ι) :=
  match op with
  | .proc op =>
    match ch with
    | .proc ch => s.exec pid i op ch
    | _ => none
  | .io c op => s.ioExec i c op ch

end Process

/-- Any number of callers of one `Manager` in the process `pid`, and the peers of its
connections -/
def daemon (ι : Type) [DecidableEq ι] (m : Manager) (pid : Int) (fuel : Nat) :
    System ι FullOp FullAns (Process ι) FullChoice Call Res where
  exec i op ch s := s.fullExec pid i op ch
  body := fullBody m fuel
  start i call s := (s.mem.start i call).map fun mem => { s with mem := mem }
  finish i call res s := { s with mem := s.mem.finish i call res }
  env ch s :=
    match ch with
    | .proc (.mem ch) => (s.mem.peer ch).map fun mem => { s with mem := mem }
    | _ => none

/-- Nothing opened; `files` are left over from other processes. -/
def booted (ι : Type) (files : GoString → Bool) :
    Config ι FullOp FullAns (Process ι) Call Res :=
  ⟨⟨State.init, fun _ => 0, files, .init⟩, fun _ => .idle⟩

end HostapdGrpc.Socket
