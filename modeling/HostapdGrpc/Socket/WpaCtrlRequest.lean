import HostapdGrpc.Socket.Manager

/-!
# Requests, call by call

`wpa_ctrl_request` as it is built here (UNIX sockets) and the call of it from Go: the `send`
with its retries, then the wait for a reply. What comes in the meantime and begins with `<` is
a message, which goes to the callback if there is one.
-/

namespace HostapdGrpc.Socket

open Go Interaction

/-! ### Times -/

/-- `struct os_reltime` -/
structure Reltime where
  sec : Int
  usec : Int
  deriving DecidableEq

namespace Reltime

/-- `os_reltime_sub` -/
def sub (a b : Reltime) : Reltime :=
  let sec := a.sec - b.sec
  let usec := a.usec - b.usec
  if usec < 0 then ⟨sec - 1, usec + 1000000⟩ else ⟨sec, usec⟩

/-- `os_reltime_expired` -/
def expired (now ts : Reltime) (timeoutSecs : Int) : Bool :=
  let age := now.sub ts
  age.sec > timeoutSecs || age.sec == timeoutSecs && age.usec > 0

/-- The time in microseconds -/
def micros (t : Reltime) : Int := t.sec * 1000000 + t.usec

/-- As `os_get_reltime` gives it -/
structure Normal (t : Reltime) : Prop where
  sec : 0 ≤ t.sec
  usec : 0 ≤ t.usec
  usec_lt : t.usec < 1000000

theorem expired_iff {now ts : Reltime} (normal : now.Normal) (normal' : ts.Normal) (secs : Int) :
    now.expired ts secs = true ↔ secs * 1000000 < now.micros - ts.micros := by
  obtain ⟨_, low, high⟩ := normal
  obtain ⟨_, low', high'⟩ := normal'
  unfold expired sub micros
  dsimp only
  split <;> simp only [gt_iff_lt, Bool.or_eq_true, Bool.and_eq_true, decide_eq_true_eq,
    beq_iff_eq] <;> omega

end Reltime

/-! ### System calls -/

/-- The result of `select` on one descriptor -/
inductive Select where
  | readable
  | timeout
  | failed

inductive IoOp where
  /-- `errno`, and its value set -/
  | errno
  | setErrno (e : Errno)
  | send (cmd : GoString)
  /-- `os_get_reltime`, and what a variable of its type holds before it is set -/
  | getReltime
  | indeterminate
  /-- `os_sleep(1, 0)` -/
  | sleep
  | select
  /-- `recv` into `size` bytes -/
  | recv (size : Nat)
  /-- `reply[n] = '\0'` -/
  | terminate (n : Nat)
  /-- `msg_cb(reply, len)` -/
  | msgCb (msg : GoString)
  /-- The rounds allowed to a loop are used up. -/
  | stuck

/-- `none` is a failure. What is sent and received is numbered as in the state of the manager. -/
abbrev IoAns : IoOp → Type
  | .errno => Errno
  | .send _ => Option CmdId
  | .getReltime => Option Reltime
  | .indeterminate => Reltime
  | .select => Select
  | .recv _ => Option Datagram
  | .stuck => Empty
  | .setErrno _ | .sleep | .terminate _ | .msgCb _ => Unit

abbrev IoAct (α : Type) := Prog IoOp IoAns α

def io (op : IoOp) : IoAct (IoAns op) := Prog.perform op

/-! ### `wpa_ctrl_request` -/

/-- `EBUSY` -/
def ebusy : Errno := 16

/-- `EAGAIN`, which is also `EWOULDBLOCK`, and `EBUSY` -/
def transient (e : Errno) : Bool := e == Errno.eagain || e == ebusy

/-- `struct os_reltime n; os_get_reltime(&n);` -/
def readReltime : IoAct Reltime := do
  match ← io .getReltime with
  | some n => pure n
  | none => io .indeterminate

/-- From `retry_send` to the end of the error branch of `send`; `fuel` bounds the rounds. -/
def retrySend (cmd : GoString) (fuel : Nat) (startedAt : Reltime) : IoAct (Option CmdId) :=
  match fuel with
  | 0 => Prog.call .stuck Empty.elim
  | fuel + 1 => do
    match ← io (.send cmd) with
    | some id => pure (some id)
    | none =>
      let errno ← io .errno
      if transient errno then
        if startedAt.sec = 0 then
          -- A clock that cannot be read leaves the variable as it is.
          let now ← io .getReltime
          io .sleep
          retrySend cmd fuel (now.getD startedAt)
        else
          let n ← readReltime
          if n.expired startedAt 5 then
            pure none
          else
            io .sleep
            retrySend cmd fuel startedAt
      else
        pure none

/-- The loop that waits for the reply to the command `id`; `fuel` bounds the rounds. -/
def waitReply (id : CmdId) (replyLen : Nat) (msgCb : Bool) (fuel : Nat) : IoAct (Int × Reply) :=
  match fuel with
  | 0 => Prog.call .stuck Empty.elim
  | fuel + 1 => do
    match ← io .select with
    | .failed =>
      let errno ← io .errno
      if errno = Errno.eintr then
        waitReply id replyLen msgCb fuel
      else
        pure (-1, ⟨[], id, none⟩)
    | .timeout => pure (-2, ⟨[], id, none⟩)
    | .readable =>
      match ← io (.recv replyLen) with
      | none => pure (-1, ⟨[], id, none⟩)
      | some d =>
        if d.isMessage then
          if msgCb then
            -- The end of a message that fills the buffer makes room for the `\0`.
            let res := if d.text.length = replyLen then replyLen - 1 else d.text.length
            io (.terminate res)
            io (.msgCb (d.text.take res))
            waitReply id replyLen msgCb fuel
          else
            waitReply id replyLen msgCb fuel
        else
          pure (0, ⟨d.text, id, d.origin⟩)

def wpaCtrlRequest (fuel : Nat) (cmd : GoString) (replyLen : Nat) (msgCb : Bool) :
    IoAct (Int × Reply) := do
  io (.setErrno 0)
  match ← retrySend cmd fuel ⟨0, 0⟩ with
  | none => pure (-1, ⟨[], 0, none⟩)
  | some id => waitReply id replyLen msgCb fuel

/-- The two-result call of `wpa_ctrl_request` from Go, without a callback -/
def callRequest (fuel : Nat) (cmd : GoString) : IoAct (Int × Errno × Reply) := do
  io (.setErrno 0)
  let (ret, reply) ← wpaCtrlRequest fuel cmd State.bufSize false
  let errno ← io .errno
  pure (ret, errno, reply)

/-! ### What a request has sent and received -/

/-- The texts of the commands sent, with their numbers -/
def numbered (t : List (Sigma IoAns)) : List (GoString × CmdId) :=
  t.filterMap fun e =>
    match e with
    | ⟨.send cmd, answer⟩ => answer.map fun id => (cmd, id)
    | _ => none

/-- The datagrams received -/
def received (t : List (Sigma IoAns)) : List Datagram :=
  t.filterMap fun e =>
    match e with
    | ⟨.recv _, answer⟩ => answer
    | _ => none

/-- What the callback was given -/
def callbacks (t : List (Sigma IoAns)) : List GoString :=
  t.filterMap fun e =>
    match e with
    | ⟨.msgCb msg, _⟩ => some msg
    | _ => none

/-- The bytes of the reply buffer that were set to `\0` -/
def terminated (t : List (Sigma IoAns)) : List Nat :=
  t.filterMap fun e =>
    match e with
    | ⟨.terminate n, _⟩ => some n
    | _ => none

/-- What has come in of a wait with the calls `t`: messages, which all went to the callback, and
then the reply that is returned, or none. -/
structure Waited (id : CmdId) (replyLen : Nat) (msgCb : Bool) (t : List (Sigma IoAns))
    (ret : Int) (reply : Reply) (msgs : List Datagram) : Prop where
  messages : ∀ m ∈ msgs, m.isMessage = true
  called : callbacks t = if msgCb then msgs.map fun m => m.text.take (replyLen - 1) else []
  written : ∀ n ∈ terminated t, n < replyLen
  arrived : (ret = 0 ∧ ∃ d, d.isMessage = false ∧ received t = msgs ++ [d] ∧
      reply = ⟨d.text, id, d.origin⟩) ∨
    ((ret = -1 ∨ ret = -2) ∧ received t = msgs ∧ reply = ⟨[], id, none⟩)

section
variable (t u : List (Sigma IoAns))

theorem numbered_append : numbered (t ++ u) = numbered t ++ numbered u :=
  List.filterMap_append

theorem received_append : received (t ++ u) = received t ++ received u :=
  List.filterMap_append

private theorem callbacks_append : callbacks (t ++ u) = callbacks t ++ callbacks u :=
  List.filterMap_append

private theorem terminated_append : terminated (t ++ u) = terminated t ++ terminated u :=
  List.filterMap_append

end

section
variable {id : CmdId} {replyLen : Nat} {msgCb : Bool} {ret : Int} {reply : Reply}
  {t : List (Sigma IoAns)}

/-- The end of a wait in which nothing more comes in -/
private theorem Waited.ended (failed : ret = -1 ∨ ret = -2) (quiet : received t = [])
    (uncalled : callbacks t = []) (unwritten : terminated t = []) :
    Waited id replyLen msgCb t ret ⟨[], id, none⟩ [] where
  messages := fun _ member => by cases member
  called := by simp [uncalled]
  written := by simp [unwritten]
  arrived := .inr ⟨failed, quiet, rfl⟩

/-- A message comes in before the rest. -/
private theorem Waited.message {m : Datagram} {msgs : List Datagram}
    (isMessage : m.isMessage = true) {u : List (Sigma IoAns)} (arrived : received u = [m])
    (called : callbacks u = if msgCb then [m.text.take (replyLen - 1)] else [])
    (written : ∀ n ∈ terminated u, n < replyLen)
    (rest : Waited id replyLen msgCb t ret reply msgs) :
    Waited id replyLen msgCb (u ++ t) ret reply (m :: msgs) where
  messages := by simpa [isMessage] using rest.messages
  called := by
    rw [callbacks_append, called, rest.called]
    cases msgCb <;> simp
  written := by
    intro n member
    rw [terminated_append, List.mem_append] at member
    exact member.elim (written n) (rest.written n)
  arrived := by
    rw [received_append, arrived, List.singleton_append]
    exact rest.arrived.imp
      (fun ⟨zero, d, other, split, same⟩ => ⟨zero, d, other, by rw [split]; rfl, same⟩)
      (fun ⟨failed, split, same⟩ => ⟨failed, by rw [split], same⟩)

/-- What the callback gets of a message, and where the `\0` after it goes -/
private theorem message_cut {text : GoString} (nonempty : 0 < text.length)
    (short : text.length ≤ replyLen) :
    text.take (if text.length = replyLen then replyLen - 1 else text.length) =
        text.take (replyLen - 1) ∧
      (if text.length = replyLen then replyLen - 1 else text.length) < replyLen := by
  by_cases full : text.length = replyLen
  · rw [if_pos full]
    exact ⟨rfl, by omega⟩
  · rw [if_neg full]
    refine ⟨?_, by omega⟩
    rw [List.take_length, List.take_of_length_le (by omega)]

private theorem waitReply_waited {fuel : Nat}
    (path : (waitReply id replyLen msgCb fuel).Path t (ret, reply))
    (fits : msgCb = true → ∀ d ∈ received t, d.text.length ≤ replyLen) :
    numbered t = [] ∧ ∃ msgs, Waited id replyLen msgCb t ret reply msgs := by
  induction fuel generalizing t with
  | zero =>
    obtain ⟨x, _⟩ := (Prog.path_call _ _ _ _).mp path
    exact x.elim
  | succ fuel ih =>
    unfold waitReply at path
    obtain ⟨answer, t₁, rfl, after⟩ := (Prog.path_perform_bind _ _ _ _).mp path
    cases answer with
    | timeout =>
      obtain ⟨rfl, same⟩ := (Prog.path_ret _ _ _).mp after
      cases same
      exact ⟨rfl, [], .ended (.inr rfl) rfl rfl rfl⟩
    | failed =>
      obtain ⟨e, t₂, rfl, judged⟩ := (Prog.path_perform_bind _ _ _ _).mp after
      split at judged
      · obtain ⟨unsent, msgs, waited⟩ := ih judged fits
        exact ⟨unsent, msgs, { waited with }⟩
      · obtain ⟨rfl, same⟩ := (Prog.path_ret _ _ _).mp judged
        cases same
        exact ⟨rfl, [], .ended (.inl rfl) rfl rfl rfl⟩
    | readable =>
      obtain ⟨answer, t₂, rfl, got⟩ := (Prog.path_perform_bind _ _ _ _).mp after
      cases answer with
      | none =>
        obtain ⟨rfl, same⟩ := (Prog.path_ret _ _ _).mp got
        cases same
        exact ⟨rfl, [], .ended (.inl rfl) rfl rfl rfl⟩
      | some d =>
        have more (calls : msgCb = true) : d.text.length ≤ replyLen :=
          fits calls d (by simp [received])
        simp only at got
        split at got
        next isMessage =>
          -- A message has at least its `<`, so that there is room for the `\0`.
          have nonempty : 0 < d.text.length := by
            cases text : d.text with
            | nil => simp [Datagram.isMessage, text] at isMessage
            | cons => simp
          split at got
          next calls =>
            obtain ⟨_, t₃, rfl, terminates⟩ := (Prog.path_perform_bind _ _ _ _).mp got
            obtain ⟨_, t₄, rfl, goesOn⟩ := (Prog.path_perform_bind _ _ _ _).mp terminates
            have short := more calls
            obtain ⟨unsent, msgs, waited⟩ :=
              ih goesOn fun calls m member => fits calls m (List.mem_cons_of_mem d member)
            refine ⟨unsent, d :: msgs, waited.message isMessage
              (u := [⟨.select, .readable⟩, ⟨.recv replyLen, some d⟩, ⟨.terminate _, _⟩,
                ⟨.msgCb _, _⟩]) rfl ?_ ?_⟩
            · rw [if_pos calls, ← (message_cut nonempty short).1]
              rfl
            · intro n member
              rw [List.mem_singleton.mp member]
              exact (message_cut nonempty short).2
          next silent =>
            obtain ⟨unsent, msgs, waited⟩ :=
              ih got fun calls m member => fits calls m (List.mem_cons_of_mem d member)
            refine ⟨unsent, d :: msgs, waited.message isMessage
              (u := [⟨.select, .readable⟩, ⟨.recv replyLen, some d⟩]) rfl ?_ ?_⟩
            · rw [if_neg silent]
              rfl
            · intro n member
              cases member
        next other =>
          obtain ⟨rfl, same⟩ := (Prog.path_ret _ _ _).mp got
          cases same
          exact ⟨rfl, [],
            { messages := fun _ member => by cases member
              called := by simp [callbacks]
              written := fun _ member => by cases member
              arrived := .inl ⟨rfl, d, Bool.eq_false_iff.mpr other, rfl, rfl⟩ }⟩

private theorem readReltime_path {n : Reltime} (path : readReltime.Path t n) :
    t = [⟨.getReltime, some n⟩] ∨ t = [⟨.getReltime, none⟩, ⟨.indeterminate, n⟩] := by
  unfold readReltime at path
  obtain ⟨answer, t₁, rfl, after⟩ := (Prog.path_perform_bind _ _ _ _).mp path
  cases answer with
  | some now =>
    obtain ⟨rfl, rfl⟩ := (Prog.path_ret _ _ _).mp after
    exact .inl rfl
  | none =>
    rw [(Prog.path_perform _ _ _).mp after]
    exact .inr rfl

/-- The `send`s receive nothing and call nothing back; one that succeeds is the last. -/
private theorem retrySend_sent {cmd : GoString} {fuel : Nat} {startedAt : Reltime}
    {sent : Option CmdId} (path : (retrySend cmd fuel startedAt).Path t sent) :
    numbered t = (sent.map fun id => (cmd, id)).toList ∧ received t = [] ∧ callbacks t = [] ∧
      terminated t = [] := by
  induction fuel generalizing t startedAt with
  | zero =>
    obtain ⟨x, _⟩ := (Prog.path_call _ _ _ _).mp path
    exact x.elim
  | succ fuel ih =>
    unfold retrySend at path
    obtain ⟨answer, t₁, rfl, after⟩ := (Prog.path_perform_bind _ _ _ _).mp path
    cases answer with
    | some id =>
      obtain ⟨rfl, rfl⟩ := (Prog.path_ret _ _ _).mp after
      exact ⟨rfl, rfl, rfl, rfl⟩
    | none =>
      obtain ⟨e, t₂, rfl, judged⟩ := (Prog.path_perform_bind _ _ _ _).mp after
      split at judged
      · split at judged
        · obtain ⟨now, t₃, rfl, sleeps⟩ := (Prog.path_perform_bind _ _ _ _).mp judged
          obtain ⟨_, t₄, rfl, again⟩ := (Prog.path_perform_bind _ _ _ _).mp sleeps
          exact (ih again :)
        · obtain ⟨t₃, t₄, n, rfl, reads, decides⟩ := (Prog.path_bind _ _ _ _).mp judged
          split at decides
          · obtain ⟨rfl, rfl⟩ := (Prog.path_ret _ _ _).mp decides
            obtain rfl | rfl := readReltime_path reads <;> exact ⟨rfl, rfl, rfl, rfl⟩
          · obtain ⟨_, t₅, rfl, again⟩ := (Prog.path_perform_bind _ _ _ _).mp decides
            have later := ih again
            obtain rfl | rfl := readReltime_path reads <;> exact later
      · obtain ⟨rfl, rfl⟩ := (Prog.path_ret _ _ _).mp judged
        exact ⟨rfl, rfl, rfl, rfl⟩

/-- The buffer concerns only what the callback gets. -/
theorem wpaCtrlRequest_waited {fuel : Nat} {cmd : GoString}
    (path : (wpaCtrlRequest fuel cmd replyLen msgCb).Path t (ret, reply))
    (fits : msgCb = true → ∀ d ∈ received t, d.text.length ≤ replyLen) :
    (numbered t = [] ∧ received t = [] ∧ callbacks t = [] ∧ terminated t = [] ∧ ret = -1) ∨
      (numbered t = [(cmd, reply.command)] ∧
        ∃ msgs, Waited reply.command replyLen msgCb t ret reply msgs) := by
  obtain ⟨_, t₁, rfl, clears⟩ := (Prog.path_perform_bind _ _ _ _).mp path
  obtain ⟨u, v, sent, rfl, sends, waits⟩ := (Prog.path_bind _ _ _ _).mp clears
  obtain ⟨ids, quiet, uncalled, unwritten⟩ := retrySend_sent sends
  cases sent with
  | none =>
    obtain ⟨rfl, same⟩ := (Prog.path_ret _ _ _).mp waits
    cases same
    rw [List.append_nil]
    exact .inl ⟨ids, quiet, uncalled, unwritten, rfl⟩
  | some id =>
    obtain ⟨unsent, msgs, waited⟩ := waitReply_waited waits fun calls d member => fits calls d
      (show d ∈ received (u ++ v) by simp [received_append, member])
    have command : reply.command = id := by
      obtain ⟨_, d, _, _, rfl⟩ | ⟨_, _, rfl⟩ := waited.arrived <;> rfl
    rw [command]
    refine .inr ⟨?_, msgs,
      { messages := waited.messages
        called := ?_
        written := ?_
        arrived := ?_ }⟩
    · show numbered (u ++ v) = [(cmd, id)]
      rw [numbered_append, ids, unsent]
      rfl
    · show callbacks (u ++ v) = _
      rw [callbacks_append, uncalled, waited.called, List.nil_append]
    · show ∀ n ∈ terminated (u ++ v), _
      rw [terminated_append, unwritten, List.nil_append]
      exact waited.written
    · show _ ∧ (∃ d, _ ∧ received (u ++ v) = _ ∧ _) ∨ _ ∧ received (u ++ v) = _ ∧ _
      rw [received_append, quiet, List.nil_append]
      exact waited.arrived

/-- A request sends its command at most once. If it was sent, then what came in up to the return
is unsolicited messages, each of which the callback got, cut to leave room for the `\0`, and
after them what is returned as the reply; nothing is written behind the end of the buffer. -/
theorem request_exchanges {fuel : Nat} {cmd : GoString}
    (path : (wpaCtrlRequest fuel cmd replyLen msgCb).Path t (ret, reply))
    (fits : ∀ d ∈ received t, d.text.length ≤ replyLen) :
    (numbered t = [] ∧ received t = [] ∧ callbacks t = [] ∧ terminated t = [] ∧ ret = -1) ∨
      (numbered t = [(cmd, reply.command)] ∧
        ∃ msgs, Waited reply.command replyLen msgCb t ret reply msgs) :=
  wpaCtrlRequest_waited path fun _ => fits

end

/-- The calls of a `PING` that is sent at the second try and answered after the message `<3>` -/
def pingCalls : List (Sigma IoAns) :=
  [⟨.setErrno 0, ()⟩, ⟨.send (lit "PING"), none⟩, ⟨.errno, Errno.eagain⟩,
    ⟨.getReltime, some ⟨5, 0⟩⟩, ⟨.sleep, ()⟩, ⟨.send (lit "PING"), some 0⟩, ⟨.select, .readable⟩,
    ⟨.recv 8, some ⟨lit "<3>", none⟩⟩, ⟨.terminate 3, ()⟩, ⟨.msgCb (lit "<3>"), ()⟩,
    ⟨.select, .readable⟩, ⟨.recv 8, some ⟨lit "PONG\n", some 0⟩⟩]

theorem request_exchanges_ping :
    (wpaCtrlRequest 2 (lit "PING") 8 true).Path pingCalls (0, ⟨lit "PONG\n", 0, some 0⟩) ∧
      numbered pingCalls = [(lit "PING", 0)] ∧
      ∃ msgs, Waited 0 8 true pingCalls 0 ⟨lit "PONG\n", 0, some 0⟩ msgs := by
  have path : (wpaCtrlRequest 2 (lit "PING") 8 true).Path pingCalls
      (0, ⟨lit "PONG\n", 0, some 0⟩) := by
    repeat refine .call _ ?_
    exact .ret _
  have fits : ∀ d ∈ received pingCalls, d.text.length ≤ 8 := by
    intro d member
    have short := List.all_eq_true.mp
      (rfl : (received pingCalls).all (fun d => d.text.length ≤ 8) = true) d member
    exact of_decide_eq_true short
  obtain ⟨unsent, _⟩ | sent := request_exchanges path fits
  · cases unsent
  · exact ⟨path, sent⟩

end HostapdGrpc.Socket
