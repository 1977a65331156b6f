import HostapdGrpc.Interaction.Trace
import HostapdGrpc.Socket.Coupling

/-!
# Opening, requests and closing as single steps

The state of the manager takes an `Open`, a `send`, the wait for a reply and a `Close` as one
step each. Every run in which they are made of system calls is one in which they are steps.
-/

namespace HostapdGrpc.Socket

open Go Interaction

variable {ι : Type} [DecidableEq ι] [Fintype ι] {R : Prop} {m : Manager} {pid : Int} {fuel : Nat}
  {i : ι}

/-- The calls of `wpa_ctrl_request` on the connection `c` -/
private def ioFull {α : Type} (c : Conn) (p : IoAct α) : FullAct α :=
  p.interpret fun op => full (.io c op)

/-! ### The `send` and its retries -/

/-- The last `send` on `c` failed. -/
structure SendFailed (R : Prop) (i : ι) (c : Conn) (s : Process ι) : Prop where
  owner : ∃ p, s.mem.heap.smu p = some i ∧ (s.mem.conn c).home = some p
  alive : (s.mem.conn c).closed = false
  answered : R → (s.mem.conn c).sent = (s.mem.conn c).replied
  set : s.errno i ≠ 0

private theorem SendFailed.stable (c : Conn) :
    (coupling ι R m pid fuel).Stable i (SendFailed R i c) := by
  rintro s s' _ _ rely ⟨⟨p, locked, home⟩, alive, answered, set⟩
  obtain ⟨-, home', closed', sent', replied'⟩ := (rely.mem.conn c p locked home).fixed
  exact ⟨⟨p, (rely.mem.smu p).mpr locked, home'.trans home⟩, closed'.trans alive,
    fun replies => sent'.trans ((answered replies).trans replied'.symm), rely.errno.symm ▸ set⟩

/-- What the `send`s came to, beside the one above -/
def Sent (i : ι) (sent : Option CmdId) (r : Except Errno CmdId) (s : Process ι) : Prop :=
  match r with
  | .ok id => sent = some id
  | .error e => sent = none ∧ s.errno i = e ∧ e ≠ 0

private theorem errno_stable (e : Errno) :
    (coupling ι R m pid fuel).Stable i (fun s => s.errno i = e) :=
  fun _ _ _ _ rely same => rely.errno.trans same

/-- A call that only reads -/
def IoOp.reads : IoOp → Prop
  | .errno | .getReltime | .indeterminate | .sleep => True
  | _ => False

omit [Fintype ι] in
private theorem reads_exec {op : IoOp} (reads : op.reads) {s s' : Process ι} {c : Conn}
    {ch : FullChoice} {a : IoAns op} (done : s.ioExec i c op ch = some (a, s')) : s' = s := by
  cases op with
  | errno | sleep =>
    cases done
    rfl
  | getReltime | indeterminate =>
    simp only [Process.ioExec] at done
    split at done <;> cases done
    rfl
  | _ => exact reads.elim

omit [Fintype ι] in
private theorem reads_apart {op : IoOp} (reads : op.reads) (c : Conn) : (FullOp.io c op).apart := by
  cases op <;> first | exact reads.elim | trivial

omit [DecidableEq ι] [Fintype ι] in
private theorem apart_good {op : FullOp} (apart : op.apart) (s : Process ι) :
    ¬FullBad R i op s := by
  cases op with
  | io c op => cases op <;> first | exact apart.elim | exact id
  | proc op => cases op <;> first | exact apart.elim | exact id

/-- After a failed `send`, a call whose answer decides whether that was the last -/
private theorem fail_at (op : IoOp) (reads : op.reads) {c : Conn} {cmd : GoString} {α : Type}
    (gives : IoAns op → Prop) {g : IoAns op → FullAct α}
    {Q : α → Except Errno CmdId → Process ι → Prop}
    (again : ∀ a, ¬gives a → (coupling ι R m pid fuel).Matches i (SendFailed R i c) (g a)
      (act (.send (some c) cmd)) Q)
    (last : ∀ a e, gives a → e ≠ 0 → (coupling ι R m pid fuel).Matches i (fun s => s.errno i = e)
      (g a) (.ret (.error e)) Q) :
    (coupling ι R m pid fuel).Matches i (SendFailed R i c) (full (.io c op) >>= g)
      (act (.send (some c) cmd)) Q := by
  refine .either (R := fun a s => ¬gives a ∧ SendFailed R i c s)
    (S := fun a r s => gives a ∧ ∃ e, (r = .error e ∧ e ≠ 0) ∧ s.errno i = e) ?_
    (fun _ => (Logic.Stable.const _).and (SendFailed.stable c))
    (fun _ _ => (Logic.Stable.const _).and (.exists fun e => (Logic.Stable.const _).and
      (errno_stable e))) ?_ ?_
  · intro s t call k inv failed behind known
    refine ⟨apart_good (reads_apart reads c) s, fun ch a s' _ done => ?_⟩
    obtain rfl := reads_exec reads done
    refine ⟨inv, ?_⟩
    by_cases gave : gives a
    · obtain ⟨-, -, closed, sent, replied⟩ := (behind.conn c).fixed
      refine .inr ⟨.fail (s'.errno i), .error (s'.errno i), t, ?_, ?_, behind, gave, s'.errno i,
        ⟨rfl, failed.set⟩, rfl⟩
      · refine allowed_other fun replies => ?_
        show ((t.conn c).sent == (t.conn c).replied) = true
        rw [sent, replied, failed.answered replies, beq_self_eq_true]
      · show t.exec i (.send (some c) cmd) (.fail (s'.errno i)) = some (.error (s'.errno i), t)
        simp [State.exec, closed, failed.alive, failed.set]
    · exact .inl ⟨behind, gave, failed⟩
  · intro a
    exact .assume (fun _ _ pre => pre.1) fun goes => (again a goes).weaken (fun _ _ pre => pre.2)
      fun _ _ _ _ post => post
  · intro a r
    refine .assume (A := gives a ∧ ∃ e, r = .error e ∧ e ≠ 0)
      (fun _ _ pre => ⟨pre.1, pre.2.imp fun e known => known.1⟩) ?_
    rintro ⟨gave, e, rfl, set⟩
    refine (last a e gave set).weaken ?_ fun _ _ _ _ post => post
    rintro s _ ⟨_, e', ⟨same, _⟩, errno⟩
    cases same
    exact errno

private theorem unmoved {s s' : Process ι} {t : State ι} (mem : s'.mem = s.mem)
    (inv : Inv (answering R) m s.mem) (behind : s.mem.Behind t) :
    (coupling ι R m pid fuel).inv s' ∧ (coupling ι R m pid fuel).rel s' t := by
  show Inv (answering R) m s'.mem ∧ s'.mem.Behind t
  rw [mem]
  exact ⟨inv, behind⟩

private theorem given_up (e : Errno) (set : e ≠ 0) :
    (coupling ι R m pid fuel).Matches i (fun s => s.errno i = e)
      (.ret none : FullAct (Option CmdId)) (.ret (.error e) : Act (Except Errno CmdId)) (Sent i) :=
  .ret _ _ fun _ _ errno => ⟨rfl, errno, set⟩

/-- A `send` is the one above, or it fails and nothing has happened. -/
private theorem send_step {c : Conn} {cmd : GoString} {s s' : Process ι} {t : State ι}
    {ch : FullChoice} {sent : Option CmdId} {call : Call} {k : Except Errno CmdId → Act Res}
    (known : (proof ι (answering R) m).Known i (.running call (.call (.send (some c) cmd) k)) t)
    (behind : s.mem.Behind t)
    (ok : R → sendsWhenAnswered i (.io c (.send cmd)) ch s = true)
    (done : s.ioExec i c (.send cmd) ch = some (sent, s')) :
    (s'.mem = s.mem ∧ sent = none ∧ SendFailed R i c s') ∨
      ∃ t' n, ((answering R).condition m).step i (.send (some c) cmd) .go t ∧
        t.exec i (.send (some c) cmd) .go = some (.ok n, t') ∧ s'.mem.Behind t' ∧
        sent = some n := by
  have owner : ∃ p, s.mem.heap.smu p = some i ∧ (s.mem.conn c).home = some p :=
    not_not.mp (known_good known behind)
  simp only [Process.ioExec] at done
  split at done
  · split at done
    · cases done
    next alive =>
      cases done
      have sends : s.mem.exec i (.send (some c) cmd) .go = some (.ok (s.mem.conn c).sent,
          s.mem.setConn c { s.mem.conn c with
            sent := (s.mem.conn c).sent + 1
            outstanding := (s.mem.conn c).outstanding ++ [(s.mem.conn c).sent] }) := by
        simp only [State.exec, alive]
        rfl
      obtain ⟨t', sends', behind'⟩ := behind.exec sends
      refine .inr ⟨t', _, allowed_other fun replies => ?_, sends', behind', rfl⟩
      obtain ⟨-, -, -, sent, replied⟩ := (behind.conn c).fixed
      show ((t.conn c).sent == (t.conn c).replied) = true
      rw [sent, replied]
      exact ok replies
  · split at done
    · cases done
    next alive =>
      obtain ⟨mem, -, rfl, set, errno⟩ := Process.failing_apart done
      refine .inl ⟨mem, rfl, mem ▸ owner, ?_, ?_, errno ▸ set⟩
      · rw [mem]
        exact Bool.eq_false_iff.mpr alive
      · rw [mem]
        exact fun replies => eq_of_beq (ok replies)
  · cases done

/-- After a transient failure the clock decides whether to go on. -/
private theorem clock_matches {c : Conn} {cmd : GoString} {startedAt : Reltime}
    {rest : IoAct (Option CmdId)}
    (again : (coupling ι R m pid fuel).Matches i (SendFailed R i c) (ioFull c rest)
      (act (.send (some c) cmd)) (Sent i)) :
    (coupling ι R m pid fuel).Matches i (SendFailed R i c)
      (ioFull c (do
        let n ← readReltime
        if n.expired startedAt 5 then
          pure none
        else
          rest))
      (act (.send (some c) cmd)) (Sent i) := by
  simp only [readReltime, ioFull, io, Prog.bind_assoc, Prog.interpret_bind, Prog.interpret_perform]
  refine fail_at .getReltime trivial (fun now => ∃ n, now = some n ∧ n.expired startedAt 5 = true)
    (fun now early => ?_) ?_
  · cases now with
    | some n =>
      have early' : ¬n.expired startedAt 5 = true := fun late => early ⟨n, rfl, late⟩
      simp only [Prog.pure_eq, Prog.interpret, Prog.ret_bind, if_neg early']
      exact again
    | none =>
      simp only [Prog.interpret_perform]
      refine fail_at .indeterminate trivial (fun n => n.expired startedAt 5 = true)
        (fun n early => ?_) fun n e late set => ?_
      · rw [if_neg early]
        exact again
      · rw [if_pos late]
        exact given_up e set
  · rintro _ e ⟨n, rfl, late⟩ set
    simp only [Prog.pure_eq, Prog.interpret, Prog.ret_bind, late, if_true]
    exact given_up e set

private theorem retrySend_matches (c : Conn) (cmd : GoString) (rounds : Nat) (startedAt : Reltime) :
    (coupling ι R m pid fuel).Matches i (fun _ => True) (ioFull c (retrySend cmd rounds startedAt))
      (act (.send (some c) cmd)) (Sent i) := by
  induction rounds generalizing startedAt with
  | zero => exact .blocked fun s _ _ => ⟨id, fun ch => rfl⟩
  | succ rounds ih =>
    have again (startedAt : Reltime) : (coupling ι R m pid fuel).Matches i (SendFailed R i c)
        (ioFull c (do
          io .sleep
          retrySend cmd rounds startedAt))
        (act (.send (some c) cmd)) (Sent i) := by
      simp only [ioFull, io, Prog.interpret_bind, Prog.interpret_perform]
      refine fail_at .sleep trivial (fun _ => False) (fun _ _ => ?_) fun _ _ gave => gave.elim
      exact (ih startedAt).weaken (fun _ _ _ => trivial) fun _ _ _ _ post => post
    simp only [retrySend, io, ioFull, Prog.interpret_bind, Prog.interpret_perform]
    refine .either (R := fun sent s => sent = none ∧ SendFailed R i c s)
      (S := fun sent r _ => ∃ n, sent = some n ∧ r = .ok n) ?_
      (fun _ => (Logic.Stable.const _).and (SendFailed.stable c)) (fun _ _ => .const _)
      (fun sent => ?_) fun sent r => ?_
    · intro s t call k inv _ behind known
      refine ⟨known_good known behind, fun ch sent s' ok done => ?_⟩
      obtain ⟨mem, unsent, failed⟩ | ⟨t', n, ok', sends, behind', same⟩ :=
        send_step known behind ok done
      · obtain ⟨inv', behind'⟩ := unmoved mem inv behind
        exact ⟨inv', .inl ⟨behind', unsent, failed⟩⟩
      · exact ⟨known_inv known ok' sends behind',
          .inr ⟨.go, _, t', ok', sends, behind', n, same, rfl⟩⟩
    · refine .assume (fun _ _ pre => pre.1) ?_
      rintro rfl
      simp only [Prog.interpret_bind, Prog.interpret_perform]
      refine Coupling.Matches.weaken (P := SendFailed R i c) ?_ (fun _ _ pre => pre.2)
        fun _ _ _ _ post => post
      refine fail_at .errno trivial (fun e => transient e = false) (fun e passing => ?_)
        fun e e' lasting set => ?_
      · rw [if_pos (by simpa using passing)]
        split
        · simp only [Prog.interpret_bind, Prog.interpret_perform]
          exact fail_at .getReltime trivial (fun _ => False) (fun _ _ => again _)
            fun _ _ gave => gave.elim
        · exact clock_matches (again startedAt)
      · rw [if_neg (by simp [lasting])]
        exact given_up e' set
    · refine .assume (fun _ _ pre => pre) ?_
      rintro ⟨n, rfl, rfl⟩
      exact .ret _ _ fun _ _ _ => rfl

/-! ### The wait for a reply -/

/-- What the wait came to, beside the one above; a timeout after an error shows as that error. -/
def Waiting (i : ι) (n : CmdId) (r : Int × Reply) (x : Received) (s : Process ι) : Prop :=
  match x with
  | .reply d => r = (0, ⟨d.text, n, d.origin⟩)
  | .timeout => r = (-2, ⟨[], n, none⟩) ∧ s.errno i = 0
  | .failed e => (∃ ret, (ret = -1 ∨ ret = -2) ∧ r = (ret, ⟨[], n, none⟩)) ∧ s.errno i = e ∧ e ≠ 0

private theorem Waiting.stable (n : CmdId) (r : Int × Reply) (x : Received) :
    (coupling ι R m pid fuel).Stable i (Waiting i n r x) := by
  cases x with
  | reply d => exact .const _
  | timeout => exact (Logic.Stable.const _).and (errno_stable 0)
  | failed e => exact (Logic.Stable.const _).and ((errno_stable e).and (.const _))

omit [DecidableEq ι] [Fintype ι] in
/-- The wait has failed with the caller's `errno`. -/
private theorem Waiting.failed {n : CmdId} {ret : Int} {s : Process ι} (code : ret = -1 ∨ ret = -2)
    (set : s.errno i ≠ 0) : Waiting i n (ret, ⟨[], n, none⟩) (.failed (s.errno i)) s :=
  ⟨⟨ret, code, rfl⟩, rfl, set⟩

/-- The wait above comes to `x`, which leads to a memory beside that of `s`. -/
def Comes (R : Prop) (m : Manager) (i : ι) (c : Conn) (t : State ι) (x : Received)
    (s : Process ι) : Prop :=
  ∃ ch t', ((answering R).condition m).step i (.recv c) ch t ∧
    t.exec i (.recv c) ch = some (x, t') ∧ s.mem.Behind t'

section
variable {n : CmdId} {c : Conn} {s s' : Process ι} {t : State ι} {ch : FullChoice}

omit [Fintype ι] in
private theorem comes_failed (behind : s.mem.Behind t) {e : Errno} (set : e ≠ 0) :
    Comes R m i c t (.failed e) s :=
  ⟨.fail e, t, allowed_other fun _ => rfl, by simp [State.exec, State.recv, set], behind⟩

omit [Fintype ι] in
/-- A step of the memory is one above. -/
private theorem comes_of_recv {x : Received} {mem : State ι} {choice : Choice}
    (behind : s.mem.Behind t) (waits : s.mem.exec i (.recv c) choice = some (x, mem)) :
    Comes R m i c t x { s with mem := mem } := by
  obtain ⟨t', waits', behind'⟩ := behind.exec waits
  exact ⟨choice, t', allowed_other fun _ => rfl, waits', behind'⟩

omit [Fintype ι] in
private theorem select_comes (behind : s.mem.Behind t) {answer : Select}
    (done : s.ioExec i c .select ch = some (answer, s')) :
    s'.mem = s.mem ∧ (answer = .readable ∨ answer = .failed ∧ s'.errno i ≠ 0) ∨
      ∃ x, answer = .timeout ∧ Waiting i n (-2, ⟨[], n, none⟩) x s' ∧ Comes R m i c t x s' := by
  simp only [Process.ioExec] at done
  split at done
  · cases done
    exact .inl ⟨rfl, .inl rfl⟩
  · split at done <;> cases done
    next quiet =>
      by_cases set : s.errno i = 0
      · have waits : s.mem.exec i (.recv c) .timeout = some (.timeout, s.mem) := by
          have same : s.mem.setConn c { s.mem.conn c with queue := [] } = s.mem := by
            rw [← quiet]
            exact congrArg (fun conn => { s.mem with conn := conn }) (Function.update_eq_self ..)
          simp only [State.exec, State.recv, quiet, List.all_nil, if_true, same]
        exact .inr ⟨.timeout, rfl, ⟨rfl, set⟩, comes_of_recv behind waits⟩
      · exact .inr ⟨.failed (s.errno i), rfl, .failed (.inr rfl) set, comes_failed behind set⟩
  · obtain ⟨mem, -, rfl, set, errno⟩ := Process.failing_apart done
    exact .inl ⟨mem, .inr ⟨rfl, errno ▸ set⟩⟩
  · cases done

omit [Fintype ι] in
private theorem recv_comes (behind : s.mem.Behind t) {answer : Option Datagram}
    (done : s.ioExec i c (.recv State.bufSize) ch = some (answer, s')) :
    (∃ d, answer = some d ∧ d.isMessage = true ∧ s'.mem.Behind t) ∨
      (∃ d, answer = some d ∧ d.isMessage = false ∧ Comes R m i c t (.reply d) s') ∨
      ∃ e, answer = none ∧ s'.errno i = e ∧ e ≠ 0 ∧ Comes R m i c t (.failed e) s' := by
  simp only [Process.ioExec] at done
  split at done
  · split at done
    next d rest first =>
      cases done
      have text : Datagram.isMessage { d with text := d.text.take State.bufSize } =
          d.isMessage := by
        cases text : d.text <;> simp [Datagram.isMessage, text, State.bufSize]
      by_cases isMessage : d.isMessage = true
      · refine .inl ⟨_, rfl, text.trans isMessage, ?_⟩
        simp only [isMessage, if_true]
        exact behind.setConn_left c ((behind.conn c).pop first isMessage)
      · refine .inr (.inl ⟨_, rfl, text.trans (Bool.eq_false_iff.mpr isMessage), ?_⟩)
        have waits : s.mem.exec i (.recv c) .go = some
            (.reply { d with text := d.text.take State.bufSize }, s.mem.setConn c
              { s.mem.conn c with queue := rest, replied := (s.mem.conn c).replied + 1 }) := by
          simp only [State.exec, State.recv, first, List.dropWhile_cons_of_neg isMessage]
        simp only [isMessage]
        exact comes_of_recv behind waits
    · cases done
  · obtain ⟨mem, -, rfl, set, errno⟩ := Process.failing_apart done
    exact .inr (.inr ⟨_, rfl, errno, set, comes_failed (mem ▸ behind) set⟩)
  · cases done

end

private theorem failed_stable (x : Received) : (coupling ι R m pid fuel).Stable i
    (fun s => ∃ e, (x = .failed e ∧ e ≠ 0) ∧ s.errno i = e) :=
  .exists fun e => (Logic.Stable.const _).and (errno_stable e)

private theorem failed_matches {P : Process ι → Prop} {n : CmdId} {ret : Int} (x : Received)
    (code : ret = -1 ∨ ret = -2)
    (failed : ∀ s, P s → ∃ e, (x = .failed e ∧ e ≠ 0) ∧ s.errno i = e) :
    (coupling ι R m pid fuel).Matches i P (.ret (ret, ⟨[], n, none⟩) : FullAct (Int × Reply))
      (.ret x : Act Received) (Waiting i n) := by
  refine .ret _ _ fun s _ pre => ?_
  obtain ⟨e, ⟨rfl, set⟩, rfl⟩ := failed s pre
  exact .failed code set

private theorem waitReply_matches (c : Conn) (n : CmdId) (rounds : Nat) :
    (coupling ι R m pid fuel).Matches i (fun _ => True)
      (ioFull c (waitReply n State.bufSize false rounds)) (act (.recv c)) (Waiting i n) := by
  induction rounds with
  | zero => exact .blocked fun s _ _ => ⟨id, fun ch => rfl⟩
  | succ rounds ih =>
    have again : (coupling ι R m pid fuel).Matches i (fun _ => True)
        (ioFull c (waitReply n State.bufSize false rounds)) (act (.recv c)) (Waiting i n) := ih
    simp only [waitReply, io, ioFull, Prog.interpret_bind, Prog.interpret_perform]
    refine .either
      (R := fun answer s => answer = .readable ∨ answer = .failed ∧ s.errno i ≠ 0)
      (S := fun answer x s => answer = .timeout ∧ Waiting i n (-2, ⟨[], n, none⟩) x s) ?_
      ?_ (fun _ x => (Logic.Stable.const _).and (Waiting.stable n _ x)) (fun answer => ?_)
      fun answer x => ?_
    · intro s t call k inv _ behind known
      refine ⟨fun bad => bad, fun ch answer s' _ done => ?_⟩
      obtain ⟨mem, goes⟩ | ⟨x, timeout, waited, comes⟩ := select_comes (n := n) behind done
      · obtain ⟨inv', behind'⟩ := unmoved mem inv behind
        exact ⟨inv', .inl ⟨behind', goes⟩⟩
      · obtain ⟨ch', t', ok, waits, behind'⟩ := comes
        exact ⟨known_inv known ok waits behind',
          .inr ⟨ch', x, t', ok, waits, behind', timeout, waited⟩⟩
    · rintro answer s s' _ _ rely (readable | ⟨failed, set⟩)
      · exact .inl readable
      · exact .inr ⟨failed, rely.errno.symm ▸ set⟩
    · cases answer with
      | timeout =>
        exact .assume (A := False) (fun _ _ pre => by simp at pre) False.elim
      | failed =>
        simp only [Prog.interpret_bind, Prog.interpret_perform]
        refine .either (R := fun e _ => e = Errno.eintr)
          (S := fun e x s => e ≠ Errno.eintr ∧ ∃ e', (x = .failed e' ∧ e' ≠ 0) ∧ s.errno i = e') ?_
          (fun _ => .const _) (fun _ _ => (Logic.Stable.const _).and (failed_stable _))
          (fun e => ?_) fun e x => ?_
        · intro s t call k inv pre behind known
          refine ⟨fun bad => bad, fun ch e s' _ done => ?_⟩
          have done' : s.ioExec i c .errno ch = some (e, s') := done
          cases done'
          have set : s.errno i ≠ 0 := by simpa using pre
          refine ⟨inv, ?_⟩
          by_cases interrupted : s.errno i = Errno.eintr
          · exact .inl ⟨behind, interrupted⟩
          · obtain ⟨ch', t', ok, waits, behind'⟩ :=
              comes_failed (R := R) (m := m) (i := i) (c := c) behind set
            exact .inr ⟨ch', _, t', ok, waits, behind', interrupted, _, ⟨rfl, set⟩, rfl⟩
        · refine .assume (fun _ _ pre => pre) ?_
          rintro rfl
          rw [if_pos rfl]
          exact again.weaken (fun _ _ _ => trivial) fun _ _ _ _ post => post
        · refine .assume (fun _ _ pre => pre.1) fun lasting => ?_
          rw [if_neg lasting]
          exact failed_matches _ (.inl rfl) fun _ pre => pre.2
      | readable =>
        simp only [Prog.interpret_bind, Prog.interpret_perform]
        refine .either (R := fun a _ => ∃ d, a = some d ∧ d.isMessage = true)
          (S := fun a x s => (∃ d, a = some d ∧ d.isMessage = false ∧ x = .reply d) ∨
            a = none ∧ ∃ e, (x = .failed e ∧ e ≠ 0) ∧ s.errno i = e) ?_
          (fun _ => .const _) ?_ (fun a => ?_) fun a x => ?_
        · intro s t call k inv _ behind known
          refine ⟨known_good known behind, fun ch a s' _ done => ?_⟩
          obtain ⟨d, read, isMessage, behind'⟩ | ⟨d, read, other, comes⟩ |
            ⟨e, unread, errno, set, comes⟩ := recv_comes behind done
          · exact ⟨.of_behind behind' known.1, .inl ⟨behind', d, read, isMessage⟩⟩
          · obtain ⟨ch', t', ok, waits, behind'⟩ := comes
            exact ⟨known_inv known ok waits behind',
              .inr ⟨ch', _, t', ok, waits, behind', .inl ⟨d, read, other, rfl⟩⟩⟩
          · obtain ⟨ch', t', ok, waits, behind'⟩ := comes
            exact ⟨known_inv known ok waits behind',
              .inr ⟨ch', _, t', ok, waits, behind', .inr ⟨unread, e, ⟨rfl, set⟩, errno⟩⟩⟩
        · rintro a x s s' inv inv' rely (read | ⟨unread, failed⟩)
          · exact .inl read
          · exact .inr ⟨unread, failed_stable x s s' inv inv' rely failed⟩
        · refine .assume (fun _ _ pre => pre) ?_
          rintro ⟨d, rfl, isMessage⟩
          simp only [isMessage, if_true]
          exact again.weaken (fun _ _ _ => trivial) fun _ _ _ _ post => post
        · refine .or ?_ ?_
          · refine .assume (fun _ _ pre => pre) ?_
            rintro ⟨d, rfl, other, rfl⟩
            simp only [other]
            exact .ret _ _ fun _ _ _ => rfl
          · refine .assume (fun _ _ pre => pre.1) ?_
            rintro rfl
            exact failed_matches _ (.inl rfl) fun _ pre => pre.2
    · refine .assume (fun _ _ pre => pre.1) ?_
      rintro rfl
      exact .ret _ _ fun _ _ pre => pre.2

/-! ### `wpa_ctrl_request` and `SendRawCmd` -/

/-- The results of a request here and above. The `errno` of a success is nobody's business, and
the code of a timeout after an error is that of the error. -/
def SameRequest (r r' : Int × Errno × Reply) : Prop :=
  (r.1 = 0 ∧ r'.1 = 0 ∧ r.2.2 = r'.2.2) ∨
    (r.1 ≠ 0 ∧ r'.1 ≠ 0 ∧ r.2.1 = r'.2.1 ∧ (r.1 = r'.1 ∨ r.2.1 ≠ 0 ∧ r.1 = -2 ∧ r'.1 = -1))

/-- The last read of `errno` -/
private theorem last_errno {α β : Type} {P : Process ι → Prop} (c : Conn) {f : Errno → α} {b : β}
    {Q : α → β → Prop} (post : ∀ s, P s → Q (f (s.errno i)) b) :
    (coupling ι R m pid fuel).Matches i P (full (.io c .errno) >>= fun e => .ret (f e))
      (.ret b : Act β) fun a b _ => Q a b := by
  refine .silent (R := fun e _ => Q (f e) b) ?_ (fun _ => .const _) fun e => ?_
  · intro s t _ _ inv pre behind _
    refine ⟨fun bad => bad, fun ch e s' _ done => ?_⟩
    have done' : s.ioExec i c .errno ch = some (e, s') := done
    cases done'
    exact ⟨inv, behind, post s pre⟩
  · exact .ret _ _ fun _ _ post => post

private theorem callRequest_matches (c : Conn) (req : GoString) (rounds : Nat) :
    (coupling ι R m pid fuel).Matches i (fun _ => True) (ioFull c (callRequest rounds req))
      (WpaCtrl.request (some c) req) fun r r' _ => SameRequest r r' := by
  simp only [callRequest, wpaCtrlRequest, ioFull, io, Prog.interpret_bind, Prog.interpret_perform,
    Prog.bind_assoc]
  refine apart_matches (.perform (P := FullOp.apart) trivial) fun _ => ?_
  refine apart_matches (.perform (P := FullOp.apart) trivial) fun _ => ?_
  refine (retrySend_matches c req rounds ⟨0, 0⟩).bind fun sent r => ?_
  have internal : (-1 : Int) ≠ 0 := by decide
  have deadline : (-2 : Int) ≠ 0 := by decide
  cases r with
  | error e =>
    refine .assume (A := sent = none ∧ e ≠ 0) (fun _ _ pre => ⟨pre.1, pre.2.2⟩) ?_
    rintro ⟨rfl, set⟩
    refine last_errno c (P := Sent i none (.error e)) fun s pre => ?_
    exact .inr ⟨internal, internal, pre.2.1, .inl rfl⟩
  | ok n =>
    refine .assume (A := sent = some n) (fun _ _ pre => pre) ?_
    rintro rfl
    refine Coupling.Matches.bind (Q := Waiting i n) ?_ fun a x => ?_
    · exact (waitReply_matches c n rounds).weaken (fun _ _ _ => trivial) fun _ _ _ _ post => post
    cases x with
    | reply d =>
      refine .assume (fun _ _ pre => pre) ?_
      rintro rfl
      exact last_errno c fun s _ => .inl ⟨rfl, rfl, rfl⟩
    | timeout =>
      refine .assume (A := a = _) (fun _ _ pre => pre.1) ?_
      rintro rfl
      exact last_errno c fun s pre => .inr ⟨deadline, deadline, pre.2, .inl rfl⟩
    | failed e =>
      refine .assume (A := ∃ ret, (ret = -1 ∨ ret = -2) ∧ a = (ret, _)) (fun _ _ pre => pre.1) ?_
      rintro ⟨ret, code, rfl⟩
      refine last_errno c fun s pre => .inr ?_
      obtain rfl | rfl := code
      · exact ⟨internal, internal, pre.2.1, .inl rfl⟩
      · exact ⟨deadline, internal, pre.2.1, .inr ⟨pre.2.1.symm ▸ pre.2.2, rfl, rfl⟩⟩

/-- The results of `SendRawCmd` here and above -/
inductive SameReply : Except GoError Reply → Except GoError Reply → Prop where
  | refl (r : Except GoError Reply) : SameReply r r
  /-- A timeout after an error -/
  | late (e : Errno) : SameReply (.error (.request ⟨some (.errno e), -2⟩))
      (.error (.request ⟨some (.errno e), -1⟩))

/-- A dead `Socket` is told by the `errno` alone. -/
theorem SameReply.error {err : GoError} {r : Except GoError Reply}
    (same : SameReply (.error err) r) :
    ∃ err', r = .error err' ∧ isSocketDead err = isSocketDead err' := by
  cases same with
  | refl => exact ⟨err, rfl, rfl⟩
  | late e => exact ⟨_, rfl, rfl⟩

theorem SameReply.ok {reply : Reply} {r : Except GoError Reply} (same : SameReply (.ok reply) r) :
    r = .ok reply := by
  cases same
  rfl

private theorem crash_matches {α β : Type} {P : Process ι → Prop} {q : Act β}
    {Q : α → β → Process ι → Prop} :
    (coupling ι R m pid fuel).Matches i P (crash : FullAct α) q Q :=
  .blocked fun s _ _ => ⟨fun bad => bad, fun ch => by
    show s.fullExec pid i (.proc (.mem .panic)) ch = none
    cases ch with
    | proc ch => cases ch <;> rfl
    | io ch => rfl
    | time t => rfl⟩

private theorem wpaSendRawCmd_matches (c : Option Conn) (req : GoString) (rounds : Nat) :
    (coupling ι R m pid fuel).Matches i (fun _ => True) (WpaCtrl.fullSendRawCmd rounds c req)
      (WpaCtrl.sendRawCmd c req) fun r r' _ => SameReply r r' := by
  cases c with
  | none => exact crash_matches
  | some c =>
    refine apart_matches (.perform (P := FullOp.apart) trivial) fun ctrl => ?_
    cases ctrl with
    | none => exact crash_matches
    | some ctrl =>
      refine (callRequest_matches c req rounds).seq fun r r' => ?_
      obtain ⟨ret, errno, reply⟩ := r
      obtain ⟨ret', errno', reply'⟩ := r'
      rintro (⟨zero, zero', same⟩ | ⟨failed, failed', same, code⟩)
      · obtain rfl : ret = 0 := zero
        obtain rfl : ret' = 0 := zero'
        obtain rfl : reply = reply' := same
        simp only [ne_eq, not_true_eq_false, if_false]
        split
        · exact crash_matches
        · exact .ret _ _ fun _ _ _ => .refl _
      · obtain rfl : errno = errno' := same
        dsimp only at failed failed' code ⊢
        rw [if_pos failed, if_pos failed']
        refine .ret _ _ fun _ _ _ => ?_
        obtain rfl | ⟨set, rfl, rfl⟩ := code
        · exact .refl _
        · rw [WpaCtrl.cgoError, if_neg set]
          exact .late errno

private theorem reconnect_matches (sh : Ptr) : (coupling ι R m pid fuel).Matches i (fun _ => True)
    ((SharedSocket.reconnect sh).interpret inProcess) (SharedSocket.reconnect sh)
    fun a b _ => a = b ∧ True :=
  .interpret inProcess_matches _

private theorem returning {r r' : Except GoError Reply} (same : SameReply r r') (sh : Ptr) :
    (coupling ι R m pid fuel).Matches i (fun _ => True)
      (do
        mem (.unlock (.smu sh))
        pure r)
      (do
        act (.unlock (.smu sh))
        pure r')
      fun r r' _ => SameReply r r' :=
  (mem_matches (.unlock (.smu sh))).seq fun _ _ _ => .ret _ _ fun _ _ _ => same

private theorem sendRawCmd_matches (rounds : Nat) (sh : Ptr) (cmd : GoString) :
    (coupling ι R m pid fuel).Matches i (fun _ => True)
      (SharedSocket.fullSendRawCmd rounds sh cmd) (SharedSocket.sendRawCmd sh cmd)
      fun r r' _ => SameReply r r' := by
  refine (mem_matches (.lock (.smu sh))).seq fun _ _ _ => ?_
  refine (mem_matches (.sock sh)).seq fun s _ same => ?_
  obtain rfl := same.1
  refine (wpaSendRawCmd_matches s cmd rounds).seq fun r r' same => ?_
  cases r with
  | ok reply =>
    obtain rfl := same.ok
    exact returning (.refl _) sh
  | error err =>
    obtain ⟨err', rfl, dead⟩ := same.error
    simp only [dead]
    split
    · refine (reconnect_matches sh).seq fun failed _ unmoved => ?_
      obtain rfl := unmoved.1
      cases failed with
      | some err => exact returning (.refl _) sh
      | none =>
        refine (mem_matches (.sock sh)).seq fun s _ same => ?_
        obtain rfl := same.1
        refine (wpaSendRawCmd_matches s cmd rounds).seq fun r r' same => ?_
        exact returning same sh
    · exact returning same sh

/-! ### Every run is one of the manager's operations -/

inductive SameRes : Res → Res → Prop where
  | refl (r : Res) : SameRes r r
  | sendRawCmd {r r' : Except GoError Reply} (same : SameReply r r') :
      SameRes (.sendRawCmd r) (.sendRawCmd r')

private theorem fullBody_matches (call : Call) : (coupling ι R m pid fuel).Matches i
    (fun _ => True) (fullBody m fuel call) (body m call) fun r r' _ => SameRes r r' := by
  have equal (call : Call) : (coupling ι R m pid fuel).Matches i (fun _ => True)
      ((body m call).interpret inProcess) (body m call) fun r r' _ => SameRes r r' :=
    (Coupling.Matches.interpret inProcess_matches _).weaken (fun _ _ pre => pre)
      fun r r' _ _ post => post.1 ▸ .refl r
  cases call with
  | get name => exact equal (.get name)
  | close sh => exact equal (.close sh)
  | sendRawCmd sh cmd =>
    refine .map _ _ ((sendRawCmd_matches fuel sh cmd).weaken (fun _ _ pre => pre) ?_)
    exact fun _ _ _ _ same => .sendRawCmd same

omit [Fintype ι] in
private theorem finish_same {r r' : Res} (same : SameRes r r') (call : Call) (s : State ι) :
    s.finish i call r = s.finish i call r' := by
  cases same with
  | refl => rfl
  | sendRawCmd same => cases call <;> rfl

/-- The calls in system calls are verified against those of the manager. -/
def simulation (ι : Type) [DecidableEq ι] [Fintype ι] (R : Prop) (m : Manager) (pid : Int)
    (fuel : Nat) : Simulation ι FullOp FullAns (Process ι) FullChoice Call Res Op Ans (State ι)
      Choice Call Res where
  toCoupling := coupling ι R m pid fuel
  idle _ u _ := u = .idle
  pre _ call u _ := u = .running call (body m call)
  post _ call r u _ := ∃ r', u = .running call (.ret r') ∧ SameRes r r'
  idle_stable _ _ := .const _
  pre_stable _ _ _ := .const _
  start_ok i call u s s' t inv idle behind known ok started := by
    subst idle
    obtain ⟨mem, begun, rfl⟩ := Option.map_eq_some_iff.mp started
    obtain ⟨f, rfl⟩ : ∃ f, t = { s.mem with conn := f } := ⟨t.conn, behind.rest⟩
    obtain ⟨inv', -, others⟩ :=
      (proof ι (answering R) m).start_ok i call s.mem mem inv known.2 ok begun
    obtain ⟨t', begun', behind'⟩ := behind.start begun
    exact ⟨inv', fun j ne => ⟨others j ne, rfl⟩, t', _, .single (.start call ok begun'), behind',
      rfl⟩
  body_ok i call := by
    refine (fullBody_matches call call .ret).weaken ?_ fun _ _ _ _ post => post
    rintro u s _ rfl
    exact ⟨congrArg (Thread.running call) (Prog.bind_ret (body m call)).symm, trivial⟩
  finish_ok i call r u s t inv post behind known := by
    obtain ⟨r', rfl, same⟩ := post
    have post' : Post (answering R) i call r' t :=
      known.2 t known.1 ((proof ι (answering R) m).rely_refl i t)
    obtain ⟨inv', -, others⟩ := (proof ι (answering R) m).finish_ok i call r' s.mem inv
      (post'.of_behind behind)
    have ends : (daemon ι m pid fuel).finish i call r s =
        { s with mem := s.mem.finish i call r' } := by
      rw [← finish_same same]
      rfl
    refine ⟨?_, fun j ne => ⟨?_, ?_⟩, _, _, .single .finish, ?_, rfl⟩
    · show Inv (answering R) m ((daemon ι m pid fuel).finish i call r s).mem
      rw [ends]
      exact inv'
    · show Rely j s.mem ((daemon ι m pid fuel).finish i call r s).mem
      rw [ends]
      exact others j ne
    · rfl
    · show ((daemon ι m pid fuel).finish i call r s).mem.Behind (t.finish i call r')
      rw [ends]
      exact behind.finish call r'
  env_ok ch s s' t inv behind moved := by
    simp only [coupling, daemon] at moved
    split at moved
    next ch =>
      obtain ⟨mem, moves, rfl⟩ := Option.map_eq_some_iff.mp moved
      obtain ⟨inv', others⟩ := (proof ι (answering R) m).env_ok ch s.mem mem inv moves
      obtain ⟨t', moves', behind'⟩ := behind.peer moves
      exact ⟨inv', fun j => ⟨others j, rfl⟩, t', .inr ⟨ch, moves'⟩, behind'⟩
    · cases moved

/-- Of a configuration of the process and one of the manager -/
structure Represents (c : Config ι FullOp FullAns (Process ι) Call Res)
    (d : Config ι Op Ans (State ι) Call Res) : Prop where
  memory : c.state.mem.Behind d.state
  idle : ∀ i, c.thread i = .idle → d.thread i = .idle
  returns : ∀ i call r, c.thread i = .running call (.ret r) →
    ∃ r', d.thread i = .running call (.ret r') ∧ SameRes r r'

private theorem represents {files : GoString → Bool}
    {c : Config ι FullOp FullAns (Process ι) Call Res}
    (run : Reach (daemon ι m pid fuel) (fullCondition ι R) (booted ι files) c) :
    ∃ d, Reach (system ι m) ((answering R).condition m) (initial ι) d ∧ Represents c d := by
  have related : (simulation ι R m pid fuel).Related (booted ι files) (initial ι) :=
    { inv := (reach_ok (A := answering R) (m := m) .refl).1
      rel := .refl _
      threads := fun _ => rfl }
  obtain ⟨d, above, last⟩ := (simulation ι R m pid fuel).sound
    (fun d above => Proof.Known.of_reach (reach_ok .refl) above) related run
  refine ⟨d, above, last.rel, fun i between => ?_, fun i call r returns => ?_⟩
  · have thread := last.threads i
    rw [between] at thread
    exact thread
  · have thread := last.threads i
    rw [returns] at thread
    exact thread c.state last.inv (.refl i c.state)

/-- Every run made of system calls is one of the manager's operations, with the same memory but
for messages read early, and with the same results. -/
theorem daemon_refines {files : GoString → Bool}
    {c : Config ι FullOp FullAns (Process ι) Call Res}
    (run : Reach (daemon ι m pid fuel) (ownCalls fun _ _ _ _ => true) (booted ι files) c) :
    ∃ d, Reach (system ι m) disciplined (initial ι) d ∧ Represents c d := by
  have run' : Reach (daemon ι m pid fuel) (fullCondition ι False) (booted ι files) c :=
    Reach.weaken (C := ownCalls fun _ _ _ _ => true) (fun _ _ _ ok => ok)
      (fun _ _ _ _ _ => False.elim) run
  obtain ⟨d, above, same⟩ := represents run'
  have above' : Reach (system ι m) disciplined (initial ι) d :=
    Reach.weaken (C := (answering False).condition m) (fun _ _ _ ok => ok)
      (fun _ _ _ _ _ => rfl) above
  exact ⟨d, above', same⟩

/-- If every command is sent on a connection whose earlier requests all got a reply, then what
`recv` finds first after the messages, however the calls interleave, answers the command that this
call sent. -/
theorem datagram_answers {files : GoString → Bool}
    {c : Config ι FullOp FullAns (Process ι) Call Res}
    (run : Reach (daemon ι m pid fuel) (ownCalls sendsWhenAnswered) (booted ι files) c)
    (p : Ptr) (cmd : GoString) (reply : Reply)
    (returns : c.thread i = .running (.sendRawCmd p cmd) (.ret (.sendRawCmd (.ok reply)))) :
    reply.origin = some reply.command ∧
      ∀ t, Traced (daemon ι m pid fuel) (ownCalls sendsWhenAnswered) (booted ι files) t c →
        FullyExchanged p cmd reply (performed i t) := by
  constructor
  · have run' : Reach (daemon ι m pid fuel) (fullCondition ι True) (booted ι files) c :=
      Reach.weaken (C := ownCalls sendsWhenAnswered) (fun _ _ _ ok => ok) (fun _ _ _ _ ok _ => ok)
        run
    obtain ⟨d, above, same⟩ := represents run'
    obtain ⟨r', returns', sameRes⟩ := same.returns i _ _ returns
    have ok : (proof ι (answering True) m).ConfigOk d := reach_ok above
    have post : Post (answering True) i (.sendRawCmd p cmd) r' d.state := ok.post returns'
    cases sameRes with
    | refl => exact post.2 reply rfl trivial
    | sendRawCmd same =>
      obtain rfl := same.ok
      exact post.2 reply rfl trivial
  · intro t traced
    obtain ⟨before, u, split, leads⟩ := traced.leads (fun _ => rfl) returns
    obtain ⟨r, path, same⟩ := (Prog.path_map _ _ _ _).mp leads.path
    cases same
    rw [split]
    exact (fullSendRawCmd_exchanged path).after before

/-- The steps of a `Get` that opens a connection -/
def opens : List FullChoice :=
  [.mem .go, .mem .go, .go, .go, .number 3, .go, .go, .go, .go, .go, .number 0, .go, .go, .go].map
    .proc ++ List.replicate 10 (.proc (.mem .go))

/-- A `PING` that is sent at the second try, and answered after the message `<3>` -/
def pings : List (Label (Fin 1) FullChoice Call) :=
  uninterrupted 0 (.get (lit "a")) opens ++
    .start 0 (.sendRawCmd 0 (lit "PING")) ::
    [.proc (.mem .go), .proc (.mem .go), .proc .go, .io .go, .io .go, .io (.fail Errno.eagain),
      .io .go, .time (some ⟨5, 0⟩), .io .go, .io .go].map (.step 0) ++
    [.env (.proc (.mem (.message 0 (lit "<3>")))), .step 0 (.io .go), .step 0 (.io .go),
      .env (.proc (.mem (.answer 0 0 (lit "PONG\n")))), .step 0 (.io .go), .step 0 (.io .go),
      .step 0 (.io .go), .step 0 (.proc (.mem .go))]

/-- Caller 0 is about to return `PONG`. -/
def ponged (c : Config (Fin 1) FullOp FullAns (Process (Fin 1)) Call Res) : Bool :=
  match c.thread 0 with
  | .running (.sendRawCmd 0 _) (.ret (.sendRawCmd (.ok reply))) => reply.text = lit "PONG\n"
  | _ => false

theorem daemon_refines_ping : ∃ c d,
    Reach (daemon (Fin 1) ⟨[], [], 0⟩ 7 4) (ownCalls fun _ _ _ _ => true)
      (booted (Fin 1) fun _ => false) c ∧ ponged c = true ∧
    Reach (system (Fin 1) ⟨[], [], 0⟩) disciplined (initial (Fin 1)) d ∧ Represents c d := by
  obtain ⟨c, run, last⟩ := exists_reach (daemon (Fin 1) ⟨[], [], 0⟩ 7 4)
    (booted (Fin 1) fun _ => false) usesOwn (fun _ _ _ _ => true) pings ponged (by decide +kernel)
  obtain ⟨d, above, same⟩ := daemon_refines run
  exact ⟨c, d, run, last, above, same⟩

theorem datagram_answers_ping :
    ∃ c t, Traced (daemon (Fin 1) ⟨[], [], 0⟩ 7 4) (ownCalls sendsWhenAnswered)
        (booted (Fin 1) fun _ => false) t c ∧
      ∃ cmd reply, c.thread 0 = .running (.sendRawCmd 0 cmd) (.ret (.sendRawCmd (.ok reply))) ∧
        reply.text = lit "PONG\n" ∧ reply.origin = some reply.command ∧
        FullyExchanged 0 cmd reply (performed 0 t) := by
  obtain ⟨c, run, last⟩ := exists_reach (daemon (Fin 1) ⟨[], [], 0⟩ 7 4)
    (booted (Fin 1) fun _ => false) usesOwn sendsWhenAnswered pings ponged (by decide +kernel)
  obtain ⟨t, traced⟩ := run.exists_traced
  simp only [ponged] at last
  split at last
  next cmd reply returns =>
    obtain ⟨own, exchanged⟩ := datagram_answers run 0 cmd reply returns
    exact ⟨c, t, traced, cmd, reply, returns, of_decide_eq_true last, own, exchanged t traced⟩
  · cases last

end HostapdGrpc.Socket
