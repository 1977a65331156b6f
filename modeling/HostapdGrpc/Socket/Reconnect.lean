import HostapdGrpc.Interaction.Execution
import HostapdGrpc.Socket.Soundness

/-!
# One exchange among others

How a `SendRawCmd` fails that starts in a given state, if other goroutines and the peers step
between its steps: with a `RequestError`, with the error of the `Open` in `reconnect`, or so that
the process ends.
-/

namespace HostapdGrpc.Socket

open Go Interaction

/-! ### Exchanges -/

/-- A method of the nil `Socket`, a request on a `Socket` that wraps `NULL`, and a panic end the
process. `Open` returns such a `Socket` where `wpa_ctrl_open2` fails and leaves `errno` unset; they
are those with `null`. -/
def Op.endsProcess (null : Conn → Bool) (op : Op) : Bool :=
  match op with
  | .send none _ | .closeSock none | .panic => true
  | .send (some c) _ => null c
  | _ => false

/-- An `Open` of `reconnect` fails: with an error, or with a `Socket` that wraps `NULL`. -/
def reopenFails (null : Conn → Bool) (u : List (Sigma Ans)) : Bool :=
  u.any fun e =>
    match e with
    | ⟨.openSock _ _, .error _⟩ => true
    | ⟨.openSock _ _, .ok c⟩ => null c
    | _ => false

section
variable {ι : Type} [DecidableEq ι]

/-- How the operations of goroutine `i` are answered, with others stepping in between -/
def amongOthers (null : Conn → Bool) (i : ι) : Answering Op Ans (State ι) where
  step op s x s' := ∃ ch t, s.exec i op ch = some (x, t) ∧ Rely i t s'
  ends op := op.endsProcess null = true

/-- `sh` has a `Socket` to send on. -/
def State.Connected (s : State ι) (null : Conn → Bool) (sh : Ptr) : Prop :=
  ∃ c, s.heap.s sh = some c ∧ null c = false

/-- A `SendRawCmd` that goroutine `i` makes on `sh` fails: it gets `sh.smu` in the state `s`,
performs `u`, and returns an error, or the process ends. -/
inductive Fails (null : Conn → Bool) (i : ι) (s : State ι) (sh : Ptr) (cmd : GoString)
    (u : List (Sigma Ans)) : Option GoError → Prop where
  | returns {err : GoError} {s' : State ι} (runs : (SharedSocket.sendRawCmd sh cmd).Runs
      (amongOthers null i) s u (some (.error err, s'))) : Fails null i s sh cmd u (some err)
  | ends (runs : (SharedSocket.sendRawCmd sh cmd).Runs (amongOthers null i) s u none) :
      Fails null i s sh cmd u none

/-! ### While `smu` is held -/

/-- Goroutine `i` holds `smu` of `sh`, and `v` is the `Socket`. -/
structure Sending (i : ι) (sh : Ptr) (v : Option Conn) (s : State ι) : Prop where
  smu : s.heap.smu sh = some i
  sock : s.heap.s sh = v

variable {null : Conn → Bool} {i : ι} {sh : Ptr} {v : Option Conn} {s s' t : State ι}
  {u : List (Sigma Ans)}

omit [DecidableEq ι] in
theorem Sending.rely (held : Sending i sh v s) (rely : Rely i s s') : Sending i sh v s' :=
  ⟨(rely.smu sh).mpr held.smu, (rely.underSmu sh held.smu).trans held.sock⟩

/-- The system calls and the reads leave the `sharedSocket`s alone. -/
def Op.leavesHeap : Op → Bool
  | .sock _ | .device _ | .openSock _ _ | .send _ _ | .recv _ | .closeSock _ => true
  | _ => false

theorem exec_leavesHeap {op : Op} {ch : Choice} {x : Ans op} (leaves : op.leavesHeap = true)
    (done : s.exec i op ch = some (x, t)) : t.heap = s.heap := by
  cases op with
  | sock p | device p =>
    cases done
    rfl
  | openSock device clientDir =>
    cases ch <;> simp only [State.exec] at done <;> (try split at done) <;> cases done <;> rfl
  | send c cmd =>
    cases c <;> cases ch <;> simp only [State.exec] at done <;> (try split at done) <;>
      cases done <;> rfl
  | recv c =>
    cases ch <;> simp only [State.exec, State.recv] at done <;> (try split at done) <;>
      cases done <;> rfl
  | closeSock c =>
    cases c <;> cases ch <;> simp only [State.exec] at done <;> (try split at done) <;>
      cases done <;> rfl
  | _ => cases leaves

theorem Sending.step {op : Op} {x : Ans op} (held : Sending i sh v s)
    (leaves : op.leavesHeap = true) (answered : (amongOthers null i).step op s x s') :
    Sending i sh v s' := by
  obtain ⟨ch, t, done, rely⟩ := answered
  have same := exec_leavesHeap leaves done
  have at_t : Sending i sh v t := ⟨by rw [same, held.smu], by rw [same, held.sock]⟩
  exact at_t.rely rely

theorem Sending.read {c : Option Conn} (held : Sending i sh v s)
    (answered : (amongOthers null i).step (.sock sh) s c s') : c = v := by
  obtain ⟨ch, t, done, _⟩ := answered
  cases done
  exact held.sock

theorem Sending.set {c : Option Conn} (held : Sending i sh v s)
    (answered : (amongOthers null i).step (.setSock sh c) s () s') : Sending i sh c s' := by
  obtain ⟨ch, t, done, rely⟩ := answered
  have at_t : Sending i sh c t := by
    cases c with
    | none =>
      cases done
      exact ⟨held.smu, Function.update_self ..⟩
    | some c =>
      cases done
      exact ⟨held.smu, Function.update_self ..⟩
  exact at_t.rely rely

theorem Sending.of_lock (answered : (amongOthers null i).step (.lock (.smu sh)) s () s') :
    Sending i sh (s.heap.s sh) s' := by
  obtain ⟨ch, t, done, rely⟩ := answered
  simp only [State.exec] at done
  split at done
  · cases done
    have at_t : Sending i sh (s.heap.s sh) (s.setHolder (.smu sh) (some i)) :=
      ⟨Function.update_self .., rfl⟩
    exact at_t.rely rely
  · cases done

/-- A step with none of the others after it -/
theorem runs_alone {α : Type} {op : Op} {k : Ans op → Act α} {x : Ans op}
    {out : Option (α × State ι)} (ch : Choice) (safe : op.endsProcess null = false)
    (done : s.exec i op ch = some (x, t)) (rest : (k x).Runs (amongOthers null i) t u out) :
    (Prog.call op k).Runs (amongOthers null i) s (⟨op, x⟩ :: u) out :=
  .step (ne_true_of_eq_false safe) ⟨ch, t, done, Rely.refl i t⟩ rest

/-! ### The error of an exchange -/

private theorem reopenFails_cons (e : Sigma Ans) (other : ∀ device clientDir, e.1 ≠ .openSock device
    clientDir) : reopenFails null (e :: u) = reopenFails null u := by
  obtain ⟨op, ans⟩ := e
  cases op <;> first | rfl | exact absurd rfl (other _ _)

private theorem reopenFails_append (u v : List (Sigma Ans)) :
    reopenFails null (u ++ v) = (reopenFails null u || reopenFails null v) :=
  List.any_append

/-- An operation that never ends the process -/
private theorem runs_act {α : Type} {op : Op} {f : Ans op → Act α} {out : Option (α × State ι)}
    (safe : op.endsProcess null = false)
    (runs : (act op >>= f).Runs (amongOthers null i) s u out) :
    ∃ x s' v, (amongOthers null i).step op s x s' ∧ u = ⟨op, x⟩ :: v ∧
      (f x).Runs (amongOthers null i) s' v out :=
  (Prog.runs_step (ne_true_of_eq_false safe)).mp runs

/-- Without a `Socket` to send on, a request ends the process. -/
theorem runs_unconnected {α : Type} {c : Option Conn} {cmd : GoString}
    {f : Except GoError Reply → Act α} {out : Option (α × State ι)} (missing : c.all null = true)
    (runs : (WpaCtrl.sendRawCmd c cmd >>= f).Runs (amongOthers null i) s u out) :
    u = [] ∧ out = none := by
  have ends : (Op.send c cmd).endsProcess null = true := by
    cases c with
    | none => rfl
    | some c => exact missing
  exact (Prog.runs_ends (A := amongOthers null i) ends).mp runs

private theorem reply_length {c : Conn} {d : Datagram}
    (answered : (amongOthers null i).step (.recv c) s (.reply d) s') :
    d.text.length ≤ State.bufSize := by
  obtain ⟨ch, t, done, _⟩ := answered
  cases ch <;> simp only [State.exec, State.recv] at done <;> (try split at done) <;> cases done
  exact List.length_take_le _ _

private theorem runs_request {c : Conn} {cmd : GoString}
    {out : Option ((Int × Errno × Reply) × State ι)} (there : null c = false)
    (held : Sending i sh v s)
    (runs : (WpaCtrl.request (some c) cmd).Runs (amongOthers null i) s u out) :
    ∃ ret errno reply s', out = some ((ret, errno, reply), s') ∧ Sending i sh v s' ∧
      reopenFails null u = false ∧ reply.text.length ≤ State.bufSize := by
  have safe : (Op.send (some c) cmd).endsProcess null = false := there
  obtain ⟨sent, s₁, _, sends, rfl, goes_on⟩ := runs_act safe runs
  have held₁ := held.step rfl sends
  rw [reopenFails_cons _ (by simp)]
  cases sent with
  | error e =>
    obtain ⟨rfl, rfl⟩ := Prog.runs_ret.mp goes_on
    exact ⟨-1, e, _, s₁, rfl, held₁, rfl, Nat.zero_le _⟩
  | ok id =>
    obtain ⟨received, s₂, _, waits, rfl, returns⟩ := runs_act rfl goes_on
    have held₂ := held₁.step rfl waits
    rw [reopenFails_cons _ (by simp)]
    cases received with
    | reply d =>
      obtain ⟨rfl, rfl⟩ := Prog.runs_ret.mp returns
      exact ⟨0, 0, _, s₂, rfl, held₂, rfl, reply_length waits⟩
    | timeout =>
      obtain ⟨rfl, rfl⟩ := Prog.runs_ret.mp returns
      exact ⟨-2, 0, _, s₂, rfl, held₂, rfl, Nat.zero_le _⟩
    | failed e =>
      obtain ⟨rfl, rfl⟩ := Prog.runs_ret.mp returns
      exact ⟨-1, e, _, s₂, rfl, held₂, rfl, Nat.zero_le _⟩

/-- With one it returns, opens nothing, and fails with a `RequestError` only. -/
theorem runs_connected {α : Type} {c : Conn} {cmd : GoString} {f : Except GoError Reply → Act α}
    {out : Option (α × State ι)} (there : null c = false) (held : Sending i sh v s)
    (runs : (WpaCtrl.sendRawCmd (some c) cmd >>= f).Runs (amongOthers null i) s u out) :
    ∃ first second res s', u = first ++ second ∧ reopenFails null first = false ∧
      (∀ err, res = .error err → ∃ r, err = .request r) ∧ Sending i sh v s' ∧
        (f res).Runs (amongOthers null i) s' second out := by
  unfold WpaCtrl.sendRawCmd at runs
  rw [bind_assoc] at runs
  obtain ⟨_, ended⟩ | ⟨first, second, answer, s', rfl, requested, judged⟩ := Prog.runs_bind runs
  · obtain ⟨_, _, _, _, returned, _⟩ := runs_request there held ended
    cases returned
  · obtain ⟨ret, errno, reply, s', returned, held', quiet, fits⟩ :=
      runs_request there held requested
    cases returned
    refine ⟨first, second, ?_⟩
    simp only at judged
    split at judged
    · exact ⟨_, s', rfl, quiet, fun err same => ⟨_, (Except.error.inj same).symm⟩, held', judged⟩
    -- A reply fits its buffer, so this is not the panic.
    · rw [if_neg (not_lt.mpr fits)] at judged
      exact ⟨_, s', rfl, quiet, (fun err same => by cases same), held', judged⟩

private theorem open_error {device clientDir : GoString} {err : GoError}
    (answered : (amongOthers null i).step (.openSock device clientDir) s (.error err) s') :
    ∃ e, err = .errno e := by
  obtain ⟨ch, t, done, _⟩ := answered
  cases ch <;> simp only [State.exec] at done <;> (try split at done) <;> cases done
  exact ⟨_, rfl⟩

/-- `reconnect` returns. It fails exactly if its `Open` returns an error, with the `errno` of
that. -/
private theorem returned_reconnect {c : Conn} {out : Option (Option GoError × State ι)}
    (held : Sending i sh (some c) s)
    (runs : (SharedSocket.reconnect sh).Runs (amongOthers null i) s u out) :
    ∃ failed s', out = some (failed, s') ∧
      ((∃ d, failed = none ∧ reopenFails null u = null d ∧ Sending i sh (some d) s') ∨
        ∃ e, failed = some (.errno e) ∧ reopenFails null u = true ∧ Sending i sh none s') := by
  obtain ⟨old, _, _, reads, rfl, closing⟩ := runs_act rfl runs
  have held₁ := held.step rfl reads
  obtain rfl := held.read reads
  obtain ⟨_, _, _, closes, rfl, clearing⟩ := runs_act rfl closing
  have held₂ := held₁.step rfl closes
  obtain ⟨_, _, _, clears, rfl, reading⟩ := runs_act rfl clearing
  have held₃ := held₂.set clears
  obtain ⟨dirs, _, _, fields, rfl, opening⟩ := runs_act rfl reading
  have held₄ := held₃.step rfl fields
  obtain ⟨opened, _, _, opens, rfl, storing⟩ := runs_act rfl opening
  have held₅ := held₄.step rfl opens
  -- Either way the assignment to `sh.s` is made, of nil if `Open` failed.
  cases opened with
  | error err =>
    obtain ⟨e, rfl⟩ := open_error opens
    obtain ⟨_, s', _, stores, rfl, returns⟩ := runs_act rfl storing
    obtain ⟨rfl, rfl⟩ := Prog.runs_ret.mp returns
    exact ⟨_, s', rfl, .inr ⟨e, rfl, by simp [reopenFails], held₅.set stores⟩⟩
  | ok d =>
    obtain ⟨_, s', _, stores, rfl, returns⟩ := runs_act rfl storing
    obtain ⟨rfl, rfl⟩ := Prog.runs_ret.mp returns
    exact ⟨_, s', rfl, .inl ⟨d, rfl, by simp [reopenFails], held₅.set stores⟩⟩

theorem runs_reconnect {α : Type} {c : Conn} {f : Option GoError → Act α}
    {out : Option (α × State ι)} (held : Sending i sh (some c) s)
    (runs : (SharedSocket.reconnect sh >>= f).Runs (amongOthers null i) s u out) :
    ∃ first second failed s', u = first ++ second ∧
      ((∃ d, failed = none ∧ reopenFails null first = null d ∧ Sending i sh (some d) s') ∨
        ∃ e, failed = some (.errno e) ∧ reopenFails null first = true ∧ Sending i sh none s') ∧
      (f failed).Runs (amongOthers null i) s' second out := by
  obtain ⟨_, ended⟩ | ⟨first, second, failed, s', rfl, runs, goes_on⟩ := Prog.runs_bind runs
  · obtain ⟨_, _, returned, _⟩ := returned_reconnect held ended
    cases returned
  · obtain ⟨_, _, returned, reconnects⟩ := returned_reconnect held runs
    cases returned
    exact ⟨first, second, failed, s', rfl, reconnects, goes_on⟩

/-- The request on what `reconnect` has opened -/
private theorem runs_again {d : Conn} {cmd : GoString}
    {out : Option (Except GoError Reply × State ι)} (held : Sending i sh (some d) s)
    (runs : (do
      let s ← act (.sock sh)
      let res ← WpaCtrl.sendRawCmd s cmd
      act (.unlock (.smu sh))
      pure res : Act (Except GoError Reply)).Runs (amongOthers null i) s u out) :
    reopenFails null u = false ∧ (null d = true ∧ out = none ∨ null d = false ∧
      ∃ res s', out = some (res, s') ∧ ∀ err, res = .error err → ∃ r, err = .request r) := by
  obtain ⟨c, _, _, reads, rfl, requesting⟩ := runs_act rfl runs
  obtain rfl := held.read reads
  rw [reopenFails_cons _ (by simp)]
  cases wraps : null d with
  | true =>
    have missing : (some d).all null = true := wraps
    obtain ⟨rfl, rfl⟩ := runs_unconnected missing requesting
    exact ⟨rfl, .inl ⟨rfl, rfl⟩⟩
  | false =>
    obtain ⟨_, _, res, _, rfl, quiet, errors, _, unlocking⟩ :=
      runs_connected wraps (held.step rfl reads) requesting
    obtain ⟨_, s', _, _, rfl, returns⟩ := runs_act rfl unlocking
    obtain ⟨rfl, rfl⟩ := Prog.runs_ret.mp returns
    rw [reopenFails_append, quiet, reopenFails_cons _ (by simp)]
    exact ⟨rfl, .inr ⟨rfl, res, s', rfl, errors⟩⟩

/-- What an exchange comes to: without a `Socket` to send on the process ends. With one, and if
no `Open` fails, it returns, and fails with a `RequestError` only. -/
theorem runs_exchange {cmd : GoString} {out : Option (Except GoError Reply × State ι)}
    (runs : (SharedSocket.sendRawCmd sh cmd).Runs (amongOthers null i) s u out) :
    (¬s.Connected null sh ∧ out = none) ∨
      (s.Connected null sh ∧ reopenFails null u = false ∧ ∃ res s', out = some (res, s') ∧
        ∀ err, res = .error err → ∃ r, err = .request r) ∨
      reopenFails null u = true ∧
        (out = none ∨ ∃ e s', out = some (.error (.errno e), s')) := by
  obtain ⟨_, _, _, locks, rfl, reading⟩ := runs_act rfl runs
  -- From here to the unlock the field `s` is this goroutine's.
  have held := Sending.of_lock locks
  obtain ⟨c, _, _, reads, rfl, requesting⟩ := runs_act rfl reading
  obtain rfl := held.read reads
  have held₁ := held.step rfl reads
  rw [reopenFails_cons _ (by simp), reopenFails_cons _ (by simp)]
  by_cases missing : (s.heap.s sh).all null = true
  · have unconnected : ¬s.Connected null sh := by
      rintro ⟨c, at_c, there⟩
      simp [at_c, there] at missing
    exact .inl ⟨unconnected, (runs_unconnected missing requesting).2⟩
  have connected : s.Connected null sh := by
    cases at_c : s.heap.s sh with
    | none => simp [at_c] at missing
    | some c => exact ⟨c, at_c, by simpa [at_c] using missing⟩
  obtain ⟨c, at_c, there⟩ := connected
  rw [at_c] at requesting held₁
  -- The first request opens nothing, so what it returned and `judged` decide.
  obtain ⟨_, _, res, _, rfl, quiet, errors, held₂, judged⟩ := runs_connected there held₁ requesting
  rw [reopenFails_append, quiet, Bool.false_or]
  cases res with
  | ok reply =>
    obtain ⟨_, s', _, _, rfl, returns⟩ := runs_act rfl judged
    obtain ⟨rfl, rfl⟩ := Prog.runs_ret.mp returns
    exact .inr (.inl ⟨⟨c, at_c, there⟩, rfl, _, s', rfl, fun err same => by cases same⟩)
  | error err =>
    simp only at judged
    split at judged
    -- A dead socket: what `reconnect` opens decides.
    · obtain ⟨_, _, failed, _, rfl, reconnects, goes_on⟩ := runs_reconnect held₂ judged
      rw [reopenFails_append]
      obtain ⟨d, rfl, reopened, held₃⟩ | ⟨e, rfl, reopened, _⟩ := reconnects
      · obtain ⟨quiet', ⟨wraps, rfl⟩ | ⟨there', ends⟩⟩ := runs_again held₃ goes_on
        · exact .inr (.inr ⟨by rw [reopened, wraps, Bool.true_or], .inl rfl⟩)
        · refine .inr (.inl ⟨⟨c, at_c, there⟩, ?_, ends⟩)
          rw [reopened, there', quiet', Bool.or_false]
      -- The error of `Open` goes to the caller as it is, and is no `RequestError`.
      · obtain ⟨_, s', _, _, rfl, returns⟩ := runs_act rfl goes_on
        obtain ⟨rfl, rfl⟩ := Prog.runs_ret.mp returns
        exact .inr (.inr ⟨by rw [reopened, Bool.true_or], .inr ⟨e, s', rfl⟩⟩)
    -- A timeout, or an error after which the connection is kept
    · obtain ⟨_, s', _, _, rfl, returns⟩ := runs_act rfl judged
      obtain ⟨rfl, rfl⟩ := Prog.runs_ret.mp returns
      refine .inr (.inl ⟨⟨c, at_c, there⟩, rfl, _, s', rfl, fun err' same => ?_⟩)
      exact errors err' same

/-- So it fails with a `RequestError` exactly if it has a `Socket` to send on and no `Open`
fails. Otherwise it fails with an `errno`, or the process ends. -/
theorem Fails.cases {cmd : GoString} {failed : Option GoError}
    (fails : Fails null i s sh cmd u failed) :
    ((s.Connected null sh ∧ reopenFails null u = false) ∧ ∃ r, failed = some (.request r)) ∨
      (¬(s.Connected null sh ∧ reopenFails null u = false) ∧
        (failed = none ∨ ∃ e, failed = some (.errno e))) := by
  cases fails with
  | returns runs =>
    obtain ⟨_, ended⟩ | ⟨connected, quiet, _, _, returned, errors⟩ |
      ⟨failed, ended | ⟨e, _, same⟩⟩ := runs_exchange runs
    · cases ended
    · cases returned
      obtain ⟨r, rfl⟩ := errors _ rfl
      exact .inl ⟨⟨connected, quiet⟩, r, rfl⟩
    · cases ended
    · cases same
      exact .inr ⟨by simp [failed], .inr ⟨e, rfl⟩⟩
  | ends runs =>
    obtain ⟨unconnected, _⟩ | ⟨_, _, _, _, returned, _⟩ | ⟨failed, _⟩ := runs_exchange runs
    · exact .inr ⟨fun both => unconnected both.1, .inl rfl⟩
    · cases returned
    · exact .inr ⟨by simp [failed], .inl rfl⟩

/-! ### The exchanges of a run -/

/-- No `Socket` wraps `NULL`. -/
abbrev noneNull : Conn → Bool := fun _ => false

variable [Fintype ι] {m : Manager} {c : Config ι Op Ans (State ι) Call Res}
  {done : List (ι × Sigma Ans)} {cmd : GoString}

/-- In a run of the callers of a manager, what a caller performs in a `SendRawCmd` is an execution
among others. -/
theorem execution_of_run (run : Traced (system ι m) disciplined (initial ι) done c) {p : Act Res}
    (running : c.thread i = .running (.sendRawCmd sh cmd) p) {out : Option (Res × State ι)}
    (rest : p.Runs (amongOthers noneNull i) c.state [] out) :
    ∃ before u s mid, performed i done = before ++ u ∧
      (SharedSocket.sendRawCmd sh cmd).Runs (amongOthers noneNull i) s u mid ∧
        out = mid.map fun r => (.sendRawCmd r.1, r.2) := by
  have run' : Traced (system ι m) (Assumptions.condition ⟨False, False, False, False⟩ m)
      (initial ι) done c :=
    Reach.weaken (C := disciplined.traced) (fun _ _ _ h => h)
      (fun _ _ _ _ _ => ⟨False.elim, False.elim, False.elim, False.elim⟩) run
  -- What ends the process has no step in a run.
  have stops : ∀ i op ch (s : State ι), Op.endsProcess noneNull op = true →
      s.exec i op ch = none := by
    intro i op ch s ends
    cases op with
    | send c cmd =>
      cases c with
      | none => rfl
      | some c => cases ends
    | closeSock c =>
      cases c with
      | none => rfl
      | some c => cases ends
    | panic => rfl
    | _ => cases ends
  obtain ⟨before, u, s, split, runs⟩ :=
    Traced.execution (L := proof ι ⟨False, False, False, False⟩ m) run' (reach_ok .refl)
      (fun _ => rfl) stops running rest
  rw [List.append_nil] at runs
  obtain ⟨mid, runs, same⟩ := Prog.runs_map runs
  exact ⟨before, u, s, mid, split, runs, same⟩

/-- One that returns an error has failed, -/
theorem fails_of_error (run : Traced (system ι m) disciplined (initial ι) done c) {err : GoError}
    (returned : c.thread i = .running (.sendRawCmd sh cmd) (.ret (.sendRawCmd (.error err)))) :
    ∃ before u s, performed i done = before ++ u ∧ Fails noneNull i s sh cmd u (some err) := by
  obtain ⟨before, u, s, mid, split, runs, same⟩ := execution_of_run run returned (.ret _ _)
  cases mid with
  | none => cases same
  | some r =>
    obtain ⟨res, s'⟩ := r
    cases same
    exact ⟨before, u, s, split, .returns runs⟩

/-- and so has one whose next operation ends the process. -/
theorem fails_of_end (run : Traced (system ι m) disciplined (initial ι) done c) {op : Op}
    {k : Ans op → Act Res} (at_op : c.thread i = .running (.sendRawCmd sh cmd) (.call op k))
    (ends : op.endsProcess noneNull = true) :
    ∃ before u s, performed i done = before ++ u ∧ Fails noneNull i s sh cmd u none := by
  obtain ⟨before, u, s, mid, split, runs, same⟩ := execution_of_run run at_op (.ends ends)
  cases mid with
  | none => exact ⟨before, u, s, split, .ends runs⟩
  | some r => cases same

end

end HostapdGrpc.Socket
