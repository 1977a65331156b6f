import HostapdGrpc.Interaction.RelyGuarantee
import HostapdGrpc.Socket.Naming

/-!
# Client paths

A client path is named after the counter, which all `Open`s of the process share. As long as
each formats its path before another increments the counter, no two connections get the same.
-/

namespace HostapdGrpc.Socket

open Go Interaction

variable {ι : Type} [DecidableEq ι]

/-! ### The logic -/

/-- Each `Open` formats its path before another one increments the counter, also when it binds
again; and the counter does not overflow. -/
def formatsOwn (i : ι) (op : ProcOp) (_ : ProcChoice) (s : Process ι) : Bool :=
  match op with
  | .sys _ .incCounter => s.naming.counter < intMax
  | .sys _ .counter => s.naming.mine i = some s.naming.counter
  | _ => true

def unraced : Condition ι ProcOp (Process ι) ProcChoice Call :=
  .checked (fun _ _ _ => true) formatsOwn

namespace Naming.Rely

variable {i : ι} {n n' n'' : Naming ι}

omit [DecidableEq ι] in
theorem refl (i : ι) (n : Naming ι) : Rely i n n := ⟨rfl, fun nonneg => ⟨nonneg, fun _ _ => id⟩⟩

omit [DecidableEq ι] in
theorem trans (first : Rely i n n') (second : Rely i n' n'') : Rely i n n'' := by
  refine ⟨second.mine.trans first.mine, fun nonneg => ?_⟩
  obtain ⟨nonneg', later⟩ := second.spent nonneg
  obtain ⟨nonneg'', before⟩ := first.spent nonneg'
  exact ⟨nonneg'', fun path own spent => later path own (before path own spent)⟩

end Naming.Rely

def pathLogic (ι : Type) [DecidableEq ι] (m : Manager) (pid : Int) :
    Logic ι ProcOp ProcAns (Process ι) ProcChoice Call Res where
  sys := process ι m pid
  cond := unraced
  inv s := s.naming.Ok
  rely i s s' := Naming.Rely i s.naming s'.naming
  bad i op s := s.naming.Reckless i op
  rely_refl i s := .refl i s.naming
  rely_trans _ _ _ _ := .trans
  guarantee _ _ _ _ _ _ ok safe done _ := (step_of_procExec done).rely_of_ne ok safe

variable {m : Manager} {pid : Int} {i : ι} {α : Type} {P : Process ι → Prop}

private theorem pathLogic_step {s s' : Process ι} {op : ProcOp} {ch : ProcChoice} {a : ProcAns op}
    (done : (pathLogic ι m pid).sys.exec i op ch s = some (a, s')) :
    s.naming.Step i op s'.naming := step_of_procExec done

private theorem mine_stable (k : Int) :
    (pathLogic ι m pid).Stable i fun s => s.naming.mine i = some k :=
  fun _ _ _ _ rely mine => rely.mine.trans mine

private theorem spent_stable (path : GoString) (own : Option Fd) :
    (pathLogic ι m pid).Stable i fun s => s.naming.Spent path own :=
  fun _ _ _ ok rely spent => (rely.spent ok.nonneg).2 path own spent

/-- An operation that does not concern the caller's number -/
private theorem proc_kept {op : ProcOp} (other : ¬ Naming.Uses op)
    (stable : (pathLogic ι m pid).Stable i P)
    (safe : ∀ s, s.naming.Ok → P s → ¬ s.naming.Reckless i op) :
    (pathLogic ι m pid).Triple i P (proc op) fun _ => P := by
  refine .perform safe (fun s ch a s' ok pre _ done => ?_) fun _ => stable
  have step := pathLogic_step done
  have ok' := step.ok ok (safe s ok pre) fun own increments => by
    subst increments
    exact absurd trivial other
  exact ⟨ok', stable s s' ok ok' (step.rely_self ok (safe s ok pre) other) pre⟩

/-! ### `Open` -/

/-- The first system call of a program -/
private theorem triple_sys {own : Option Fd} {op : SysOp} {f : SysAns op → CAct α}
    {R : SysAns op → Process ι → Prop} {Q : α → Process ι → Prop}
    (first : (pathLogic ι m pid).Triple i P (proc (.sys own op) : ProcAct (SysAns op)) R)
    (second : ∀ x, (pathLogic ι m pid).Triple i (R x) (sysBy own (f x)) Q) :
    (pathLogic ι m pid).Triple i P (sysBy own (sys op >>= f)) Q :=
  first.bind second

private theorem triple_sysBy {β : Type} {own : Option Fd} {p : CAct β} {f : β → CAct α}
    {R : β → Process ι → Prop} {Q : α → Process ι → Prop}
    (first : (pathLogic ι m pid).Triple i P (sysBy own p) R)
    (second : ∀ x, (pathLogic ι m pid).Triple i (R x) (sysBy own (f x)) Q) :
    (pathLogic ι m pid).Triple i P (sysBy own (p >>= f)) Q := by
  rw [sysBy, Prog.interpret_bind]
  exact first.bind second

private theorem always_stable : (pathLogic ι m pid).Stable i fun _ => True := .const True

private theorem incCounter_spec (own : Option Fd) :
    (pathLogic ι m pid).Triple i (fun _ => True) (proc (.sys own .incCounter) : ProcAct Unit)
      fun _ _ => True := by
  refine .perform (fun _ _ _ bad => bad) (fun s ch a s' ok _ small done => ⟨?_, trivial⟩)
    fun _ => always_stable
  exact (pathLogic_step done).ok ok id fun _ _ => of_decide_eq_true small

/-- The counter is read with the value of the caller's own increment. -/
private theorem counter_spec (own : Option Fd) :
    (pathLogic ι m pid).Triple i (fun _ => True) (proc (.sys own .counter) : ProcAct Int)
      fun counter s => s.naming.mine i = some counter := by
  refine .perform (fun _ _ _ bad => bad) (fun s ch a s' ok _ own' done => ?_) mine_stable
  cases done
  exact ⟨ok, of_decide_eq_true own'⟩

private theorem snprintf_spec (own : Option Fd) (text : GoString)
    (stable : (pathLogic ι m pid).Stable i P) :
    (pathLogic ι m pid).Triple i P (sysBy own (snprintf text)) fun path s =>
      P s ∧ (path = none ∨ path = some text) := by
  unfold snprintf
  split
  · refine triple_sys (proc_kept id stable fun _ _ _ => id) fun _ => ?_
    exact .ret _ fun s _ pre => ⟨pre, .inl rfl⟩
  · split
    · exact .ret _ fun s _ pre => ⟨pre, .inl rfl⟩
    · exact .ret _ fun s _ pre => ⟨pre, .inr rfl⟩

/-- What a `bind` leaves: a path that is spent, or one that is still to be bound -/
def Bound (i : ι) (a : Fd) (path : GoString) (done : Bool) (s : Process ι) : Prop :=
  if done then s.naming.Spent path (some a) else s.naming.mine i = some (pathNumber path)

private theorem bind_spec (own : Option Fd) (a : Fd) (path : GoString) :
    (pathLogic ι m pid).Triple i (fun s => s.naming.mine i = some (pathNumber path))
      (proc (.sys own (.bind a path)) : ProcAct Bool) (Bound i a path) := by
  refine .perform (fun s _ number bad => bad number) (fun s ch b s' ok number _ done => ?_) ?_
  · have ok' := (pathLogic_step done).ok ok (not_not.mpr number) fun _ other => by cases other
    refine ⟨ok', ?_⟩
    cases ch with
    | go =>
      simp only [pathLogic, process, Process.exec, Process.sysExec] at done
      split at done
      · cases done
        exact ok.spent_bound number
      · cases done
    | fail e =>
      simp only [pathLogic, process, Process.exec, Process.sysExec] at done
      split at done
      · cases done
      · obtain ⟨rfl, same⟩ := failing_spec done
        rw [← same] at number
        exact number
    | mem _ | number _ => cases done
  · intro done
    cases done with
    | false => exact mine_stable _
    | true => exact spent_stable _ _

private theorem unlink_spec {own : Option Fd} {path : GoString}
    (stable : (pathLogic ι m pid).Stable i P)
    (unbound : ∀ s, s.naming.Ok → P s → ∀ a, s.naming.fd a = some (some path) → own = some a) :
    (pathLogic ι m pid).Triple i P (proc (.sys own (.unlink path)) : ProcAct Bool) fun _ => P :=
  proc_kept id stable fun s ok pre => not_not.mpr (unbound s ok pre)

/-- A path that `tryBind` returns is spent, whichever turn it is bound in. -/
private theorem tryBind_spec (a : Fd) (cliPath : GoString) (retries : Nat) :
    (pathLogic ι m pid).Triple i (fun _ => True) (sysBy none (tryBind a cliPath retries))
      fun path s => ∀ p, path = some p → s.naming.Spent p (some a) := by
  have none_bound : ∀ {P : Process ι → Prop}, (pathLogic ι m pid).Triple i P
      (sysBy none (pure none) : ProcAct (Option GoString))
      fun path s => ∀ p, path = some p → s.naming.Spent p (some a) :=
    .ret none fun _ _ _ _ same => by cases same
  induction retries with
  | zero => ?_
  | succ retries ih => ?_
  -- Every turn reads the counter anew, so nothing is carried from one to the next.
  all_goals
    rw [tryBind]
    refine triple_sys (proc_kept id always_stable fun _ _ _ => id) fun pid' => ?_
    refine triple_sys (counter_spec none) fun counter => ?_
    refine .assume (fun s ok mine => (ok.below i counter mine).1) fun pos => ?_
    have number := pathNumber_clientPath cliPath pid' (Int.le_of_lt pos)
    refine triple_sysBy (snprintf_spec none _ (mine_stable counter)) fun path => ?_
    refine .assume (fun _ _ pre => pre.2) fun text => ?_
    rcases text with rfl | rfl
    · exact none_bound
    refine triple_sys ((bind_spec none a _).weaken (fun s _ pre => ?_) fun _ _ _ => id)
      fun done => ?_
    · rw [number]
      exact pre.1
    cases done
    case true =>
      refine .ret _ fun s _ spent p same => ?_
      cases same
      exact spent
    rw [if_neg Bool.false_ne_true]
    refine triple_sys (proc_kept id (mine_stable _) fun _ _ _ => id) fun errno => ?_
  · exact none_bound
  · dsimp only
    split
    -- A connection bound to the path would have spent its number.
    · refine triple_sys (unlink_spec (mine_stable _) fun s ok mine b bound => ?_) fun _ => ?_
      · exact absurd mine ((ok.bound b _ bound).given i)
      · exact ih.weaken (fun _ _ _ => trivial) fun _ _ _ => id
    · exact none_bound

private theorem close_spec (own : Option Fd) (a : Fd) (path : GoString) :
    (pathLogic ι m pid).Triple i (fun s => s.naming.Spent path (some a))
      (proc (.sys own (.close a)) : ProcAct Unit) fun _ s => s.naming.Spent path none := by
  refine .perform (fun _ _ _ bad => bad) (fun s ch x s' ok spent _ done => ?_)
    fun _ => spent_stable path none
  have step := pathLogic_step done
  have ok' := step.ok ok id fun _ other => by cases other
  have later := step.spent id ok'.nonneg spent
  refine ⟨ok', later.pos, later.below, later.given, fun b bound => ?_⟩
  -- Only the descriptor that is closed was bound to the path.
  cases later.unbound b bound
  have closed : s.sysExec pid i (.close a) ch = some (x, s') := done
  rw [close_naming closed] at bound
  simp [Naming.closed] at bound

/-- Only its own descriptor is bound to the path of a connection. -/
def Owned (ctrl : Option WpaCtrl) (s : Process ι) : Prop :=
  ∀ k, ctrl = some k → s.naming.Spent k.localPath (some k.s)

private theorem owned_stable (ctrl : Option WpaCtrl) :
    (pathLogic ι m pid).Stable i (Owned ctrl) :=
  fun s s' ok ok' rely owned k same => spent_stable _ _ s s' ok ok' rely (owned k same)

private theorem open2_spec (ctrlPath cliPath : GoString) :
    (pathLogic ι m pid).Triple i (fun _ => True) (sysBy none (wpaCtrlOpen2 ctrlPath cliPath))
      Owned := by
  have none_open : ∀ {P : Process ι → Prop}, (pathLogic ι m pid).Triple i P
      (sysBy none (pure none)) Owned := .ret none fun _ _ _ _ same => by cases same
  have is_open : ∀ a path, (pathLogic ι m pid).Triple i (fun s => s.naming.Spent path (some a))
      (sysBy none (pure (some ⟨a, path⟩))) Owned := by
    refine fun a path => .ret _ fun s _ spent k same => ?_
    cases same
    exact spent
  unfold wpaCtrlOpen2
  refine triple_sys (proc_kept id always_stable fun _ _ _ => id) fun memory => ?_
  split
  swap
  · exact none_open
  refine triple_sys (proc_kept id always_stable fun _ _ _ => id) fun fd => ?_
  cases fd with
  | none => exact none_open
  | some a =>
    refine triple_sys (incCounter_spec none) fun _ => ?_
    refine triple_sysBy (tryBind_spec a cliPath 1) fun path => ?_
    have close_kept : ∀ {P : Process ι → Prop}, (pathLogic ι m pid).Triple i P
        (sysBy none (sys (.close a) >>= fun _ => pure none)) Owned :=
      triple_sys ((proc_kept id always_stable fun _ _ _ => id).weaken (fun _ _ _ => trivial)
        fun _ _ _ => id) fun _ => none_open
    cases path with
    | none => exact close_kept
    | some path =>
      cases dest : destPath ctrlPath with
      | none => exact close_kept
      | some dest =>
        have spent : ∀ s : Process ι, (∀ p, some path = some p → s.naming.Spent p (some a)) →
            s.naming.Spent path (some a) := fun s post => post path rfl
        have kept : ∀ op : SysOp, ¬ Naming.Uses (.sys none op) →
            (∀ s : Process ι, ¬ s.naming.Reckless i (.sys none op)) →
            (pathLogic ι m pid).Triple i (fun s => s.naming.Spent path (some a))
              (proc (.sys none op) : ProcAct (SysAns op)) fun _ s => s.naming.Spent path (some a) :=
          fun op other never => proc_kept other (spent_stable path (some a)) fun s _ _ => never s
        refine triple_sys ((kept _ id fun _ => id).weaken (fun s _ => spent s) fun _ _ _ => id)
          fun connected => ?_
        split
        · refine triple_sys (kept _ id fun _ => id) fun flags => ?_
          cases flags with
          | none => exact is_open a path
          | some flags => exact triple_sys (kept _ id fun _ => id) fun _ => is_open a path
        -- With its descriptor closed, nothing is bound to the path that is removed.
        · refine triple_sys (close_spec none a path) fun _ => ?_
          refine triple_sys (unlink_spec (spent_stable path none) fun s _ spent => spent.unbound)
            fun _ => none_open


private theorem openSocket_spec (device clientDir : GoString) :
    (pathLogic ι m pid).Triple i (fun _ => True) (sysBy none (openSocket device clientDir))
      fun r s => ∀ ctrl, r = .ok ctrl → Owned ctrl s := by
  have result : ∀ ctrl ctrl' (e : Errno), openResult (ctrl, e) = .ok ctrl' → ctrl = ctrl' := by
    intro ctrl ctrl' e same
    unfold openResult at same
    split at same
    · cases same
    · exact Except.ok.inj same
  unfold openSocket callOpen2
  refine triple_sysBy ?_ fun r => .ret _ fun s _ post => post
  refine triple_sys (proc_kept id always_stable fun _ _ _ => id) fun _ => ?_
  refine triple_sysBy (open2_spec _ _) fun ctrl => ?_
  refine triple_sys (proc_kept id (owned_stable ctrl) fun _ _ _ => id) fun errno => ?_
  exact .ret _ fun s _ owned ctrl' same => result ctrl ctrl' errno same ▸ owned

private theorem openConn_spec (device clientDir : GoString) :
    (pathLogic ι m pid).Triple i (fun _ => True) (openConn device clientDir) fun _ _ => True := by
  unfold openConn
  refine (openSocket_spec device clientDir).bind fun r => ?_
  cases r with
  | error err => exact .ret _ fun _ _ _ => trivial
  | ok ctrl =>
    refine Logic.Triple.bind (R := fun _ => Owned ctrl) ?_ fun c => .ret _ fun _ _ _ => trivial
    refine (proc_kept id (owned_stable ctrl) fun s _ owned => ?_).weaken
      (fun s _ post => post ctrl rfl) fun _ _ _ => id
    cases ctrl with
    | none => exact id
    | some k => exact not_not.mpr (owned k rfl)

/-! ### `Close` and the callers -/

/-- `Close` removes a path that only its own connection is bound to. -/
private theorem closeConn_spec (c : Conn) :
    (pathLogic ι m pid).Triple i (fun _ => True) (closeConn c) fun _ _ => True := by
  have read : (pathLogic ι m pid).Triple i (fun _ => True)
      (proc (.ctrl c) : ProcAct (Option WpaCtrl)) Owned := by
    refine .perform (fun _ _ _ bad => bad) (fun s ch ctrl s' ok _ _ done => ?_) owned_stable
    cases done
    exact ⟨ok, ok.wrapped c⟩
  unfold closeConn
  refine read.bind fun ctrl => ?_
  refine Logic.Triple.bind (R := fun _ => Owned ctrl) ?_ fun errno => ?_
  · unfold callClose
    refine triple_sys (proc_kept id (owned_stable ctrl) fun _ _ _ => id) fun _ => ?_
    refine triple_sysBy (R := fun _ => Owned ctrl) ?_ fun _ =>
      proc_kept id (owned_stable ctrl) fun _ _ _ => id
    cases ctrl with
    | none => exact .ret () fun _ _ owned => owned
    | some k =>
      refine triple_sys (unlink_spec (owned_stable _) fun s _ owned => (owned k rfl).unbound)
        fun _ => ?_
      exact proc_kept id (owned_stable _) fun _ _ _ => id
  · refine (proc_kept id (owned_stable ctrl) fun _ _ _ => id).bind fun _ => ?_
    exact .ret _ fun _ _ _ => trivial

private theorem carryOut_spec (op : Op) :
    (pathLogic ι m pid).Triple i (fun _ => True) (carryOut op) fun _ _ => True := by
  have mem : ∀ op, (pathLogic ι m pid).Triple i (fun _ => True)
      (proc (.mem op) : ProcAct (Ans op)) fun _ _ => True := fun op =>
    proc_kept id always_stable fun _ _ _ => id
  cases op with
  | openSock device clientDir => exact openConn_spec device clientDir
  | closeSock s =>
    cases s with
    | none => exact mem _
    | some c => exact closeConn_spec c
  | _ => exact mem _

def pathProof (ι : Type) [DecidableEq ι] (m : Manager) (pid : Int) :
    Proof ι ProcOp ProcAns (Process ι) ProcChoice Call Res where
  toLogic := pathLogic ι m pid
  idle _ _ := True
  pre _ _ _ := True
  post _ _ _ _ := True
  idle_stable _ := always_stable
  pre_stable _ _ := always_stable
  start_ok i call s s' ok _ _ started := by
    obtain ⟨mem, _, rfl⟩ := Option.map_eq_some_iff.mp started
    exact ⟨ok, trivial, fun j _ => .refl j s.naming⟩
  body_ok i call := Logic.Triple.interpret_kept carryOut_spec (body m call)
  finish_ok i call res s ok _ := ⟨ok, trivial, fun j _ => .refl j s.naming⟩
  env_ok ch s s' ok moved := by
    cases ch with
    | mem ch =>
      obtain ⟨mem, _, rfl⟩ := Option.map_eq_some_iff.mp moved
      exact ⟨ok, fun j => .refl j s.naming⟩
    | go | number _ | fail _ => cases moved

/-! ### Every run -/

/-- Open connections are bound to different paths, and what is about to be removed is not the
path of an open connection, except of the one that is being closed. -/
structure Separate (c : Config ι ProcOp ProcAns (Process ι) Call Res) : Prop where
  distinct : ∀ a b path, c.state.naming.fd a = some (some path) →
    c.state.naming.fd b = some (some path) → a = b
  spared : ∀ i call own path k, c.thread i = .running call (.call (.sys own (.unlink path)) k) →
    ∀ a, c.state.naming.fd a = some (some path) → own = some a

/-- If each `Open` formats its own number, no connection gets the path of another one, and none
loses its path to another one. -/
theorem paths_separate {files : GoString → Bool}
    {c : Config ι ProcOp ProcAns (Process ι) Call Res}
    (run : Reach (process ι m pid) unraced (launched ι files) c) : Separate c := by
  have known : (pathProof ι m pid).ConfigOk c :=
    (pathProof ι m pid).sound (launched ι files) c ⟨Naming.init_ok, fun _ => trivial⟩ run
  have ok : c.state.naming.Ok := known.1
  constructor
  · intro a b path first second
    exact Option.some.inj ((ok.bound b path second).unbound a first) |>.symm
  · intro i call own path k at_unlink
    exact not_not.mp (known.not_bad at_unlink)

/-! ### Two callers -/

/-- The steps of an `Open` that gets the descriptor `a`, up to the increment and after it -/
def numbering (a : Fd) : List ProcChoice := [.go, .go, .number a, .go]

def connecting : List ProcChoice := [.go, .go, .go, .go, .number 0, .go, .go, .go]

/-- The steps of a reconnecting `SendRawCmd` up to its `Open` -/
def giveUp : List ProcChoice :=
  [.mem .go, .mem .go, .mem (.fail 111), .mem .go, .go, .go, .go, .go, .go, .go, .mem .go, .mem .go]

/-- Caller 0 opens a connection, finds it dead and opens another one, up to its increment. -/
def reconnecting : List (Label (Fin 2) ProcChoice Call) :=
  uninterrupted 0 (.get (lit "wlan0"))
      (.mem .go :: .mem .go :: numbering 3 ++ connecting ++ List.replicate 10 (.mem .go)) ++
    .start 0 (.sendRawCmd 0 (lit "PING")) :: (giveUp ++ numbering 3).map (.step 0)

/-- Caller 1 opens a connection, up to its increment. -/
def fetching : List (Label (Fin 2) ProcChoice Call) :=
  .start 1 (.get (lit "wlan1")) :: (.mem .go :: .mem .go :: numbering 4).map (.step 1)

/-- The paths of the descriptors 3 and 4 -/
def boundTo (path path' : GoString) (c : Config (Fin 2) ProcOp ProcAns (Process (Fin 2)) Call Res) :
    Bool :=
  c.state.naming.fd 3 = some (some path) ∧ c.state.naming.fd 4 = some (some path')

/-- An `Open` of caller 1 is about to remove the path of the descriptor 3. -/
def removing (path : GoString) (c : Config (Fin 2) ProcOp ProcAns (Process (Fin 2)) Call Res) :
    Bool :=
  match c.thread 1 with
  | .running _ (.call (.sys none (.unlink path')) _) =>
    path' = path ∧ c.state.naming.fd 3 = some (some path)
  | _ => false

/-- Caller 1 increments the counter after caller 0 has formatted its path, which is late enough. -/
theorem paths_separate_two :
    ∃ c : Config (Fin 2) ProcOp ProcAns (Process (Fin 2)) Call Res,
      Reach (process (Fin 2) ⟨[], [], 0⟩ 1) unraced (launched (Fin 2) fun _ => false) c ∧
      boundTo (lit "/tmp/wpa_ctrl_1-2") (lit "/tmp/wpa_ctrl_1-3") c = true ∧ Separate c := by
  obtain ⟨c, run, bound⟩ := exists_reach (process (Fin 2) ⟨[], [], 0⟩ 1)
    (launched (Fin 2) fun _ => false) (fun _ _ _ => true) formatsOwn
    (reconnecting ++ [.step 0 .go, .step 0 .go] ++ fetching ++
      [.step 1 .go, .step 1 .go, .step 1 .go, .step 0 .go])
    (boundTo (lit "/tmp/wpa_ctrl_1-2") (lit "/tmp/wpa_ctrl_1-3")) (by decide +kernel)
  exact ⟨c, run, bound, paths_separate run⟩

/-- An earlier run has left a file at the path of the second connection. -/
def leftover (path : GoString) : Bool := path == lit "/tmp/wpa_ctrl_1-2"

/-- Caller 0 finds the file there and removes it. Before it formats its path again, caller 1
increments the counter. Then caller 0 is bound to the path of the new number. -/
def racing : List (Label (Fin 2) ProcChoice Call) :=
  reconnecting ++
    [.go, .go, .fail Errno.eaddrinuse, .go, .go].map (.step 0) ++ fetching ++
    [.step 0 .go, .step 0 .go, .step 0 .go]

/-- Caller 1 formats the same path, finds it in use, and reads that as a leftover too. -/
def retrying : List (Label (Fin 2) ProcChoice Call) :=
  [.go, .go, .fail Errno.eaddrinuse, .go].map (.step 1)

/-- When an `Open` removes a leftover and another one increments the counter before it tries again,
both format the same, so that the other one removes the path of its connection and gets it too. -/
theorem racing_paths_shared :
    (∃ c, Reach (process (Fin 2) ⟨[], [], 0⟩ 1) ⟨fun _ _ _ => True, fun _ _ _ _ => True⟩
      (launched (Fin 2) leftover) c ∧
        removing (lit "/tmp/wpa_ctrl_1-3") c = true ∧ ¬ Separate c) ∧
    ∃ c, Reach (process (Fin 2) ⟨[], [], 0⟩ 1) ⟨fun _ _ _ => True, fun _ _ _ _ => True⟩
      (launched (Fin 2) leftover) c ∧
        boundTo (lit "/tmp/wpa_ctrl_1-3") (lit "/tmp/wpa_ctrl_1-3") c = true ∧ ¬ Separate c := by
  have any : ∀ {c}, Reach (process (Fin 2) ⟨[], [], 0⟩ 1)
      (.checked (fun _ _ _ => true) fun _ _ _ _ => true) (launched (Fin 2) leftover) c →
      Reach (process (Fin 2) ⟨[], [], 0⟩ 1) ⟨fun _ _ _ => True, fun _ _ _ _ => True⟩
        (launched (Fin 2) leftover) c := fun run =>
    run.weaken (fun _ _ _ _ => trivial) fun _ _ _ _ _ => trivial
  constructor
  · obtain ⟨c, run, clash⟩ := exists_reach (process (Fin 2) ⟨[], [], 0⟩ 1)
      (launched (Fin 2) leftover) (fun _ _ _ => true) (fun _ _ _ _ => true) (racing ++ retrying)
      (removing (lit "/tmp/wpa_ctrl_1-3")) (by decide +kernel)
    refine ⟨c, any run, clash, fun separate => ?_⟩
    simp only [removing] at clash
    split at clash
    next call path' k at_unlink =>
      obtain ⟨rfl, bound⟩ := of_decide_eq_true clash
      cases separate.spared 1 call none _ k at_unlink 3 bound
    · cases clash
  · obtain ⟨c, run, both⟩ := exists_reach (process (Fin 2) ⟨[], [], 0⟩ 1)
      (launched (Fin 2) leftover) (fun _ _ _ => true) (fun _ _ _ _ => true)
      (racing ++ retrying ++ [.step 1 .go, .step 1 .go, .step 1 .go, .step 1 .go])
      (boundTo (lit "/tmp/wpa_ctrl_1-3") (lit "/tmp/wpa_ctrl_1-3")) (by decide +kernel)
    refine ⟨c, any run, both, fun separate => ?_⟩
    obtain ⟨first, second⟩ := of_decide_eq_true both
    cases separate.distinct 3 4 _ first second

end HostapdGrpc.Socket
