import HostapdGrpc.Interaction.Simulation
import HostapdGrpc.Socket.Behind
import HostapdGrpc.Socket.SystemCalls

/-!
# The process over the manager's operations

The pool in system calls is coupled with the one in which an `Open`, a `send`, the wait for a
reply and a `Close` are one step each. Here are the operations on the memory, `Open` and
`Close`; each shows above in one of its system calls.
-/

namespace HostapdGrpc.Socket

open Go Interaction

variable {ι : Type} [DecidableEq ι] [Fintype ι]

/-! ### The two pools side by side -/

/-- Callers use only handles they got and have not closed. -/
def usesOwn (i : ι) (call : Call) (s : Process ι) : Bool := usesOwnHandle i call s.mem

/-- A command is sent only on a connection all of whose earlier requests got a reply. -/
def sendsWhenAnswered (_ : ι) (op : FullOp) (_ : FullChoice) (s : Process ι) : Bool :=
  match op with
  | .proc (.mem (.send (some c) _)) | .io c (.send _) =>
    (s.mem.conn c).sent == (s.mem.conn c).replied
  | _ => true

/-- Runs of own handles whose operations meet `P` -/
def ownCalls (P : ι → FullOp → FullChoice → Process ι → Bool) :
    Condition ι FullOp (Process ι) FullChoice Call :=
  .checked usesOwn P

/-- What is assumed of the runs; `R` says whether commands are sent only after replies. -/
def answering (R : Prop) : Assumptions := ⟨False, False, False, R⟩

/-- An operation that has no business with the shared state now -/
def FullBad (R : Prop) (i : ι) (op : FullOp) (s : Process ι) : Prop :=
  match op with
  | .proc (.mem .panic) => False
  | .proc (.mem op) => Bad (answering R) i op s.mem
  | .proc (.clearCtrl c) | .io c (.send _) | .io c (.recv _) => Bad (answering R) i (.recv c) s.mem
  | _ => False

/-- What others leave alone while `i` does not step, with its `errno` -/
structure FullRely (i : ι) (s s' : Process ι) : Prop where
  mem : Rely i s.mem s'.mem
  errno : s'.errno i = s.errno i

namespace FullRely

omit [DecidableEq ι] [Fintype ι] in
theorem refl (i : ι) (s : Process ι) : FullRely i s s := ⟨.refl i s.mem, rfl⟩

omit [DecidableEq ι] [Fintype ι] in
theorem trans {i : ι} {s s' s'' : Process ι} (first : FullRely i s s')
    (second : FullRely i s' s'') : FullRely i s s'' :=
  ⟨first.mem.trans second.mem, second.errno.trans first.errno⟩

end FullRely

/-! ### Operations that leave the memory alone -/

/-- The operation only concerns the caller, the clock and the files. -/
def FullOp.apart : FullOp → Prop
  | .proc (.sys _ _) | .proc (.ctrl _) => True
  | .io _ (.send _) | .io _ (.recv _) => False
  | .io _ _ => True
  | _ => False

omit [Fintype ι] in
theorem Process.failing_apart {α : Type} {s s' : Process ι} {i : ι} {e : Errno} {a b : α}
    (done : s.failing i e a = some (b, s')) :
    s'.mem = s.mem ∧ (∀ j, j ≠ i → s'.errno j = s.errno j) ∧ b = a ∧ e ≠ 0 ∧ s'.errno i = e := by
  unfold Process.failing at done
  split at done <;> cases done
  next set =>
    exact ⟨rfl, fun j ne => Function.update_of_ne ne .., rfl, set, Function.update_self ..⟩

omit [Fintype ι] in
private theorem attempt_apart {s s' t : Process ι} {i : ι} {ch : ProcChoice} {b : Bool}
    (mem : t.mem = s.mem) (errno : t.errno = s.errno)
    (done : s.attempt i ch t = some (b, s')) :
    s'.mem = s.mem ∧ ∀ j, j ≠ i → s'.errno j = s.errno j := by
  cases ch with
  | go =>
    cases done
    exact ⟨mem, fun j _ => congrFun errno j⟩
  | fail e => exact ⟨(Process.failing_apart done).1, (Process.failing_apart done).2.1⟩
  | mem ch => cases done
  | number n => cases done

omit [Fintype ι] in
private theorem sysExec_apart {s s' : Process ι} {pid : Int} {i : ι} {op : SysOp}
    {ch : ProcChoice} {r : SysAns op} (done : s.sysExec pid i op ch = some (r, s')) :
    s'.mem = s.mem ∧ ∀ j, j ≠ i → s'.errno j = s.errno j := by
  have failed {α : Type} {t : Process ι} {e : Errno} {x y : α} (mem : t.mem = s.mem)
      (errno : t.errno = s.errno) (done : t.failing i e x = some (y, s')) :
      s'.mem = s.mem ∧ ∀ j, j ≠ i → s'.errno j = s.errno j := by
    obtain ⟨mem', errno', -⟩ := Process.failing_apart done
    exact ⟨mem'.trans mem, fun j ne => (errno' j ne).trans (congrFun errno j)⟩
  cases op with
  | setErrno e =>
    cases done
    exact ⟨rfl, fun j ne => Function.update_of_ne ne ..⟩
  | zalloc => exact attempt_apart rfl rfl done
  | connect a path => exact attempt_apart rfl rfl done
  | setFlags a flags => exact attempt_apart rfl rfl done
  | socket =>
    simp only [Process.sysExec] at done
    split at done
    · split at done <;> cases done
      exact ⟨rfl, fun _ _ => rfl⟩
    · exact failed rfl rfl done
    · cases done
  | bind a path =>
    simp only [Process.sysExec] at done
    split at done
    · split at done <;> cases done
      exact ⟨rfl, fun _ _ => rfl⟩
    · split at done
      · cases done
      · exact failed rfl rfl done
    · cases done
  | unlink path =>
    simp only [Process.sysExec] at done
    split at done
    · split at done <;> cases done
      exact ⟨rfl, fun _ _ => rfl⟩
    · exact failed rfl rfl done
    · cases done
  | getFlags a =>
    simp only [Process.sysExec] at done
    split at done
    · cases done
      exact ⟨rfl, fun _ _ => rfl⟩
    · exact failed rfl rfl done
    · cases done
  | close a =>
    simp only [Process.sysExec] at done
    split at done
    · cases done
      exact ⟨rfl, fun _ _ => rfl⟩
    · exact failed (t := { s with naming := s.naming.closed a }) rfl rfl done
    · cases done
  | errno | incCounter | counter | getpid =>
    cases done
    exact ⟨rfl, fun _ _ => rfl⟩

omit [Fintype ι] in
private theorem ioExec_apart {s s' : Process ι} {i : ι} {c : Conn} {op : IoOp} {ch : FullChoice}
    {r : IoAns op} (apart : (FullOp.io c op).apart) (done : s.ioExec i c op ch = some (r, s')) :
    s'.mem = s.mem ∧ ∀ j, j ≠ i → s'.errno j = s.errno j := by
  cases op with
  | send cmd => exact apart.elim
  | recv size => exact apart.elim
  | setErrno e =>
    cases done
    exact ⟨rfl, fun j ne => Function.update_of_ne ne ..⟩
  | getReltime | indeterminate =>
    simp only [Process.ioExec] at done
    split at done <;> cases done
    exact ⟨rfl, fun _ _ => rfl⟩
  | select =>
    simp only [Process.ioExec] at done
    split at done
    · cases done
      exact ⟨rfl, fun _ _ => rfl⟩
    · split at done <;> cases done
      exact ⟨rfl, fun _ _ => rfl⟩
    · exact ⟨(Process.failing_apart done).1, (Process.failing_apart done).2.1⟩
    · cases done
  | stuck => cases done
  | errno | sleep | terminate n | msgCb msg =>
    cases done
    exact ⟨rfl, fun _ _ => rfl⟩

omit [Fintype ι] in
theorem FullOp.apart_exec {s s' : Process ι} {pid : Int} {i : ι} {op : FullOp} {ch : FullChoice}
    {r : FullAns op} (apart : op.apart) (done : s.fullExec pid i op ch = some (r, s')) :
    s'.mem = s.mem ∧ ∀ j, j ≠ i → s'.errno j = s.errno j := by
  cases op with
  | io c op => exact ioExec_apart apart done
  | proc op =>
    simp only [Process.fullExec] at done
    split at done
    · cases op with
      | sys own op => exact sysExec_apart done
      | ctrl c =>
        cases done
        exact ⟨rfl, fun _ _ => rfl⟩
      | mem op => exact apart.elim
      | wrap ctrl => exact apart.elim
      | clearCtrl c => exact apart.elim
    · cases done

/-! ### The coupling -/

private theorem guarantee (R : Prop) (m : Manager) {s s' : Process ι} {pid : Int} {i : ι}
    {op : FullOp} {ch : FullChoice} {r : FullAns op} (inv : Inv (answering R) m s.mem)
    (safe : ¬FullBad R i op s) (done : s.fullExec pid i op ch = some (r, s')) (j : ι) (ne : j ≠ i) :
    FullRely j s s' := by
  have quiet (apart : op.apart) : FullRely j s s' := by
    obtain ⟨mem, errno⟩ := FullOp.apart_exec apart done
    exact ⟨mem ▸ .refl j s.mem, errno j ne⟩
  cases op with
  | proc op =>
    simp only [Process.fullExec] at done
    split at done
    · cases op with
      | sys own op => exact quiet trivial
      | ctrl c => exact quiet trivial
      | mem op =>
        simp only [Process.exec] at done
        split at done
        · obtain ⟨⟨a, mem⟩, moved, same⟩ := Option.map_eq_some_iff.mp done
          cases same
          refine ⟨Rely.of_exec (answering R) m i op _ s.mem mem a inv ?_ moved j ne, rfl⟩
          cases op <;> first | exact safe | cases moved
        · cases done
      | wrap ctrl =>
        cases done
        exact ⟨Rely.of_exec (answering R) m i (.openSock [] []) .go s.mem _ _ inv
          (fun bad => bad.1.elim) rfl j ne, rfl⟩
      | clearCtrl c =>
        cases done
        exact ⟨.setConn i j ne c _ s.mem (not_not.mp safe), rfl⟩
    · cases done
  | io c op =>
    cases op with
    | send cmd =>
      simp only [Process.fullExec, Process.ioExec] at done
      split at done
      · split at done <;> cases done
        exact ⟨.setConn i j ne c _ s.mem (not_not.mp safe), rfl⟩
      · split at done
        · cases done
        · obtain ⟨mem, errno, -⟩ := Process.failing_apart done
          exact ⟨mem ▸ .refl j s.mem, errno j ne⟩
      · cases done
    | recv size =>
      simp only [Process.fullExec, Process.ioExec] at done
      split at done
      · split at done <;> cases done
        exact ⟨.setConn i j ne c _ s.mem (not_not.mp safe), rfl⟩
      · obtain ⟨mem, errno, -⟩ := Process.failing_apart done
        exact ⟨mem ▸ .refl j s.mem, errno j ne⟩
      · cases done
    | _ => exact quiet trivial

/-- Runs of own handles in which, if `R`, commands are sent only after replies -/
def fullCondition (ι : Type) [DecidableEq ι] (R : Prop) :
    Condition ι FullOp (Process ι) FullChoice Call where
  start i call s := usesOwn i call s = true
  step i op ch s := R → sendsWhenAnswered i op ch s = true

/-- The process over the manager's own operations -/
def coupling (ι : Type) [DecidableEq ι] [Fintype ι] (R : Prop) (m : Manager) (pid : Int)
    (fuel : Nat) : Coupling ι FullOp FullAns (Process ι) FullChoice Call Res Op Ans (State ι) Choice
      Call Res where
  sys := daemon ι m pid fuel
  cond := fullCondition ι R
  inv s := Inv (answering R) m s.mem
  rely := FullRely
  bad := FullBad R
  rely_refl := .refl
  rely_trans _ _ _ _ := .trans
  guarantee _ _ _ _ _ _ inv safe done := guarantee R m inv safe done
  upper := system ι m
  allowed := (answering R).condition m
  known := (proof ι (answering R) m).Known
  rel s t := s.mem.Behind t

section
variable {R : Prop} {m : Manager} {pid : Int} {fuel : Nat} {i : ι}

/-- The memory after a step is as sound as it is above. -/
theorem known_inv {s : Process ι} {t t' : State ι} {call : Call} {op : Op} {ch : Choice}
    {a : Ans op} {k : Ans op → Act Res}
    (known : (proof ι (answering R) m).Known i (.running call (.call op k)) t)
    (ok : ((answering R).condition m).step i op ch t) (done : t.exec i op ch = some (a, t'))
    (behind : s.mem.Behind t') : Inv (answering R) m s.mem :=
  .of_behind behind (known.at_op.2 ch a t' ok done)

/-- What is not bad above is not bad here. -/
theorem known_good {s : Process ι} {t : State ι} {call : Call} {op : Op} {k : Ans op → Act Res}
    (known : (proof ι (answering R) m).Known i (.running call (.call op k)) t)
    (behind : s.mem.Behind t) : ¬Bad (answering R) i op s.mem :=
  fun bad => known.at_op.1 (Bad.of_behind behind bad)

omit [DecidableEq ι] [Fintype ι] in
/-- An operation above that sends nothing is allowed. -/
theorem allowed_other {op : Op} {ch : Choice} {t : State ι}
    (other : R → sendsAfterReplies i op ch t = true) : ((answering R).condition m).step i op ch t :=
  ⟨False.elim, False.elim, False.elim, other⟩

/-! ### Operations on the memory -/

/-- A program that is apart -/
theorem apart_matches {α β γ : Type} {p : FullAct γ} {g : γ → FullAct α} {q : Act β}
    {Q : α → β → Process ι → Prop} (only : p.Only FullOp.apart)
    (rest : ∀ a, (coupling ι R m pid fuel).Matches i (fun _ => True) (g a) q Q) :
    (coupling ι R m pid fuel).Matches i (fun _ => True) (p >>= g) q Q := by
  refine .quiet only (fun op apart s t inv _ behind => ⟨?_, fun ch a s' _ done => ?_⟩) (.const _)
    rest
  · cases op with
    | io c op => cases op <;> first | exact apart.elim | exact id
    | proc op => cases op <;> first | exact apart.elim | exact id
  · obtain ⟨mem, -⟩ := FullOp.apart_exec apart done
    show Inv (answering R) m s'.mem ∧ s'.mem.Behind t ∧ True
    rw [mem]
    exact ⟨inv, behind, trivial⟩

theorem mem_matches (op : Op) :
    (coupling ι R m pid fuel).Matches i (fun _ => True) (mem op) (act op) fun a b _ =>
      a = b ∧ True := by
  refine .step (fun s t call k inv _ behind known => ⟨fun bad => ?_, fun ch a s' ok done => ?_⟩)
    fun a b => .const _
  · have bad' : Bad (answering R) i op s.mem := by
      cases op <;> first | exact bad | exact bad.elim
    exact known_good known behind bad'
  · have done' : s.fullExec pid i (.proc (.mem op)) ch = some (a, s') := done
    simp only [Process.fullExec] at done'
    split at done'
    · simp only [Process.exec] at done'
      split at done'
      next ch =>
        obtain ⟨⟨a, mem⟩, moved, same⟩ := Option.map_eq_some_iff.mp done'
        cases same
        obtain ⟨t', moved', behind'⟩ := behind.exec moved
        have allowed : ((answering R).condition m).step i op ch t := by
          refine allowed_other fun replies => ?_
          have sends := ok replies
          cases op with
          | send c cmd =>
            cases c with
            | none => rfl
            | some c =>
              obtain ⟨-, -, -, sent, replied⟩ := (behind.conn c).fixed
              simpa only [sendsAfterReplies, sendsWhenAnswered, sent, replied] using sends
          | _ => rfl
        exact ⟨known_inv (s := { s with mem := mem }) known allowed moved' behind', ch, a, t',
          allowed, moved', behind', rfl, trivial⟩
      · cases done'
    · cases done'

/-! ### `Open` and `Close` -/

/-- The system calls of a C function, made for the process -/
private def sysFull {α : Type} (own : Option Fd) (p : CAct α) : FullAct α :=
  p.interpret fun op => full (.proc (.sys own op))

omit [DecidableEq ι] [Fintype ι] in
private theorem sysFull_apart {α : Type} (own : Option Fd) (p : CAct α) :
    (sysFull own p).Only FullOp.apart := by
  refine (Prog.Only.any p).interpret _ fun op _ => ?_
  exact .perform (P := FullOp.apart) trivial

private theorem openSock_matches (device clientDir : GoString) :
    (coupling ι R m pid fuel).Matches i (fun _ => True) (inProcess (.openSock device clientDir))
      (act (.openSock device clientDir)) fun a b _ => a = b ∧ True := by
  have program : inProcess (.openSock device clientDir) =
      sysFull none (sys (.setErrno 0)) >>= fun _ =>
      sysFull none (wpaCtrlOpen2 (cString device) (cString clientDir)) >>= fun ctrl =>
      full (.proc (.sys none .errno)) >>= fun errno =>
      if errno ≠ 0 then pure (.error (.errno errno))
      else Except.ok <$> full (.proc (.wrap ctrl)) := by
    simp only [inProcess, carryOut, openConn, sysBy, openSocket, callOpen2, sysFull, proc, sys,
      map_eq_pure_bind, Prog.interpret_bind, Prog.interpret_interpret, Prog.interpret_perform,
      Prog.interpret, Prog.bind_assoc, Prog.pure_eq, Prog.ret_bind]
    congr 1; funext _; congr 1; funext ctrl; congr 1; funext errno
    by_cases set : errno = 0
    · simp only [openResult, set, ne_eq, not_true_eq_false, if_false, Prog.interpret_bind,
        Prog.interpret_perform, Prog.interpret]
    · simp only [openResult, set, ne_eq, not_false_eq_true, if_true, Prog.interpret]
  rw [program]
  refine apart_matches (sysFull_apart none _) fun _ => ?_
  refine apart_matches (sysFull_apart none _) fun ctrl => ?_
  refine .either (R := fun errno _ => errno = 0)
    (S := fun errno r _ => errno ≠ 0 ∧ r = .error (.errno errno)) ?_ (fun _ => .const _)
    (fun _ _ => .const _) (fun errno => ?_) fun errno r => ?_
  · intro s t call k inv _ behind known
    refine ⟨id, fun ch errno s' _ done => ?_⟩
    have done' : s.fullExec pid i (.proc (.sys none .errno)) ch = some (errno, s') := done
    simp only [Process.fullExec] at done'
    split at done' <;> cases done'
    refine ⟨inv, ?_⟩
    by_cases set : s.errno i = 0
    · exact .inl ⟨behind, set⟩
    · refine .inr ⟨.fail (s.errno i), _, t, allowed_other fun _ => rfl, ?_, behind, set, rfl⟩
      show t.exec i (.openSock device clientDir) (.fail (s.errno i)) =
        some (.error (.errno (s.errno i)), t)
      simp only [State.exec, set, if_false]
  · refine .assume (fun _ _ pre => pre) ?_
    rintro rfl
    simp only [ne_eq, not_true_eq_false, if_false]
    refine Coupling.Matches.bind (q := act (.openSock device clientDir)) (g := .ret)
      (Q := fun c r _ => r = .ok c) ?_ fun c r => ?_
    · refine .step (fun s t call k inv _ behind known => ⟨id, fun ch c s' _ done => ?_⟩)
        fun _ _ => .const _
      have done' : s.fullExec pid i (.proc (.wrap ctrl)) ch = some (c, s') := done
      simp only [Process.fullExec] at done'
      split at done' <;> cases done'
      have opens : s.mem.exec i (.openSock device clientDir) .go = 
          some (.ok s.mem.nextConn, _) := rfl
      obtain ⟨t', opened, behind'⟩ := behind.exec opens
      exact ⟨known_inv (s := { s with mem := _ }) known (allowed_other fun _ => rfl) opened behind',
        .go, _, t', allowed_other fun _ => rfl, opened, behind', rfl⟩
    · refine .assume (fun _ _ pre => pre) ?_
      rintro rfl
      exact .ret _ _ fun _ _ _ => ⟨rfl, trivial⟩
  · refine .assume (fun _ _ pre => pre) ?_
    rintro ⟨set, rfl⟩
    rw [if_pos set]
    exact .ret _ _ fun _ _ _ => ⟨rfl, trivial⟩

private theorem closeSock_matches (c : Conn) :
    (coupling ι R m pid fuel).Matches i (fun _ => True) (inProcess (.closeSock (some c)))
      (act (.closeSock (some c))) fun a b _ => a = b ∧ True := by
  have program : inProcess (.closeSock (some c)) =
      full (.proc (.ctrl c)) >>= fun ctrl =>
      sysFull (ctrl.map WpaCtrl.s) (callClose ctrl) >>= fun errno =>
      full (.proc (.clearCtrl c)) >>= fun _ =>
      pure (if errno = 0 then none else some (.errno errno)) := by
    simp only [inProcess, carryOut, closeConn, sysBy, sysFull, proc, Prog.interpret_bind,
      Prog.interpret_interpret, Prog.interpret_perform, Prog.interpret, Prog.pure_eq]
  rw [program]
  refine apart_matches (.perform (P := FullOp.apart) trivial) fun ctrl => ?_
  refine apart_matches (sysFull_apart _ _) fun errno => ?_
  -- The call of `wpa_ctrl_close` is over, so that its `errno` is known.
  refine Coupling.Matches.bind (q := act (.closeSock (some c))) (g := .ret)
    (Q := fun _ r _ => r = if errno = 0 then none else some (.errno errno)) ?_ fun _ r => ?_
  · refine .step (fun s t call k inv _ behind known => ⟨fun bad => ?_, fun ch a s' _ done => ?_⟩)
      fun _ _ => .const _
    · exact known_good known behind bad
    · have done' : s.fullExec pid i (.proc (.clearCtrl c)) ch = some (a, s') := done
      simp only [Process.fullExec] at done'
      split at done' <;> cases done'
      have closes : ∃ ch', s.mem.exec i (.closeSock (some c)) ch' =
          some (if errno = 0 then none else some (.errno errno),
            s.mem.setConn c { s.mem.conn c with closed := true }) := by
        by_cases set : errno = 0
        · exact ⟨.go, by simp only [State.exec, set, if_true]⟩
        · exact ⟨.fail errno, by simp only [State.exec, set, if_false]⟩
      obtain ⟨ch', closed⟩ := closes
      obtain ⟨t', closed', behind'⟩ := behind.exec closed
      have ok : ((answering R).condition m).step i (.closeSock (some c)) ch' t :=
        allowed_other fun _ => rfl
      exact ⟨known_inv (s := { s with mem := _ }) known ok closed' behind', ch', _, t', ok, closed',
        behind', rfl⟩
  · refine .assume (fun _ _ pre => pre) ?_
    rintro rfl
    exact .ret _ _ fun _ _ _ => ⟨rfl, trivial⟩

theorem inProcess_matches (op : Op) :
    (coupling ι R m pid fuel).Matches i (fun _ => True) (inProcess op) (act op) fun a b _ =>
      a = b ∧ True := by
  cases op with
  | openSock device clientDir => exact openSock_matches device clientDir
  | closeSock c =>
    cases c with
    | some c => exact closeSock_matches c
    | none => exact mem_matches (.closeSock none)
  | _ => exact mem_matches _

end

end HostapdGrpc.Socket
