import HostapdGrpc.Go.Lines
import HostapdGrpc.Socket.Process

/-!
# The numbers of client paths

A client path ends in a number that is taken from the counter. What is known of the numbers
given so far is kept by every operation, as long as a path is bound for its own number only.
-/

namespace HostapdGrpc.Socket

open Go

variable {ι : Type}

/-! ### The number in a path -/

/-- The digits at the end of `path` -/
def pathNumber (path : GoString) : Int := decimal (path.reverse.takeWhile isDigit).reverse

theorem pathNumber_clientPath (dir : GoString) (pid : Int) {counter : Int}
    (nonneg : 0 ≤ counter) : pathNumber (clientPath dir pid counter) = counter := by
  have digits : ∀ b ∈ (itoa counter.natAbs).reverse, isDigit b = true := fun b member =>
    List.all_eq_true.mp (itoa_isDecimal _).digits b (List.mem_reverse.mp member)
  have stops : ∀ rest : GoString, ((lit "-").reverse ++ rest).takeWhile isDigit = [] := fun rest =>
    List.takeWhile_cons_of_neg (by decide)
  have number : itoaInt counter = itoa counter.natAbs := if_neg (Int.not_lt.mpr nonneg)
  unfold pathNumber clientPath
  rw [number, List.reverse_append, List.takeWhile_append_of_pos digits, List.reverse_append,
    List.reverse_append, stops, List.reverse_nil, List.nil_append, List.reverse_reverse,
    (itoa_isDecimal _).value]
  exact Int.natAbs_of_nonneg nonneg

/-! ### What is known of the numbers -/

namespace Naming

/-- No `Open` is to bind `path`, and no connection is bound to it, except with `own`. -/
structure Spent (n : Naming ι) (path : GoString) (own : Option Fd) : Prop where
  pos : 0 < pathNumber path
  below : pathNumber path ≤ n.counter
  given : ∀ i, n.mine i ≠ some (pathNumber path)
  unbound : ∀ a, n.fd a = some (some path) → own = some a

/-- Numbers are not given twice, and each connection has a path of its own. -/
structure Ok (n : Naming ι) : Prop where
  nonneg : 0 ≤ n.counter
  below : ∀ i k, n.mine i = some k → 0 < k ∧ k ≤ n.counter
  distinct : ∀ i j k, n.mine i = some k → n.mine j = some k → i = j
  bound : ∀ a path, n.fd a = some (some path) → n.Spent path (some a)
  wrapped : ∀ c ctrl, n.ctrl c = some ctrl → n.Spent ctrl.localPath (some ctrl.s)

/-- What `i` may rely on. A negative counter has overflowed. -/
structure Rely (i : ι) (n n' : Naming ι) : Prop where
  mine : n'.mine i = n.mine i
  spent : 0 ≤ n'.counter → 0 ≤ n.counter ∧
    ∀ path own, n.Spent path own → n'.Spent path own

/-- What no `Open` or `Close` is to do -/
def Reckless (i : ι) (n : Naming ι) (op : ProcOp) : Prop :=
  match op with
  | .sys own (.unlink path) => ¬ ∀ a, n.fd a = some (some path) → own = some a
  | .sys _ (.bind _ path) => n.mine i ≠ some (pathNumber path)
  | .wrap (some ctrl) => ¬ n.Spent ctrl.localPath (some ctrl.s)
  | _ => False

theorem init_ok : (init : Naming ι).Ok where
  nonneg := Int.le_refl 0
  below _ _ given := by cases given
  distinct _ _ _ given := by cases given
  bound _ _ bound := by cases bound
  wrapped _ _ wrapped := by cases wrapped

/-! ### What an operation does -/

variable [DecidableEq ι]

/-- The effects of the operations on the naming -/
inductive Step (i : ι) (n : Naming ι) : ProcOp → Naming ι → Prop where
  | same (op : ProcOp) : Step i n op n
  | numbered (own : Option Fd) : Step i n (.sys own .incCounter) (n.numbered i)
  | opened (own : Option Fd) (a : Fd) (free : n.fd a = none) :
      Step i n (.sys own .socket) (n.opened a)
  | bound (own : Option Fd) (a : Fd) (path : GoString) :
      Step i n (.sys own (.bind a path)) (n.bound i a path)
  | closed (own : Option Fd) (a : Fd) : Step i n (.sys own (.close a)) (n.closed a)
  | wrapped (ctrl : Option WpaCtrl) (c : Conn) : Step i n (.wrap ctrl) (n.setCtrl c ctrl)
  | cleared (c : Conn) : Step i n (.clearCtrl c) (n.setCtrl c none)

/-- The operations that use the number of an `Open` -/
def Uses (op : ProcOp) : Prop :=
  match op with
  | .sys _ .incCounter | .sys _ (.bind _ _) => True
  | _ => False

variable {i j : ι} {n n' : Naming ι} {op : ProcOp} {path : GoString} {own : Option Fd}

omit [DecidableEq ι] in
theorem increment_of_lt {counter : Int} (small : counter < intMax) :
    increment counter = counter + 1 := if_neg (Int.ne_of_lt small)

omit [DecidableEq ι] in
/-- A number is spent for good unless the counter overflows. -/
private theorem increment_of_nonneg {counter : Int} (nonneg : 0 ≤ increment counter) :
    increment counter = counter + 1 := by
  unfold increment at *
  split at nonneg
  next _ => simp [intMax] at nonneg
  next other => exact if_neg other

/-- A descriptor bound to `path` is the one just bound, or was bound before. -/
private theorem fd_bound {a b : Fd} {q : GoString}
    (bound : (n.bound i a q).fd b = some (some path)) :
    b = a ∧ path = q ∨ n.fd b = some (some path) := by
  by_cases same : b = a
  · subst same
    simp only [Naming.bound, Function.update_self, Option.some.injEq] at bound
    exact .inl ⟨rfl, bound.symm⟩
  · simp only [Naming.bound, Function.update_of_ne same] at bound
    exact .inr bound

private theorem Step.fd_of_ne (step : Step i n op n') (other : ¬ Uses op) {a : Fd}
    (bound : n'.fd a = some (some path)) : n.fd a = some (some path) := by
  cases step with
  | same | wrapped | cleared => exact bound
  | numbered | bound => exact absurd trivial other
  | opened _ b | closed _ b =>
    by_cases same : a = b
    · subst same
      simp [Naming.opened, Naming.closed] at bound
    · simpa [Naming.opened, Naming.closed, Function.update_of_ne same] using bound

private theorem Step.kept (step : Step i n op n') (other : ¬ Uses op) :
    n'.counter = n.counter ∧ n'.mine = n.mine := by
  cases step with
  | numbered | bound => exact absurd trivial other
  | _ => exact ⟨rfl, rfl⟩

private theorem Step.mine_of_ne (step : Step i n op n') (ne : j ≠ i) : n'.mine j = n.mine j := by
  cases step with
  | numbered | bound => exact Function.update_of_ne ne _ _
  | _ => rfl

/-- What is spent stays spent. -/
theorem Step.spent (step : Step i n op n') (safe : ¬ Reckless i n op) (nonneg : 0 ≤ n'.counter)
    (spent : n.Spent path own) : n'.Spent path own := by
  by_cases uses : Uses op
  · cases step with
    | same => exact spent
    | numbered =>
      -- The new number is above the counter, and what is spent is not.
      have next : (n.numbered i).counter = n.counter + 1 := increment_of_nonneg nonneg
      have below := spent.below
      refine ⟨spent.pos, by omega, fun j given => ?_, spent.unbound⟩
      by_cases same : j = i
      · subst same
        have new : increment n.counter = pathNumber path := by
          simpa [Naming.numbered] using given
        have next' : increment n.counter = n.counter + 1 := next
        omega
      · exact spent.given j (by simpa [Naming.numbered, Function.update_of_ne same] using given)
    | bound _ a q =>
      -- `i` binds under its own number, which is not spent.
      have number : n.mine i = some (pathNumber q) := not_not.mp safe
      refine ⟨spent.pos, spent.below, fun j given => ?_, fun b bound => ?_⟩
      · by_cases same : j = i
        · subst same
          simp [Naming.bound] at given
        · exact spent.given j (by simpa [Naming.bound, Function.update_of_ne same] using given)
      · rcases fd_bound bound with ⟨-, rfl⟩ | before
        · exact absurd number (spent.given i)
        · exact spent.unbound b before
    | opened | closed | wrapped | cleared => exact uses.elim
  · obtain ⟨counter, mine⟩ := step.kept uses
    exact ⟨spent.pos, counter ▸ spent.below, mine ▸ spent.given,
      fun a bound => spent.unbound a (step.fd_of_ne uses bound)⟩

/-- What the others rely on -/
theorem Step.rely_of_ne (step : Step i n op n') (ok : n.Ok) (safe : ¬ Reckless i n op)
    (ne : j ≠ i) : Rely j n n' :=
  ⟨step.mine_of_ne ne, fun nonneg => ⟨ok.nonneg, fun _ _ => step.spent safe nonneg⟩⟩

theorem Step.rely_self (step : Step i n op n') (ok : n.Ok) (safe : ¬ Reckless i n op)
    (other : ¬ Uses op) : Rely i n n' :=
  ⟨congrFun (step.kept other).2 i, fun nonneg => ⟨ok.nonneg, fun _ _ => step.spent safe nonneg⟩⟩

/-- The path just bound is spent. -/
theorem Ok.spent_bound {a : Fd} (ok : n.Ok) (number : n.mine i = some (pathNumber path)) :
    (n.bound i a path).Spent path (some a) := by
  obtain ⟨pos, below⟩ := ok.below i _ number
  refine ⟨pos, below, fun j given => ?_, fun b bound => ?_⟩
  · by_cases same : j = i
    · subst same
      simp [Naming.bound] at given
    · have given' : n.mine j = some (pathNumber path) := by
        simpa [Naming.bound, Function.update_of_ne same] using given
      exact same (ok.distinct j i _ given' number)
  · rcases fd_bound bound with ⟨rfl, -⟩ | before
    · rfl
    -- A path bound before has no number that is still to be used.
    · exact absurd number ((ok.bound b path before).given i)

private theorem Ok.numbered (ok : n.Ok) (small : n.counter < intMax) : (n.numbered i).Ok := by
  have next : (n.numbered i).counter = n.counter + 1 := increment_of_lt small
  have nonneg := ok.nonneg
  have given : ∀ j k, (n.numbered i).mine j = some k →
      j = i ∧ k = n.counter + 1 ∨ j ≠ i ∧ n.mine j = some k := by
    intro j k given
    by_cases same : j = i
    · subst same
      have new : increment n.counter = k := by simpa [Naming.numbered] using given
      exact .inl ⟨rfl, new.symm.trans next⟩
    · exact .inr ⟨same, by simpa [Naming.numbered, Function.update_of_ne same] using given⟩
  have step : Step i n (.sys none .incCounter) (n.numbered i) := .numbered none
  have kept : ∀ path own, n.Spent path own → (n.numbered i).Spent path own := fun _ _ =>
    step.spent id (by omega)
  refine ⟨by omega, fun j k new => ?_, fun j j' k new new' => ?_,
    fun a path bound => kept _ _ (ok.bound a path bound),
    fun c ctrl wrapped => kept _ _ (ok.wrapped c ctrl wrapped)⟩
  · rcases given j k new with ⟨-, rfl⟩ | ⟨-, before⟩
    · omega
    · have := ok.below j k before
      omega
  -- A new number is above all that were given before.
  · rcases given j k new with ⟨rfl, rfl⟩ | ⟨-, before⟩ <;>
      rcases given j' _ new' with ⟨rfl, same⟩ | ⟨-, before'⟩
    · rfl
    · have := ok.below j' _ before'
      omega
    · have := ok.below j k before
      omega
    · exact ok.distinct j j' k before before'

private theorem Ok.bind {a : Fd} (ok : n.Ok) (number : n.mine i = some (pathNumber path)) :
    (n.bound i a path).Ok := by
  have step : Step i n (.sys none (.bind a path)) (n.bound i a path) := .bound none a path
  have kept : ∀ path own, n.Spent path own → (n.bound i a _).Spent path own := fun _ _ =>
    step.spent (not_not.mpr number) ok.nonneg
  have given : ∀ j k, (n.bound i a path).mine j = some k → n.mine j = some k := by
    intro j k given
    by_cases same : j = i
    · subst same
      simp [Naming.bound] at given
    · simpa [Naming.bound, Function.update_of_ne same] using given
  refine ⟨ok.nonneg, fun j k new => ok.below j k (given j k new),
    fun j j' k new new' => ok.distinct j j' k (given j k new) (given j' k new'),
    fun b q bound => ?_, fun c ctrl wrapped => kept _ _ (ok.wrapped c ctrl wrapped)⟩
  rcases fd_bound bound with ⟨rfl, rfl⟩ | before
  · exact ok.spent_bound number
  · exact kept q _ (ok.bound b q before)

private theorem Step.wrapped_ok (step : Step i n op n') (ok : n.Ok) (safe : ¬ Reckless i n op)
    (other : ¬ Uses op) {c : Conn} {ctrl : WpaCtrl} (wrapped : n'.ctrl c = some ctrl) :
    n.Spent ctrl.localPath (some ctrl.s) := by
  cases step with
  | numbered | bound => exact absurd trivial other
  | same | opened | closed => exact ok.wrapped c ctrl wrapped
  | wrapped new d =>
    by_cases same : c = d
    · subst same
      simp only [Naming.setCtrl, Function.update_self] at wrapped
      subst wrapped
      exact not_not.mp safe
    · simp only [Naming.setCtrl, Function.update_of_ne same] at wrapped
      exact ok.wrapped c ctrl wrapped
  | cleared d =>
    by_cases same : c = d
    · subst same
      simp [Naming.setCtrl] at wrapped
    · simp only [Naming.setCtrl, Function.update_of_ne same] at wrapped
      exact ok.wrapped c ctrl wrapped

/-- The step lemma -/
theorem Step.ok (step : Step i n op n') (ok : n.Ok) (safe : ¬ Reckless i n op)
    (small : ∀ own, op = .sys own .incCounter → n.counter < intMax) : n'.Ok := by
  by_cases uses : Uses op
  · cases step with
    | same => exact ok
    | numbered own => exact ok.numbered (small own rfl)
    | bound _ a path => exact ok.bind (not_not.mp safe)
    | opened | closed | wrapped | cleared => exact uses.elim
  · obtain ⟨counter, mine⟩ := step.kept uses
    have nonneg : 0 ≤ n'.counter := counter ▸ ok.nonneg
    refine ⟨nonneg, ?_, ?_, fun a path bound => ?_, fun c ctrl wrapped => ?_⟩
    · rw [mine, counter]
      exact ok.below
    · rw [mine]
      exact ok.distinct
    · exact step.spent safe nonneg (ok.bound a path (step.fd_of_ne uses bound))
    · exact step.spent safe nonneg (step.wrapped_ok ok safe uses wrapped)

end Naming

/-! ### The effects of the operations -/

section
variable [DecidableEq ι]

/-- What a failing call does -/
theorem failing_spec {α : Type} {s s' : Process ι} {i : ι} {e : Errno} {a b : α}
    (done : s.failing i e a = some (b, s')) : b = a ∧ s'.naming = s.naming := by
  simp only [Process.failing] at done
  split at done
  · cases done
  · cases done
    exact ⟨rfl, rfl⟩

private theorem attempt_naming {s s' : Process ι} {i : ι} {ch : ProcChoice} {b : Bool}
    (done : s.attempt i ch s = some (b, s')) : s'.naming = s.naming := by
  cases ch with
  | go =>
    cases done
    rfl
  | fail e => exact (failing_spec done).2
  | mem _ | number _ => cases done

theorem close_naming {s s' : Process ι} {pid : Int} {i : ι} {b : Fd} {ch : ProcChoice} {a : Unit}
    (done : s.sysExec pid i (.close b) ch = some (a, s')) : s'.naming = s.naming.closed b := by
  cases ch with
  | go =>
    cases done
    rfl
  | fail e => exact (failing_spec done).2
  | mem _ | number _ => cases done

theorem step_of_sysExec {s s' : Process ι} {pid : Int} {i : ι} {op : SysOp} {ch : ProcChoice}
    {a : SysAns op} (own : Option Fd) (done : s.sysExec pid i op ch = some (a, s')) :
    Naming.Step i s.naming (.sys own op) s'.naming := by
  have same : ∀ n, n = s.naming → Naming.Step i s.naming (.sys own op) n := by
    rintro _ rfl
    exact .same _
  cases op with
  | errno | setErrno _ | counter | getpid =>
    cases done
    exact .same _
  | zalloc | connect _ _ | setFlags _ _ => exact same _ (attempt_naming done)
  | incCounter =>
    cases done
    exact .numbered own
  | socket =>
    cases ch with
    | number a =>
      simp only [Process.sysExec] at done
      split at done
      next free =>
        cases done
        exact .opened own a free
      · cases done
    | fail e => exact same _ ((failing_spec done).2)
    | mem _ | go => cases done
  | bind a path =>
    cases ch with
    | go =>
      simp only [Process.sysExec] at done
      split at done
      · cases done
        exact .bound own a path
      · cases done
    | fail e =>
      simp only [Process.sysExec] at done
      split at done
      · cases done
      · exact same _ ((failing_spec done).2)
    | mem _ | number _ => cases done
  | unlink path =>
    cases ch with
    | go =>
      simp only [Process.sysExec] at done
      split at done
      · cases done
        exact .same _
      · cases done
    | fail e => exact same _ ((failing_spec done).2)
    | mem _ | number _ => cases done
  | getFlags _ =>
    cases ch with
    | number n =>
      cases done
      exact .same _
    | fail e => exact same _ ((failing_spec done).2)
    | mem _ | go => cases done
  | close b =>
    rw [close_naming done]
    exact .closed own b

/-- The effects of the operations -/
theorem step_of_procExec {s s' : Process ι} {pid : Int} {i : ι} {op : ProcOp} {ch : ProcChoice}
    {a : ProcAns op} (done : s.exec pid i op ch = some (a, s')) :
    Naming.Step i s.naming op s'.naming := by
  cases op with
  | mem op =>
    cases ch with
    | mem ch =>
      simp only [Process.exec, Option.map_eq_some_iff] at done
      obtain ⟨r, _, ⟨⟩⟩ := done
      exact .same _
    | go | number _ | fail _ => cases done
  | sys own op => exact step_of_sysExec own done
  | wrap ctrl =>
    cases done
    exact .wrapped ctrl _
  | ctrl c =>
    cases done
    exact .same _
  | clearCtrl c =>
    cases done
    exact .cleared c

end

end HostapdGrpc.Socket
