import HostapdGrpc.Socket.Soundness

/-!
# References and handles

The count of a `sharedSocket` is the number of handles to it, whatever the callers do at
the same time.
-/

namespace HostapdGrpc.Socket

open Go Interaction

/-! ### A failing `Get` -/

/-- The operations that change a reference count. -/
def Op.countsReference : Op → Bool
  | .incRefs _ | .decRefs _ | .new _ _ _ _ => true
  | _ => false

/-- No operation on the path changes a reference count. -/
private def Uncounted (t : List (Sigma Ans)) : Prop := ∀ x ∈ t, x.1.countsReference = false

private theorem uncounted_nil : Uncounted [] := fun x member => by cases member

private theorem Uncounted.cons {op : Op} {a : Ans op} {t : List (Sigma Ans)}
    (free : op.countsReference = false) (rest : Uncounted t) : Uncounted (⟨op, a⟩ :: t) :=
  List.forall_mem_cons.mpr ⟨free, rest⟩

private theorem Uncounted.append {t u : List (Sigma Ans)} (first : Uncounted t)
    (second : Uncounted u) : Uncounted (t ++ u) :=
  List.forall_mem_append.mpr ⟨first, second⟩

private theorem testClosed_path {p : Ptr} {t : List (Sigma Ans)} {b : Bool}
    (path : (SharedSocket.testClosed p).Path t b) : Uncounted t := by
  obtain ⟨cached, u, rfl, rest⟩ := (Prog.path_perform_bind _ _ t b).mp path
  apply Uncounted.cons rfl
  cases cached with
  | true =>
    rw [((Prog.path_ret _ _ _).mp rest).1]
    exact uncounted_nil
  | false =>
    obtain ⟨refs, v, rfl, done⟩ := (Prog.path_perform_bind _ _ u b).mp rest
    rw [((Prog.path_ret _ _ _).mp done).1]
    exact .cons rfl uncounted_nil

/-- `inc` counts a reference unless it reports the `sharedSocket` closed. -/
private theorem inc_path {p : Ptr} {t : List (Sigma Ans)}
    (path : (SharedSocket.inc p).Path t true) : Uncounted t := by
  obtain ⟨_, u, rfl, locked⟩ := (Prog.path_perform_bind _ _ t true).mp path
  obtain ⟨t₁, v, closed, rfl, test, tested⟩ := (Prog.path_bind _ _ u true).mp locked
  apply Uncounted.cons rfl
  apply (testClosed_path test).append
  cases closed with
  | true =>
    obtain ⟨_, w, rfl, done⟩ := (Prog.path_perform_bind _ _ v true).mp tested
    rw [((Prog.path_ret _ _ _).mp done).1]
    exact .cons rfl uncounted_nil
  | false =>
    -- This branch takes a reference, but then `inc` returns `false`.
    obtain ⟨_, w, rfl, counted⟩ := (Prog.path_perform_bind _ _ v true).mp tested
    obtain ⟨_, x, rfl, done⟩ := (Prog.path_perform_bind _ _ w true).mp counted
    cases ((Prog.path_ret _ _ _).mp done).2

private theorem reuse_path {name : GoString} {t : List (Sigma Ans)}
    (path : (Manager.reuse name).Path t none) : Uncounted t := by
  obtain ⟨found, u, rfl, looked⟩ := (Prog.path_perform_bind _ _ t none).mp path
  apply Uncounted.cons rfl
  cases found with
  | none =>
    rw [((Prog.path_ret _ _ _).mp looked).1]
    exact uncounted_nil
  | some p =>
    obtain ⟨t₁, v, closed, rfl, inc, done⟩ := (Prog.path_bind _ _ u none).mp looked
    cases closed with
    | true =>
      rw [((Prog.path_ret _ _ _).mp done).1, List.append_nil]
      exact inc_path inc
    | false => cases ((Prog.path_ret _ _ _).mp done).2

private theorem openShared_path {name device clientDir : GoString} {t : List (Sigma Ans)}
    {err : GoError} (path : (openShared name device clientDir).Path t (.error err)) :
    Uncounted t := by
  obtain ⟨r, u, rfl, opened⟩ := (Prog.path_perform_bind _ _ t _).mp path
  cases r with
  | ok c =>
    obtain ⟨_, _, rfl, done⟩ := (Prog.path_perform_bind _ _ u _).mp opened
    cases ((Prog.path_ret _ _ _).mp done).2
  | error err =>
    rw [((Prog.path_ret _ _ _).mp opened).1]
    exact .cons rfl uncounted_nil

/-- A `Get` that returns an error has changed no reference count on its way. -/
theorem failing_get_path (m : Manager) (name : GoString) (t : List (Sigma Ans)) (err : GoError)
    (path : (m.get name).Path t (.error err)) : ∀ x ∈ t, x.1.countsReference = false := by
  -- Once something is to be stored, `Get` returns it.
  have storing : ∀ (p : Ptr) (u : List (Sigma Ans)),
      ¬(do
        m.store name p
        act (.unlock .mu)
        pure (Except.ok (ε := GoError) p) : Act _).Path u (.error err) := by
    intro p u path
    obtain ⟨t₁, v, _, rfl, _, stored⟩ := (Prog.path_bind _ _ u _).mp path
    obtain ⟨_, w, rfl, done⟩ := (Prog.path_perform_bind _ _ v _).mp stored
    cases ((Prog.path_ret _ _ _).mp done).2
  obtain ⟨_, u, rfl, locked⟩ := (Prog.path_perform_bind _ _ t _).mp path
  obtain ⟨t₁, v, found, rfl, reuse, reused⟩ := (Prog.path_bind _ _ u _).mp locked
  apply Uncounted.cons rfl
  cases found with
  | some p => exact absurd reused (storing p v)
  | none =>
    apply (reuse_path reuse).append
    obtain ⟨t₂, w, opened, rfl, opening, afterOpen⟩ := (Prog.path_bind _ _ v _).mp reused
    cases opened with
    | ok p => exact absurd afterOpen (storing p w)
    | error err' =>
      apply (openShared_path opening).append
      obtain ⟨_, x, rfl, done⟩ := (Prog.path_perform_bind _ _ w _).mp afterOpen
      rw [((Prog.path_ret _ _ _).mp done).1]
      exact .cons rfl uncounted_nil

/-! ### Every reachable configuration -/

variable {ι : Type} {m : Manager} {c : Config ι Op Ans (State ι) Call Res}

/-- The references of `i` counted in `taken` against the handles it holds: a `Get` may have
taken one that it has not returned yet, and a `Close` may have one left to give up. -/
def Outstanding (taken held : List Ptr) (t : Thread Op Ans Call Res) : Prop :=
  match t with
  | .running (.get _) _ => taken = held ∨ ∃ p, taken = p :: held
  | .running (.close p) _ => taken = held ∨ p ∈ taken ∧ taken.erase p = held
  | _ => taken = held

/-- What holds of the references in a configuration. -/
structure Counted [Fintype ι] (m : Manager) (c : Config ι Op Ans (State ι) Call Res) : Prop where
  refs : ∀ p, c.state.heap.refs p = ∑ i, (c.state.taken i).count p
  outstanding : ∀ i, Outstanding (c.state.taken i) (c.state.held i) (c.thread i)
  usable : ∀ i p, p ∈ c.state.held i → c.state.heap.closed p = false
  returned : ∀ i name p, c.thread i = .running (.get name) (.ret (.get (.ok p))) →
    c.state.heap.device p = Path.join m.hostapdDir name ∧ c.state.heap.clientDir p = m.clientDir ∧
      c.state.heap.closed p = false ∧ c.state.taken i = p :: c.state.held i
  failed : ∀ i name err, c.thread i = .running (.get name) (.ret (.get (.error err))) →
    c.state.taken i = c.state.held i
  panics : ∀ i call k, c.thread i ≠ .running call (.call .panic k)
  closes : ∀ i p err, c.thread i = .running (.close p) (.ret (.close err)) →
    err ≠ some SharedSocket.closedTwice

/-- However the calls of the callers interleave, the references are the handles they hold,
and a failing `Get` counts none. -/
theorem references_are_handles [Fintype ι] [DecidableEq ι]
    (run : Reach (system ι m) disciplined (initial ι) c) :
    Counted m c ∧ ∀ name t err, (m.get name).Path t (.error err) →
      ∀ x ∈ t, x.1.countsReference = false := by
  have ok := disciplined_ok run
  refine ⟨?_, failing_get_path m⟩
  exact {
    refs := ok.1.refs
    outstanding := fun i => by
      -- The invariant speaks of the call recorded in the state, which is the thread's.
      have accounted := ok.1.handles i
      rw [Accounted, call_of_thread run i] at accounted
      cases at_i : c.thread i with
      | idle =>
        rw [at_i] at accounted
        exact accounted
      | running call rest =>
        rw [at_i] at accounted
        cases call with
        | get name => exact accounted
        | sendRawCmd p cmd => exact accounted
        | close p => exact accounted
    usable := fun i p member => ok.1.open_of_held member
    returned := fun i name p at_ret => by
      have fetched : Fetched i name p c.state := ok.post at_ret
      obtain ⟨device, clientDir⟩ := ok.1.device p (ok.1.lt_of_cached fetched.flag)
      rw [fetched.named] at device
      exact ⟨device, clientDir, by simp [SharedSockets.closed, fetched.flag], fetched.taken⟩
    failed := fun i name err at_ret => ok.post at_ret
    panics := fun i call k at_op => ok.not_bad at_op trivial
    closes := fun i p err at_ret => by
      have post : err = none ∧ c.state.taken i = c.state.held i := ok.post at_ret
      rw [post.1]
      exact fun same => by cases same }

/-- Two callers share a `sharedSocket`, and one of them closes its handle. -/
theorem references_are_handles_shared :
    ∃ c, Reach (system (Fin 2) ⟨[], [], 0⟩) disciplined (initial (Fin 2)) c ∧
      c.state.heap.refs 0 = 1 ∧ c.state.held 1 = [0] ∧ Counted ⟨[], [], 0⟩ c := by
  obtain ⟨c, run, last⟩ := exists_run (ι := Fin 2) ⟨[], [], 0⟩ (fun _ _ _ _ => true)
    (uninterrupted 0 (.get (lit "a")) (List.replicate 13 .go) ++
      uninterrupted 1 (.get (lit "a")) (List.replicate 9 .go) ++
      uninterrupted 0 (.close 0) (List.replicate 5 .go))
    (fun c => c.state.heap.refs 0 == 1 && c.state.held 1 == [0]) (by decide +kernel)
  simp only [Bool.and_eq_true, beq_iff_eq] at last
  exact ⟨c, run, last.1, last.2, (references_are_handles run).1⟩

end HostapdGrpc.Socket
