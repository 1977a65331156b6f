import HostapdGrpc.Socket.Fetching
import HostapdGrpc.Socket.Requesting

/-!
# The invariant of all runs

The contracts of the three calls, and the invariant in every configuration that any
interleaving of them reaches.
-/

namespace HostapdGrpc.Socket

open Go Interaction

variable {ι : Type} {A : Assumptions} {m : Manager} {i : ι}

/-! ### Contracts -/

/-- Between calls, a caller's references are the handles it holds. -/
def Idle (i : ι) (s : State ι) : Prop := s.taken i = s.held i

def Pre (i : ι) (call : Call) (s : State ι) : Prop :=
  match call with
  | .get name => s.call i = some (.get name) ∧ s.taken i = s.held i
  | .sendRawCmd p cmd => Outside i p cmd s
  | .close p => s.call i = some (.close p) ∧ p ∈ s.taken i ∧ (s.taken i).erase p = s.held i ∧
      s.heap.cached p = true

def Post (A : Assumptions) (i : ι) (call : Call) (res : Res) (s : State ι) : Prop :=
  match call, res with
  | .get name, .get (.ok p) => Fetched i name p s
  | .get _, .get (.error _) => s.taken i = s.held i
  | .sendRawCmd _ _, .sendRawCmd r => s.taken i = s.held i ∧ Replied A r
  | .close _, .close err => err = none ∧ s.taken i = s.held i
  | _, _ => False

/-! ### Calls and returns -/

variable [Fintype ι]

/-- A call or a return changes what one caller holds and nothing else. -/
theorem caller_ok {s : State ι} (inv : Inv A m s) (call : ι → Option Call)
    (held spent : ι → List Ptr)
    (others : ∀ j, j ≠ i → call j = s.call j ∧ held j = s.held j ∧ spent j = s.spent j)
    (known : ∀ p, p ∈ held i ∨ p ∈ spent i → s.heap.cached p = true)
    (mine : Accounted i { s with call := call, held := held, spent := spent }) :
    Inv A m { s with call := call, held := held, spent := spent } ∧
      ∀ j, j ≠ i → Rely j s { s with call := call, held := held, spent := spent } := by
  refine ⟨{ inv with
    handles := fun j => ?_
    known := fun j p member => ?_
    quiet := fun free => { inv.quiet free with } }, fun j ne => ?_⟩
  · by_cases same : j = i
    · exact same ▸ mine
    · obtain ⟨sameCall, sameHeld, -⟩ := others j same
      have before := inv.handles j
      simpa only [Accounted, sameCall, sameHeld] using before
  · by_cases same : j = i
    · exact known p (same ▸ member)
    · obtain ⟨-, sameHeld, sameSpent⟩ := others j same
      exact inv.known j p (sameHeld ▸ sameSpent ▸ member)
  · obtain ⟨sameCall, sameHeld, sameSpent⟩ := others j ne
    exact { Rely.refl j s with
      call := sameCall
      held := sameHeld
      spent := sameSpent }

variable [DecidableEq ι]

private theorem start_ok (call : Call) (s s' : State ι) (inv : Inv A m s) (idle : Idle i s)
    (ok : (A.condition m).start i call s) (started : s.start i call = some s') :
    Inv A m s' ∧ Pre i call s' ∧ ∀ j, j ≠ i → Rely j s s' := by
  have taken : s.taken i = s.held i := idle
  have calls : ∀ j, j ≠ i → Function.update s.call i (some call) j = s.call j := fun j ne =>
    Function.update_of_ne ne ..
  cases call with
  | get name =>
    cases started
    obtain ⟨inv', others⟩ := caller_ok (i := i) inv _ s.held s.spent
      (fun j ne => ⟨calls j ne, rfl, rfl⟩) (inv.known i) (by simp [Accounted, taken])
    exact ⟨inv', ⟨Function.update_self .., taken⟩, others⟩
  | sendRawCmd p cmd =>
    have held : p ∈ s.held i := of_decide_eq_true ok
    simp only [State.start, held, true_or, if_true, Option.some.injEq] at started
    subst started
    obtain ⟨inv', others⟩ := caller_ok (i := i) inv _ s.held s.spent
      (fun j ne => ⟨calls j ne, rfl, rfl⟩) (inv.known i) (by simp [Accounted, taken])
    exact ⟨inv', ⟨inv.known i p (.inl held), Function.update_self .., taken⟩, others⟩
  | close p =>
    have held : p ∈ s.held i := of_decide_eq_true ok
    simp only [State.start, held, true_or, if_true, Option.some.injEq] at started
    subst started
    -- The handle is spent, and its reference is still to be given up.
    have known : ∀ q, q ∈ Function.update s.held i ((s.held i).erase p) i ∨
        q ∈ Function.update s.spent i (p :: s.spent i) i → s.heap.cached q = true := by
      intro q member
      simp only [Function.update_self, List.mem_cons] at member
      rcases member with left | rfl | before
      · exact inv.known i q (.inl (List.mem_of_mem_erase left))
      · exact inv.known i q (.inl held)
      · exact inv.known i q (.inr before)
    obtain ⟨inv', others⟩ := caller_ok inv _ _ _
      (fun j ne => ⟨calls j ne, Function.update_of_ne ne .., Function.update_of_ne ne ..⟩)
      known (by simp [Accounted, taken, held])
    refine ⟨inv', ⟨Function.update_self .., ?_, ?_, inv.known i p (.inl held)⟩, others⟩
    · show p ∈ s.taken i
      rw [taken]
      exact held
    · show (s.taken i).erase p = Function.update s.held i ((s.held i).erase p) i
      rw [Function.update_self, taken]

private theorem finish_ok (call : Call) (res : Res) (s : State ι) (inv : Inv A m s)
    (post : Post A i call res s) :
    Inv A m (s.finish i call res) ∧ Idle i (s.finish i call res) ∧
      ∀ j, j ≠ i → Rely j s (s.finish i call res) := by
  have calls : ∀ j, j ≠ i → Function.update s.call i none j = s.call j := fun j ne =>
    Function.update_of_ne ne ..
  have returned : s.taken i = s.held i →
      Inv A m { s with call := Function.update s.call i none } ∧
        Idle i { s with call := Function.update s.call i none } ∧
        ∀ j, j ≠ i → Rely j s { s with call := Function.update s.call i none } := by
    intro taken
    obtain ⟨inv', others⟩ := caller_ok (i := i) inv (Function.update s.call i none) s.held s.spent
      (fun j ne => ⟨calls j ne, rfl, rfl⟩) (inv.known i) (by simp [Accounted, taken])
    exact ⟨inv', taken, others⟩
  cases call with
  | get name =>
    cases res with
    | get r =>
      cases r with
      | error err => exact returned post
      | ok p =>
        have fetched : Fetched i name p s := post
        -- The reference taken becomes a handle.
        have known : ∀ q, q ∈ Function.update s.held i (p :: s.held i) i ∨ q ∈ s.spent i →
            s.heap.cached q = true := by
          intro q member
          simp only [Function.update_self, List.mem_cons] at member
          rcases member with (rfl | before) | spent
          · exact fetched.flag
          · exact inv.known i q (.inl before)
          · exact inv.known i q (.inr spent)
        obtain ⟨inv', others⟩ := caller_ok inv (Function.update s.call i none) _ s.spent
          (fun j ne => ⟨calls j ne, Function.update_of_ne ne .., rfl⟩) known
          (by simp [Accounted, fetched.taken])
        refine ⟨inv', ?_, others⟩
        show s.taken i = Function.update s.held i (p :: s.held i) i
        rw [Function.update_self]
        exact fetched.taken
    | sendRawCmd r => cases post
    | close err => cases post
  | sendRawCmd p cmd =>
    cases res with
    | sendRawCmd r => exact returned post.1
    | get r => cases post
    | close err => cases post
  | close p =>
    cases res with
    | close err => exact returned post.2
    | get r => cases post
    | sendRawCmd r => cases post

/-! ### The proof of the pool -/

private theorem pre_stable (call : Call) : (logic ι A m).Stable i (Pre i call) := by
  intro s s' _ _ rely h
  cases call with
  | get name => exact ⟨rely.call.trans h.1, (rely.taken.trans h.2).trans rely.held.symm⟩
  | sendRawCmd p cmd =>
    exact ⟨rely.cached p h.known, rely.call.trans h.call,
      (rely.taken.trans h.taken).trans rely.held.symm⟩
  | close p =>
    simp only [Pre, rely.call, rely.taken, rely.held]
    exact ⟨h.1, h.2.1, h.2.2.1, rely.cached p h.2.2.2⟩

private theorem close_ok (p : Ptr) :
    (logic ι A m).Triple i (Pre i (.close p)) (SharedSocket.close p) fun err s =>
      err = none ∧ s.taken i = s.held i := by
  have before : Framed A m i (Pre i (.close p)) :=
    { stable := pre_stable (.close p)
      fmu := fun _ _ _ h => h }
  have after : Framed A m i fun s => s.taken i = s.held i ∧ s.heap.cached p = true :=
    { stable := fun s s' _ _ rely h =>
        ⟨(rely.taken.trans h.1).trans rely.held.symm, rely.cached p h.2⟩
      fmu := fun _ _ _ h => h }
  have closing := SharedSocket.close_spec before after (fun _ h => h.2.1)
    (fun _ h => ⟨h.1, h.2.2.1⟩) (fun _ _ h => h.2)
    fun s _ h => ⟨by simpa using h.2.2.1, h.2.2.2⟩
  exact closing.weaken (fun _ _ h => h) fun _ _ _ h => ⟨h.1, h.2.1⟩

private theorem body_ok (call : Call) :
    (logic ι A m).Triple i (Pre i call) (body m call) (Post A i call) := by
  cases call with
  | get name =>
    apply Logic.Triple.map
    apply get_spec.weaken (fun _ _ h => h)
    intro r s _ h
    cases r with
    | ok p => exact h
    | error err => exact h
  | sendRawCmd p cmd => exact Logic.Triple.map _ sendRawCmd_spec
  | close p => exact Logic.Triple.map _ (close_ok p)

/-- The callers of a `Manager` verified, in runs that meet `A`. -/
def proof (ι : Type) [Fintype ι] [DecidableEq ι] (A : Assumptions) (m : Manager) :
    Proof ι Op Ans (State ι) Choice Call Res where
  toLogic := logic ι A m
  idle := Idle
  pre := Pre
  post := Post A
  idle_stable _ _ _ _ _ rely idle := (rely.taken.trans idle).trans rely.held.symm
  pre_stable _ call := pre_stable call
  start_ok _ call s s' inv idle ok started := start_ok call s s' inv idle ok started
  body_ok _ call := body_ok call
  finish_ok _ call res s inv post := finish_ok call res s inv post
  env_ok ch s s' inv moved := by
    obtain ⟨c, k, move, rfl⟩ := peer_cases ch s s' moved
    exact ⟨peer_inv c k s move inv, peer_rely c k s move⟩

omit [DecidableEq ι] in
private theorem initial_inv : Inv A m (State.init : State ι) where
  refs p := by simp [State.init]
  handles i := rfl
  unique _ p lt := absurd lt (Nat.not_lt_zero p)
  fresh p _ := ⟨rfl, rfl, rfl, rfl⟩
  known i p member := by simp [State.init] at member
  entry k p found := by simp [State.init] at found
  device p lt := absurd lt (Nat.not_lt_zero p)
  quiet _ :=
    { cached := fun p lt => absurd lt (Nat.not_lt_zero p)
      count := rfl
      entries := fun _ p lt => absurd lt (Nat.not_lt_zero p)
      room := fun _ limited => (zero_le_one.trans limited : (0 : Int) ≤ m.limit) }
  freshConn c _ := ⟨rfl, rfl⟩
  home p c stored := by cases stored
  homeLt c p homed := by cases homed
  current c p homed := by cases homed
  live _ p lt := absurd lt (Nat.not_lt_zero p)
  messages c d member := by cases member
  ready _ c _ := ⟨le_rfl, fun _ => rfl⟩

/-- The run lemma: every configuration that a run under `A` reaches keeps the invariant,
and every caller in it is where its contract says. -/
theorem reach_ok {c : Config ι Op Ans (State ι) Call Res}
    (run : Reach (system ι m) (A.condition m) (initial ι) c) : (proof ι A m).ConfigOk c :=
  (proof ι A m).sound (initial ι) c ⟨initial_inv, fun _ => rfl⟩ run

/-- Runs of callers that only use their own handles. -/
theorem disciplined_ok {c : Config ι Op Ans (State ι) Call Res}
    (run : Reach (system ι m) disciplined (initial ι) c) :
    (proof ι ⟨False, False, False, False⟩ m).ConfigOk c := by
  apply reach_ok
  exact Reach.weaken (C := disciplined) (fun _ _ _ h => h)
    (fun _ _ _ _ _ => ⟨False.elim, False.elim, False.elim, False.elim⟩) run

omit [Fintype ι] in
/-- A schedule of own handles that meets `P` is a run to a configuration like its last. -/
theorem exists_run (m : Manager) (P : ι → Op → Choice → State ι → Bool)
    (ls : List (Label ι Choice Call)) (goal : Config ι Op Ans (State ι) Call Res → Bool)
    (ran : ((system ι m).run usesOwnHandle P ls (initial ι)).any goal = true) :
    ∃ c, Reach (system ι m) (disciplinedAnd P) (initial ι) c ∧ goal c = true :=
  exists_reach _ _ usesOwnHandle P ls goal ran

/-! ### Callers and their threads -/

section
omit [Fintype ι]

/-- Operations leave the records of the callers alone. -/
theorem exec_callers (op : Op) (ch : Choice) (s s' : State ι) (a : Ans op)
    (done : s.exec i op ch = some (a, s')) :
    s'.call = s.call ∧ s'.held = s.held ∧ s'.spent = s.spent := by
  cases op with
  | lock l =>
    simp only [State.exec] at done
    split at done <;> cases done
    cases l <;> exact ⟨rfl, rfl, rfl⟩
  | unlock l =>
    cases done
    cases l <;> exact ⟨rfl, rfl, rfl⟩
  | setSock p t => cases t <;> cases done <;> exact ⟨rfl, rfl, rfl⟩
  | send t cmd =>
    cases t with
    | none => cases done
    | some c =>
      cases ch <;> simp only [State.exec] at done <;> (try split at done) <;> cases done <;>
        exact ⟨rfl, rfl, rfl⟩
  | recv c =>
    cases ch <;> simp only [State.exec, State.recv] at done <;> (try split at done) <;>
      cases done <;> exact ⟨rfl, rfl, rfl⟩
  | closeSock t =>
    cases t with
    | none => cases done
    | some c =>
      cases ch <;> simp only [State.exec] at done <;> (try split at done) <;> cases done <;>
        exact ⟨rfl, rfl, rfl⟩
  | openSock device clientDir =>
    cases ch <;> simp only [State.exec] at done <;> (try split at done) <;> cases done <;>
      exact ⟨rfl, rfl, rfl⟩
  | range =>
    cases ch <;> simp only [State.exec] at done <;> (try split at done) <;> cases done <;>
      exact ⟨rfl, rfl, rfl⟩
  | panic => cases done
  | _ => cases done; exact ⟨rfl, rfl, rfl⟩

theorem start_call (call : Call) (s s' : State ι) (started : s.start i call = some s') :
    s'.call = Function.update s.call i (some call) := by
  cases call <;> simp only [State.start] at started <;> (try split at started) <;>
    cases started <;> rfl

theorem finish_call (call : Call) (res : Res) (s : State ι) :
    (s.finish i call res).call = Function.update s.call i none := by
  unfold State.finish
  split <;> rfl

/-- The state records of every caller the call its thread is in. -/
theorem call_of_thread {C : Condition ι Op (State ι) Choice Call}
    {c : Config ι Op Ans (State ι) Call Res} (run : Reach (system ι m) C (initial ι) c) (i : ι) :
    c.state.call i = (c.thread i).call := by
  induction run with
  | refl => rfl
  | @step c c' l _ _ next ih =>
    -- A start and a return update the record and the thread of one caller alike.
    have updated : ∀ j (call : Option Call) (t : Thread Op Ans Call Res), t.call = call →
        Function.update c.state.call j call i = (Function.update c.thread j t i).call := by
      rintro j call t rfl
      by_cases same : i = j
      · subst same
        simp only [Function.update_self]
      · simpa only [Function.update_of_ne same] using ih
    cases l with
    | start j call =>
      simp only [System.next] at next
      split at next
      · obtain ⟨s', started, rfl⟩ := Option.map_eq_some_iff.mp next
        show s'.call i = _
        rw [start_call call c.state s' started]
        exact updated j _ _ rfl
      · cases next
    | step j ch =>
      simp only [System.next] at next
      split at next
      next call op k at_op =>
        -- An operation changes neither the record nor the call of any thread.
        obtain ⟨⟨a, s'⟩, done, rfl⟩ := Option.map_eq_some_iff.mp next
        show s'.call i = _
        rw [(exec_callers op ch c.state s' a done).1]
        by_cases same : i = j
        · subst same
          rw [ih, at_op]
          simp only [Function.update_self, Thread.call]
        · simpa only [Function.update_of_ne same] using ih
      · cases next
    | finish j =>
      simp only [System.next] at next
      split at next
      · cases next
        show (State.finish _ _ _ _).call i = _
        rw [finish_call]
        exact updated j _ _ rfl
      · cases next
    | env ch =>
      obtain ⟨s', moved, rfl⟩ := Option.map_eq_some_iff.mp next
      obtain ⟨d, k, _, rfl⟩ := peer_cases ch c.state s' moved
      exact ih

end

end HostapdGrpc.Socket
