import HostapdGrpc.Socket.Handles
import HostapdGrpc.Interaction.History

/-!
# What a `Manager` is for

To its callers a `Manager` is a registry: `Get` hands out a handle of a name, `Close` takes one
back, and every handle is of one name for good. The goroutines, their locks and the cache are
behind it: every history of the calls is one of the registry.
-/

namespace HostapdGrpc.Socket

open Go Interaction

/-! ### The registry -/

/-- The handles there are with their names, and the handles each caller has, a handle as often as
the caller got it. -/
@[ext] structure Registry (ι : Type) where
  handles : Set (Ptr × GoString)
  has : ι → Multiset Ptr

namespace Registry

variable {ι : Type} [DecidableEq ι]

def grant (r : Registry ι) (i : ι) (p : Ptr) : Registry ι :=
  { r with has := Function.update r.has i (p ::ₘ r.has i) }

def enter (r : Registry ι) (p : Ptr) (name : GoString) : Registry ι :=
  { r with handles := insert (p, name) r.handles }

def drop (r : Registry ι) (i : ι) (p : Ptr) : Registry ι :=
  { r with has := Function.update r.has i ((r.has i).erase p) }

/-- The calls of a registry. If `single`, a name gets a new handle only if it has none, and what is
said of a reply is `reply`. -/
inductive Takes (single : Prop) (reply : Except GoError Reply → Prop) :
    Return ι Call Res → Registry ι → Registry ι → Prop where
  | found {r : Registry ι} {i : ι} {name : GoString} {p : Ptr} (known : (p, name) ∈ r.handles) :
      Takes single reply ⟨i, .get name, .get (.ok p)⟩ r (r.grant i p)
  | opened {r : Registry ι} {i : ι} {name : GoString} {p : Ptr}
      (new : ∀ n, (p, n) ∉ r.handles) (first : single → ∀ q, (q, name) ∉ r.handles) :
      Takes single reply ⟨i, .get name, .get (.ok p)⟩ r ((r.enter p name).grant i p)
  | failed {r : Registry ι} {i : ι} {name : GoString} {err : GoError} :
      Takes single reply ⟨i, .get name, .get (.error err)⟩ r r
  | replied {r : Registry ι} {i : ι} {p : Ptr} {cmd : GoString} {res : Except GoError Reply}
      (mine : p ∈ r.has i) (answer : reply res) :
      Takes single reply ⟨i, .sendRawCmd p cmd, .sendRawCmd res⟩ r r
  -- The `Close` of a handle one has does not fail.
  | closed {r : Registry ι} {i : ι} {p : Ptr} (mine : p ∈ r.has i) :
      Takes single reply ⟨i, .close p, .close none⟩ r (r.drop i p)

def empty : Registry ι := ⟨∅, fun _ => 0⟩

section
variable {single : Prop} {reply : Except GoError Reply → Prop} {r r' : Registry ι}
  {x : Return ι Call Res}

/-- Handles stay. -/
theorem Takes.handles_subset (taken : Takes single reply x r r') : r.handles ⊆ r'.handles := by
  cases taken with
  | opened new first => exact Set.subset_insert _ _
  | _ => exact subset_rfl

/-- A handle is of one name, and if `single` a name has one handle. -/
structure Proper (single : Prop) (r : Registry ι) : Prop where
  name : ∀ p n n', (p, n) ∈ r.handles → (p, n') ∈ r.handles → n = n'
  handle : single → ∀ p p' n, (p, n) ∈ r.handles → (p', n) ∈ r.handles → p = p'

theorem Takes.proper (taken : Takes single reply x r r') (proper : Proper single r) :
    Proper single r' := by
  cases taken with
  | @opened _ i name p new first =>
    constructor
    · intro q n n' here here'
      -- The new handle has its name only, the others have the names they had.
      rcases Set.mem_insert_iff.mp here with same | old <;>
        rcases Set.mem_insert_iff.mp here' with same' | old'
      · cases same
        cases same'
        rfl
      · cases same
        exact absurd old' (new n')
      · cases same'
        exact absurd old (new n)
      · exact proper.name q n n' old old'
    · intro alone q q' n here here'
      rcases Set.mem_insert_iff.mp here with same | old <;>
        rcases Set.mem_insert_iff.mp here' with same' | old'
      · cases same
        cases same'
        rfl
      · cases same
        exact absurd old' (first alone q')
      · cases same'
        exact absurd old (first alone q)
      · exact proper.handle alone q q' n old old'
  | found known => exact ⟨proper.name, proper.handle⟩
  | failed => exact proper
  | replied mine answer => exact proper
  | closed mine => exact ⟨proper.name, proper.handle⟩

/-- What a `Get` returned is a handle of its name, then and later. -/
def Recorded (x : Return ι Call Res) (r : Registry ι) : Prop :=
  ∀ name p, x.call = .get name → x.res = .get (.ok p) → (p, name) ∈ r.handles

theorem Takes.recorded (taken : Takes single reply x r r') : Recorded x r' := by
  intro name p called returned
  cases taken with
  | found known =>
    cases called
    cases returned
    exact known
  | opened new first =>
    cases called
    cases returned
    exact Set.mem_insert _ _
  | failed => cases returned
  | replied mine answer => cases returned
  | closed mine => cases returned

/-- The `Get`s of a registry that starts empty return one handle only for one name, and if
`single`, for one name only one handle. -/
theorem one_handle {h : List (Return ι Call Res)} (serial : Serial (Takes single reply) empty h r)
    {i j : ι} {name name' : GoString} {p q : Ptr} (first : ⟨i, .get name, .get (.ok p)⟩ ∈ h)
    (second : ⟨j, .get name', .get (.ok q)⟩ ∈ h) :
    (p = q → name = name') ∧ (single → name = name' → p = q) := by
  have none_yet : Proper single (empty : Registry ι) :=
    ⟨fun _ _ _ here => here.elim, fun _ _ _ _ here => here.elim⟩
  have proper : Proper single r := serial.keeps none_yet fun _ _ _ before taken =>
    taken.proper before
  have known : ∀ x ∈ h, Recorded x r := by
    apply serial.recorded fun _ _ _ taken => taken.recorded
    intro q x t t' before taken name p called returned
    exact taken.handles_subset (before name p called returned)
  have hereP := known _ first name p rfl rfl
  have hereQ := known _ second name' q rfl rfl
  constructor
  · rintro rfl
    exact proper.name p name name' hereP hereQ
  · rintro alone rfl
    exact proper.handle alone p q name hereP hereQ

end

end Registry

/-! ### The registry of a state -/

namespace State

variable {ι : Type}

/-- Some `Get` has returned `p`. -/
def Handed (s : State ι) (p : Ptr) : Prop := ∃ i, p ∈ s.held i ∨ p ∈ s.spent i

/-- The registry that the callers have before them. A handle is given back when its `Close`
returns. -/
def registry (s : State ι) : Registry ι where
  handles := { x | s.Handed x.1 ∧ s.heap.name x.1 = x.2 }
  has i :=
    match s.call i with
    | some (.close p) => p ::ₘ (s.held i : Multiset Ptr)
    | _ => (s.held i : Multiset Ptr)

end State

variable {ι : Type} [DecidableEq ι] {m : Manager} {A : Assumptions}

/-- A call or a return concerns the records of its caller only. -/
private theorem start_others {i j : ι} {call : Call} {s s' : State ι} (ne : j ≠ i)
    (started : s.start i call = some s') :
    s'.call j = s.call j ∧ s'.held j = s.held j ∧ s'.spent j = s.spent j := by
  cases call <;> simp only [State.start] at started <;> (try split at started) <;>
    cases started <;> simp [Function.update_of_ne ne]

private theorem finish_others {i j : ι} (call : Call) (res : Res) (s : State ι) (ne : j ≠ i) :
    (s.finish i call res).call j = s.call j ∧ (s.finish i call res).held j = s.held j := by
  unfold State.finish
  split <;> simp [Function.update_of_ne ne]

/-- Only an allocation names a `sharedSocket`. -/
private theorem exec_name {i : ι} {op : Op} {ch : Choice} {s s' : State ι} {a : Ans op}
    (done : s.exec i op ch = some (a, s')) (p : Ptr) (known : p < s.next) :
    s'.heap.name p = s.heap.name p := by
  cases op with
  | lock l =>
    simp only [State.exec] at done
    split at done <;> cases done
    cases l <;> rfl
  | unlock l =>
    cases done
    cases l <;> rfl
  | setSock q t => cases t <;> cases done <;> rfl
  | new name device clientDir c =>
    cases done
    exact Function.update_of_ne known.ne ..
  | send t cmd =>
    cases t with
    | none => cases done
    | some c =>
      cases ch <;> simp only [State.exec] at done <;> (try split at done) <;> cases done <;> rfl
  | recv c =>
    cases ch <;> simp only [State.exec, State.recv] at done <;> (try split at done) <;>
      cases done <;> rfl
  | closeSock t =>
    cases t with
    | none => cases done
    | some c =>
      cases ch <;> simp only [State.exec] at done <;> (try split at done) <;> cases done <;> rfl
  | openSock device clientDir =>
    cases ch <;> simp only [State.exec] at done <;> (try split at done) <;> cases done <;> rfl
  | range =>
    cases ch <;> simp only [State.exec] at done <;> (try split at done) <;> cases done <;> rfl
  | panic => cases done
  | _ => cases done; rfl

section
variable [Fintype ι] {c : Config ι Op Ans (State ι) Call Res}

omit [Fintype ι] in
/-- The handle that a caller is using is still the caller's. -/
private theorem using_own (run : Reach (system ι m) (A.condition m) (initial ι) c) {i : ι} {p : Ptr}
    {cmd : GoString} (sending : c.state.call i = some (.sendRawCmd p cmd)) :
    p ∈ c.state.held i := by
  induction run with
  | refl => cases sending
  | @step c c' l run ok next ih =>
    cases System.stepped next with
    | @start j call s' idle started =>
      have started' : c.state.start j call = some s' := started
      by_cases same : i = j
      · subst same
        -- The call that starts is the one in the record.
        have now : s'.call i = some call := by
          rw [start_call call c.state s' started', Function.update_self]
        rw [now, Option.some.injEq] at sending
        subst sending
        have held : p ∈ c.state.held i := of_decide_eq_true ok
        simp only [State.start, held, true_or, if_true, Option.some.injEq] at started'
        subst started'
        exact held
      · obtain ⟨sameCall, sameHeld, -⟩ := start_others same started'
        rw [sameHeld]
        exact ih (sameCall ▸ sending)
    | @step j ch call op k a s' at_op done =>
      obtain ⟨sameCall, sameHeld, -⟩ := exec_callers op ch c.state s' a done
      rw [sameHeld]
      exact ih (sameCall ▸ sending)
    | @finish j call r at_ret =>
      have sending' : (c.state.finish j call r).call i = some (.sendRawCmd p cmd) := sending
      by_cases same : i = j
      · subst same
        rw [finish_call call r c.state, Function.update_self] at sending'
        cases sending'
      · obtain ⟨sameCall, sameHeld⟩ := finish_others call r c.state same
        show p ∈ (c.state.finish j call r).held i
        rw [sameHeld]
        exact ih (sameCall ▸ sending')
    | @env ch s' moved =>
      obtain ⟨d, k, -, rfl⟩ := peer_cases ch c.state s' moved
      exact ih sending

omit [DecidableEq ι] in
private theorem Inv.lt_of_handed {s : State ι} (inv : Inv A m s) {p : Ptr} (handed : s.Handed p) :
    p < s.next := by
  obtain ⟨i, mine⟩ := handed
  exact inv.lt_of_cached (inv.known i p mine)

/-! ### What the steps do to the registry -/

omit [Fintype ι] [DecidableEq ι] in
/-- States with the same records and names of handles have one registry. -/
private theorem registry_eq {s s' : State ι} (handed : ∀ p, s'.Handed p ↔ s.Handed p)
    (names : ∀ p, s.Handed p → s'.heap.name p = s.heap.name p)
    (has : ∀ i, s'.registry.has i = s.registry.has i) : s'.registry = s.registry := by
  have handles : s'.registry.handles = s.registry.handles := by
    ext ⟨p, n⟩
    constructor
    · rintro ⟨known, named⟩
      have before := (handed p).mp known
      exact ⟨before, (names p before).symm.trans named⟩
    · rintro ⟨known, named⟩
      exact ⟨(handed p).mpr known, (names p known).trans named⟩
  exact Registry.ext handles (funext has)

omit [Fintype ι] in
/-- A call that starts leaves the registry alone: a `Close` still has its handle. -/
private theorem registry_start {i : ι} {call : Call} {s s' : State ι} (free : s.call i = none)
    (own : usesOwnHandle i call s = true) (started : s.start i call = some s') :
    s'.registry = s.registry := by
  have heap : s'.heap = s.heap := by
    cases call <;> simp only [State.start] at started <;> (try split at started) <;>
      cases started <;> rfl
  have now : s'.call i = some call := by
    rw [start_call call s s' started, Function.update_self]
  -- The records of the caller: only a `Close` moves a handle, from held to spent.
  have mine : (∀ p, p ∈ s'.held i ∨ p ∈ s'.spent i ↔ p ∈ s.held i ∨ p ∈ s.spent i) ∧
      s'.registry.has i = s.registry.has i := by
    have before : s.registry.has i = (s.held i : Multiset Ptr) := by
      simp only [State.registry, free]
    rw [before]
    simp only [State.registry, now]
    cases call with
    | get name =>
      cases started
      exact ⟨fun p => Iff.rfl, rfl⟩
    | sendRawCmd p cmd =>
      have held : p ∈ s.held i := of_decide_eq_true own
      simp only [State.start, held, true_or, if_true, Option.some.injEq] at started
      subst started
      exact ⟨fun p => Iff.rfl, rfl⟩
    | close p =>
      have held : p ∈ s.held i := of_decide_eq_true own
      simp only [State.start, held, true_or, if_true, Option.some.injEq] at started
      subst started
      simp only [Function.update_self]
      constructor
      · intro q
        by_cases same : q = p
        · subst same
          simp [held]
        · rw [List.mem_erase_of_ne same, List.mem_cons, or_iff_right same]
      · exact Multiset.coe_eq_coe.mpr (List.perm_cons_erase held).symm
  refine registry_eq (fun p => ?_) (fun p _ => by rw [heap]) fun j => ?_
  · -- Whose handle it is decides which of the two records is read.
    apply exists_congr
    intro j
    by_cases same : j = i
    · subst same
      exact mine.1 p
    · obtain ⟨-, sameHeld, sameSpent⟩ := start_others same started
      rw [sameHeld, sameSpent]
  · by_cases same : j = i
    · subst same
      exact mine.2
    · obtain ⟨sameCall, sameHeld, -⟩ := start_others same started
      simp only [State.registry, sameCall, sameHeld]

private theorem registry_exec {i : ι} {op : Op} {ch : Choice} {s s' : State ι} {a : Ans op}
    (inv : Inv A m s) (done : s.exec i op ch = some (a, s')) : s'.registry = s.registry := by
  obtain ⟨sameCall, sameHeld, sameSpent⟩ := exec_callers op ch s s' a done
  refine registry_eq (fun p => ?_) (fun p handed => ?_) fun j => ?_
  · simp only [State.Handed, sameHeld, sameSpent]
  · exact exec_name done p (inv.lt_of_handed handed)
  · simp only [State.registry, sameCall, sameHeld]

omit [Fintype ι] in
/-- The registry when caller `i` is no longer in a call -/
private theorem registry_return (s : State ι) (i : ι) :
    ({ s with call := Function.update s.call i none } : State ι).registry =
      { s.registry with
        has := Function.update s.registry.has i (s.held i : Multiset Ptr) } := by
  have has : ∀ j, ({ s with call := Function.update s.call i none } : State ι).registry.has j =
      Function.update s.registry.has i (s.held i : Multiset Ptr) j := by
    intro j
    by_cases same : j = i
    · subst same
      simp [State.registry]
    · simp [State.registry, Function.update_of_ne same]
  exact Registry.ext rfl (funext has)

omit [Fintype ι] in
private theorem registry_get {s : State ι} {i : ι} {name : GoString} {p : Ptr}
    (calling : s.call i = some (.get name)) (named : s.heap.name p = name) :
    (s.finish i (.get name) (.get (.ok p))).registry = (s.registry.enter p name).grant i p := by
  have mine : s.registry.has i = (s.held i : Multiset Ptr) := by
    simp only [State.registry, calling]
  have handles : (s.finish i (.get name) (.get (.ok p))).registry.handles =
      insert (p, name) s.registry.handles := by
    ext ⟨q, n⟩
    simp only [State.registry, State.Handed, State.finish, Set.mem_ofPred_eq, Set.mem_insert_iff,
      Prod.mk.injEq]
    constructor
    · rintro ⟨⟨j, known⟩, rfl⟩
      by_cases same : j = i
      · subst same
        simp only [Function.update_self, List.mem_cons] at known
        rcases known with (rfl | held) | spent
        · exact .inl ⟨rfl, named⟩
        · exact .inr ⟨⟨j, .inl held⟩, rfl⟩
        · exact .inr ⟨⟨j, .inr spent⟩, rfl⟩
      · rw [Function.update_of_ne same] at known
        exact .inr ⟨⟨j, known⟩, rfl⟩
    · rintro (⟨rfl, rfl⟩ | ⟨⟨j, known⟩, rfl⟩)
      · exact ⟨⟨i, .inl (by simp)⟩, named⟩
      · refine ⟨⟨j, ?_⟩, rfl⟩
        by_cases same : j = i
        · subst same
          simp only [Function.update_self, List.mem_cons]
          rcases known with held | spent
          · exact .inl (.inr held)
          · exact .inr spent
        · rw [Function.update_of_ne same]
          exact known
  have has : ∀ j, (s.finish i (.get name) (.get (.ok p))).registry.has j =
      Function.update s.registry.has i (p ::ₘ s.registry.has i) j := by
    intro j
    by_cases same : j = i
    · subst same
      simp [State.registry, State.finish, calling]
    · simp [State.registry, State.finish, Function.update_of_ne same]
  exact Registry.ext handles (funext has)

/-- A call that returns is a call of the registry. -/
private theorem registry_finish (run : Reach (system ι m) (A.condition m) (initial ι) c) {i : ι}
    {call : Call} {res : Res} (at_ret : c.thread i = .running call (.ret res)) :
    Registry.Takes A.evicts (Replied A) ⟨i, call, res⟩ c.state.registry
      (c.state.finish i call res).registry := by
  have ok := reach_ok run
  have inv := ok.1
  have post := ok.post at_ret
  have calling : c.state.call i = some call := by
    rw [call_of_thread run i, at_ret]
    rfl
  -- A call other than `Close` does not change what its caller has.
  have unchanged : (∀ p, call ≠ .close p) →
      ({ c.state with call := Function.update c.state.call i none } : State ι).registry =
        c.state.registry := by
    intro other
    have mine : (c.state.held i : Multiset Ptr) = c.state.registry.has i := by
      cases call with
      | close p => exact absurd rfl (other p)
      | _ => simp only [State.registry, calling]
    rw [registry_return, mine, Function.update_eq_self]
  cases call with
  | get name =>
    cases res with
    | get r =>
      cases r with
      | ok p =>
        have fetched : Fetched i name p c.state := post
        rw [registry_get calling fetched.named]
        by_cases known : c.state.Handed p
        · have member : (p, name) ∈ c.state.registry.handles := ⟨known, fetched.named⟩
          have entered : c.state.registry.enter p name = c.state.registry := by
            simp only [Registry.enter, Set.insert_eq_of_mem member]
          rw [entered]
          exact .found member
        · refine .opened (fun n here => known here.1) fun single q here => ?_
          -- Another handle of the name would be an allocation of it.
          have same : p = q := inv.unique single p (inv.lt_of_cached fetched.flag) q
            (inv.lt_of_handed here.1) (fetched.named.trans here.2.symm)
          exact known (same ▸ here.1)
      | error err =>
        have same := unchanged fun p => by simp
        show Registry.Takes _ _ _ _ ({ c.state with call := _ } : State ι).registry
        rw [same]
        exact .failed
    | sendRawCmd r => cases post
    | close err => cases post
  | sendRawCmd p cmd =>
    cases res with
    | sendRawCmd r =>
      have replied : Replied A r := post.2
      have held := using_own run calling
      have mine : p ∈ c.state.registry.has i := by
        simp only [State.registry, calling]
        exact held
      have same := unchanged fun p => by simp
      show Registry.Takes _ _ _ _ ({ c.state with call := _ } : State ι).registry
      rw [same]
      exact .replied mine replied
    | get r => cases post
    | close err => cases post
  | close p =>
    cases res with
    | close err =>
      obtain ⟨rfl, -⟩ : err = none ∧ _ := post
      have has : c.state.registry.has i = p ::ₘ (c.state.held i : Multiset Ptr) := by
        simp only [State.registry, calling]
      have dropped : (c.state.finish i (.close p) (.close none)).registry =
          c.state.registry.drop i p := by
        simp only [Registry.drop, has, Multiset.erase_cons_head]
        exact registry_return c.state i
      rw [dropped]
      exact .closed (by simp [has])
    | get r => cases post
    | sendRawCmd r => cases post

/-! ### Histories of a `Manager` -/

private theorem serial {h : List (Return ι Call Res)}
    (run : History (system ι m) (A.condition m) (initial ι) h c) :
    Serial (Registry.Takes A.evicts (Replied A)) Registry.empty h c.state.registry := by
  have first : (initial ι).state.registry = Registry.empty := by
    simp [initial, State.init, State.registry, State.Handed, Registry.empty]
  rw [← first]
  refine run.serial State.registry ?_ ?_ (fun c i call r before => registry_finish before) ?_
  · intro c i call s' before idle own started
    have free : c.state.call i = none := by
      rw [call_of_thread before i, idle]
      rfl
    exact registry_start free own started
  · intro c i call op k ch a s' before at_op ok done
    exact registry_exec (reach_ok before).1 done
  · intro c ch s' before moved
    obtain ⟨d, k, -, rfl⟩ := peer_cases ch c.state s' moved
    rfl

omit [Fintype ι] in
/-- A schedule that meets `A` has a history like its last. -/
private theorem exists_history (P : ι → Op → Choice → State ι → Bool)
    (meets : ∀ i op ch s, P i op ch s = true → (A.condition m).step i op ch s)
    (ls : List (Label ι Choice Call))
    (goal : List (Return ι Call Res) × Config ι Op Ans (State ι) Call Res → Bool)
    (ran : ((system ι m).record usesOwnHandle P ls ([], initial ι)).any goal = true) :
    ∃ h c, History (system ι m) (A.condition m) (initial ι) h c ∧ goal (h, c) = true := by
  obtain ⟨⟨h, c⟩, last, holds⟩ := (Option.any_eq_true goal _).mp ran
  have run := history_of_record usesOwnHandle P ls .refl last
  refine ⟨h, c, ?_, holds⟩
  exact History.weaken (C := .checked usesOwnHandle P) (fun _ _ _ own => own) meets run

/-- Two callers `Get` one name, one of them another name too; a request and a `Close` -/
private def session : List (Label Bool Choice Call) :=
  uninterrupted true (.get (lit "a")) (List.replicate 14 .go) ++
    uninterrupted false (.get (lit "a")) (List.replicate 10 .go) ++
    uninterrupted false (.get (lit "b")) (List.replicate 14 .go) ++
    .start false (.sendRawCmd 0 (lit "PING")) :: List.replicate 3 (.step false .go) ++
    .env (.answer 0 0 (lit "PONG\n")) :: List.replicate 2 (.step false .go) ++ [.finish false] ++
    uninterrupted true (.close 0) (List.replicate 5 .go)

/-- Who fetched which names, with the handles returned -/
private def fetched (h : List (Return Bool Call Res)) : List (Bool × GoString × Ptr) :=
  h.filterMap fun
    | ⟨i, .get name, .get (.ok p)⟩ => some (i, name, p)
    | _ => none

private theorem mem_of_fetched {h : List (Return Bool Call Res)} {i : Bool} {name : GoString}
    {p : Ptr} (member : (i, name, p) ∈ fetched h) : ⟨i, .get name, .get (.ok p)⟩ ∈ h := by
  obtain ⟨⟨i, call, res⟩, here, is⟩ := List.mem_filterMap.mp member
  split at is
  next i' name' p' same =>
    cases same
    cases is
    exact here
  · cases is

private theorem session_history :
    ∃ h c, History (system Bool ⟨[], [], 2⟩)
        ((⟨True, False, False, True⟩ : Assumptions).condition ⟨[], [], 2⟩) (initial Bool) h c ∧
      fetched h = [(true, lit "a", 0), (false, lit "a", 0), (false, lit "b", 1)] ∧
        h.length = 5 := by
  obtain ⟨h, c, run, last⟩ := exists_history (A := ⟨True, False, False, True⟩) (m := ⟨[], [], 2⟩)
    (fun i op ch s => evictsOwnEntry i op ch s && sendsAfterReplies i op ch s)
    (fun i op ch s both => ⟨fun _ => (Bool.and_eq_true_iff.mp both).1, False.elim, False.elim,
      fun _ => (Bool.and_eq_true_iff.mp both).2⟩)
    session (fun x => fetched x.1 == [(true, lit "a", 0), (false, lit "a", 0),
      (false, lit "b", 1)] && x.1.length == 5) (by decide +kernel)
  simp only [Bool.and_eq_true, beq_iff_eq] at last
  exact ⟨h, c, run, last⟩

/-- However the goroutines interleave, what the callers of a `Manager` see is a registry. -/
theorem manager_serial {h : List (Return ι Call Res)}
    (run : History (system ι m) (A.condition m) (initial ι) h c) :
    Serial (Registry.Takes A.evicts (Replied A)) Registry.empty h c.state.registry :=
  serial run

theorem manager_serial_session :
    ∃ h c, History (system Bool ⟨[], [], 2⟩)
        ((⟨True, False, False, True⟩ : Assumptions).condition ⟨[], [], 2⟩) (initial Bool) h c ∧
      h.length = 5 ∧
      Serial (Registry.Takes True (Replied ⟨True, False, False, True⟩)) Registry.empty h
        c.state.registry := by
  obtain ⟨h, c, run, -, five⟩ := session_history
  exact ⟨h, c, run, five, manager_serial run⟩

/-- All that the `Get`s of a history return for one name are one handle, if `evict` only ever drops
the entry that is stored again, and for two names they are two. -/
theorem handles_of_names {h : List (Return ι Call Res)}
    (run : History (system ι m) (A.condition m) (initial ι) h c) {i j : ι} {name name' : GoString}
    {p q : Ptr} (first : ⟨i, .get name, .get (.ok p)⟩ ∈ h)
    (second : ⟨j, .get name', .get (.ok q)⟩ ∈ h) :
    (p = q → name = name') ∧ (A.evicts → name = name' → p = q) :=
  Registry.one_handle (serial run) first second

theorem handles_of_names_session :
    ∃ h c, History (system Bool ⟨[], [], 2⟩)
        ((⟨True, False, False, True⟩ : Assumptions).condition ⟨[], [], 2⟩) (initial Bool) h c ∧
      ∃ p q r, ⟨true, .get (lit "a"), .get (.ok p)⟩ ∈ h ∧
        ⟨false, .get (lit "a"), .get (.ok q)⟩ ∈ h ∧ ⟨false, .get (lit "b"), .get (.ok r)⟩ ∈ h ∧
        p = q ∧ p ≠ r := by
  obtain ⟨h, c, run, names, -⟩ := session_history
  have one : ⟨true, .get (lit "a"), .get (.ok 0)⟩ ∈ h := mem_of_fetched (by simp [names])
  have same : ⟨false, .get (lit "a"), .get (.ok 0)⟩ ∈ h := mem_of_fetched (by simp [names])
  have other : ⟨false, .get (lit "b"), .get (.ok 1)⟩ ∈ h := mem_of_fetched (by simp [names])
  have different : lit "a" ≠ lit "b" := by decide
  exact ⟨h, c, run, 0, 0, 1, one, same, other, (handles_of_names run one same).2 trivial rfl,
    fun equal => different ((handles_of_names run one other).1 equal)⟩

end

end HostapdGrpc.Socket
