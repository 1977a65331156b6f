import HostapdGrpc.Socket.Handles
import HostapdGrpc.Interaction.Auxiliary

/-!
# A handle closed twice

Two handles of one `sharedSocket` are the same pointer, so only their callers can tell which of
them is closed. `Close` looks at the count they share.
-/

namespace HostapdGrpc.Socket

open Go Interaction

/-! ### Callers that remember their handles -/

/-- What a `Get` returned, and whether its caller has passed it to `Close`. -/
structure Handle where
  sh : Ptr
  closed : Bool
  deriving DecidableEq

/-- A call; `close n` closes what the `n`-th `Get` of the caller returned. -/
inductive HandleCall where
  | get (name : GoString)
  | sendRawCmd (sh : Ptr) (cmd : GoString)
  | close (n : Nat) (sh : Ptr)

def HandleCall.toCall : HandleCall → Call
  | .get name => .get name
  | .sendRawCmd sh cmd => .sendRawCmd sh cmd
  | .close _ sh => .close sh

/-- Besides the shared state, the handles of each caller in the order it got them, and whether it
is in a second `Close` of one of them. -/
structure Records (ι : Type) where
  state : State ι
  handles : ι → List Handle
  again : ι → Bool

variable {ι : Type} [DecidableEq ι]

namespace Records

/-- A second `Close` of a handle gives up no further one. -/
def start (i : ι) (call : HandleCall) (s : Records ι) : Option (Records ι) :=
  match call with
  | .close n sh =>
    if (s.handles i)[n]? = some ⟨sh, false⟩ then
      (s.state.start i (.close sh)).map fun t => { s with
        state := t
        handles := Function.update s.handles i ((s.handles i).set n ⟨sh, true⟩) }
    else if (s.handles i)[n]? = some ⟨sh, true⟩ then
      some { s with
        state.call := Function.update s.state.call i (some (.close sh))
        again := Function.update s.again i true }
    else none
  | call => (s.state.start i call.toCall).map fun t => { s with state := t }

def finish (i : ι) (call : HandleCall) (res : Res) (s : Records ι) : Records ι where
  state := s.state.finish i call.toCall res
  handles :=
    match call, res with
    | .get _, .get (.ok sh) => Function.update s.handles i (s.handles i ++ [⟨sh, false⟩])
    | _, _ => s.handles
  again := Function.update s.again i false

end Records

/-- The callers of a `Manager`, with what they remember -/
def recorded (ι : Type) [DecidableEq ι] (m : Manager) :
    System ι Op Ans (Records ι) Choice HandleCall Res where
  exec i op ch s := (s.state.exec i op ch).map fun r => (r.1, { s with state := r.2 })
  body call := body m call.toCall
  start i call s := s.start i call
  finish i call res s := s.finish i call res
  env ch s := (s.state.peer ch).map fun t => { s with state := t }

def noHandles (ι : Type) : Config ι Op Ans (Records ι) HandleCall Res :=
  ⟨⟨State.init, fun _ => [], fun _ => false⟩, fun _ => .idle⟩

/-- When a second `Close` reads the count, nobody has a reference that is counted in it. -/
def readsUnreferenced [Fintype ι] (i : ι) (op : Op) (_ : Choice) (s : Records ι) : Bool :=
  match op with
  | .refs sh => !s.again i || decide (∀ j, sh ∉ s.state.taken j)
  | _ => true

def closesLast [Fintype ι] : Condition ι Op (Records ι) Choice HandleCall :=
  .checked (fun _ _ _ => true) readsUnreferenced

/-! ### Open handles -/

/-- The handles not passed to `Close` -/
def unclosed (hs : List Handle) : List Ptr := (hs.filter fun h => !h.closed).map Handle.sh

theorem unclosed_append (hs : List Handle) (sh : Ptr) :
    unclosed (hs ++ [⟨sh, false⟩]) = unclosed hs ++ [sh] := by simp [unclosed]

theorem mem_unclosed {hs : List Handle} {n : Nat} {sh : Ptr} (nth : hs[n]? = some ⟨sh, false⟩) :
    sh ∈ unclosed hs :=
  List.mem_map.mpr ⟨_, List.mem_filter.mpr ⟨List.mem_of_getElem? nth, rfl⟩, rfl⟩

theorem unclosed_set {hs : List Handle} {n : Nat} {sh : Ptr} (nth : hs[n]? = some ⟨sh, false⟩) :
    (unclosed (hs.set n ⟨sh, true⟩)).Perm ((unclosed hs).erase sh) := by
  have split : (sh :: unclosed (hs.set n ⟨sh, true⟩)).Perm (unclosed hs) := by
    induction hs generalizing n with
    | nil => simp at nth
    | cons h hs ih =>
      cases n with
      | zero =>
        obtain rfl : h = ⟨sh, false⟩ := by simpa using nth
        exact .refl _
      | succ n =>
        have later := ih (by simpa using nth)
        obtain ⟨first, closed⟩ := h
        cases closed with
        | true => exact later
        | false => exact (List.Perm.swap first sh _).trans (later.cons first)
  have erased := split.erase sh
  rwa [List.erase_cons_head] at erased

/-- The records say of each caller what the state says. -/
structure Records.Kept (s : Records ι) : Prop where
  held : ∀ i, (unclosed (s.handles i)).Perm (s.state.held i)
  known : ∀ i, ∀ h ∈ s.handles i, h.sh ∈ s.state.held i ∨ h.sh ∈ s.state.spent i

omit [DecidableEq ι] in
theorem Records.Kept.congr {s : Records ι} (kept : s.Kept) {t : State ι}
    (held : t.held = s.state.held) (spent : t.spent = s.state.spent) (again : ι → Bool) :
    Records.Kept ⟨t, s.handles, again⟩ :=
  ⟨fun i => by simpa only [held] using kept.held i,
    fun i => by simpa only [held, spent] using kept.known i⟩

theorem Records.Kept.finish {s : Records ι} (kept : s.Kept) (i : ι) (call : HandleCall)
    (res : Res) : (s.finish i call res).Kept := by
  cases call with
  | sendRawCmd sh cmd => exact ⟨kept.held, kept.known⟩
  | close n sh => exact ⟨kept.held, kept.known⟩
  | get name =>
    cases res with
    | sendRawCmd r => exact ⟨kept.held, kept.known⟩
    | close err => exact ⟨kept.held, kept.known⟩
    | get r =>
      cases r with
      | error err => exact ⟨kept.held, kept.known⟩
      -- One handle more, here and in the state
      | ok sh =>
        refine ⟨fun j => ?_, fun j h member => ?_⟩ <;>
          simp only [Records.finish, HandleCall.toCall, State.finish] at * <;>
          by_cases same : j = i
        · subst same
          rw [Function.update_self, Function.update_self, unclosed_append]
          exact (List.perm_append_singleton _ _).trans ((kept.held j).cons sh)
        · simpa only [Function.update_of_ne same] using kept.held j
        · subst same
          rw [Function.update_self] at member ⊢
          rcases List.mem_append.mp member with before | new
          · exact (kept.known j h before).imp_left (List.mem_cons_of_mem sh)
          · exact .inl (List.mem_singleton.mp new ▸ List.mem_cons_self)
        · rw [Function.update_of_ne same] at member ⊢
          exact kept.known j h member

/-- The first `Close` of a handle gives up a handle in the state too. -/
theorem Records.Kept.close {s : Records ι} (kept : s.Kept) {i : ι} {n : Nat} {sh : Ptr}
    (nth : (s.handles i)[n]? = some ⟨sh, false⟩) {t : State ι}
    (held : t.held = Function.update s.state.held i ((s.state.held i).erase sh))
    (spent : t.spent = Function.update s.state.spent i (sh :: s.state.spent i)) :
    Records.Kept ⟨t, Function.update s.handles i ((s.handles i).set n ⟨sh, true⟩), s.again⟩ := by
  refine ⟨fun j => ?_, fun j h member => ?_⟩ <;> by_cases same : j = i
  · subst same
    have left := (unclosed_set nth).trans ((kept.held j).erase sh)
    simpa only [held, Function.update_self] using left
  · simpa only [held, Function.update_of_ne same] using kept.held j
  · subst same
    simp only [held, spent, Function.update_self] at member ⊢
    rcases List.mem_or_eq_of_mem_set member with before | rfl
    · rcases kept.known j h before with there | gone
      · by_cases given : h.sh = sh
        · exact .inr (given ▸ List.mem_cons_self)
        · exact .inl ((List.mem_erase_of_ne given).mpr there)
      · exact .inr (List.mem_cons_of_mem _ gone)
    · exact .inr List.mem_cons_self
  · simp only [held, spent, Function.update_of_ne same] at member ⊢
    exact kept.known j h member

/-- Only some operations write a count. -/
theorem exec_refs {i : ι} (op : Op) (ch : Choice) (s s' : State ι) (a : Ans op)
    (uncounted : op.countsReference = false) (done : s.exec i op ch = some (a, s')) :
    s'.heap.refs = s.heap.refs := by
  cases op with
  | incRefs p => cases uncounted
  | decRefs p => cases uncounted
  | new name device clientDir c => cases uncounted
  | lock l =>
    simp only [State.exec] at done
    split at done <;> cases done
    cases l <;> rfl
  | unlock l =>
    cases done
    cases l <;> rfl
  | setSock p t => cases t <;> cases done <;> rfl
  | send t cmd =>
    cases t with
    | none => cases done
    | some c =>
      cases ch <;> simp only [State.exec] at done <;> (try split at done) <;> cases done <;> rfl
  | recv c =>
    cases ch <;> simp only [State.exec, State.recv] at done <;> (try split at done) <;>
      cases done <;> rfl
  | closeSock t =>
    cases t with
    | none => cases done
    | some c =>
      cases ch <;> simp only [State.exec] at done <;> (try split at done) <;> cases done <;> rfl
  | openSock device clientDir =>
    cases ch <;> simp only [State.exec] at done <;> (try split at done) <;> cases done <;> rfl
  | range =>
    cases ch <;> simp only [State.exec] at done <;> (try split at done) <;> cases done <;> rfl
  | panic => cases done
  | _ => cases done; rfl

/-! ### The logic of recorded callers -/

variable [Fintype ι] {m : Manager} {i : ι} {sh : Ptr}

/-- Nothing is assumed of the runs of the `Manager`. -/
abbrev unassuming : Assumptions := ⟨False, False, False, False⟩

/-- In a second `Close`, besides, it is bad to write a count. -/
def recordLogic (ι : Type) [DecidableEq ι] [Fintype ι] (m : Manager) :
    Logic ι Op Ans (Records ι) Choice HandleCall Res where
  sys := recorded ι m
  cond := closesLast
  inv s := Inv unassuming m s.state ∧ s.Kept
  rely i s s' := Rely i s.state s'.state ∧ s'.handles i = s.handles i ∧ s'.again i = s.again i
  bad i op s := Bad unassuming i op s.state ∨ s.again i = true ∧ op.countsReference = true
  rely_refl i s := ⟨Rely.refl i s.state, rfl, rfl⟩
  rely_trans i s₁ s₂ s₃ first second :=
    ⟨first.1.trans second.1, second.2.1.trans first.2.1, second.2.2.trans first.2.2⟩
  guarantee i op ch s a s' inv safe done j ne := by
    obtain ⟨⟨a', t⟩, ran, rfl, rfl⟩ : ∃ r, s.state.exec i op ch = some r ∧ r.1 = a ∧
        { s with state := r.2 } = s' := by
      simpa [recorded] using done
    have rely := Rely.of_exec unassuming m i op ch s.state t a' inv.1
      (fun bad => safe (.inl bad)) ran j ne
    exact ⟨rely, rfl, rfl⟩

theorem recordLogic_extends (i : ι) (again : Bool) :
    (recordLogic ι m).Extends (logic ι unassuming m) Records.state i
      (fun op => again = true → op.countsReference = false) (fun s => s.again i = again) where
  inv _ inv := inv.1
  rely _ _ rely := rely.1
  stable s s' _ _ rely holds := rely.2.2.trans holds
  bad op s only holds bad := by
    rcases bad with bad | ⟨second, counts⟩
    · exact bad
    · rw [only (holds.symm.trans second)] at counts
      cases counts
  cond _ _ _ _ := ⟨False.elim, False.elim, False.elim, False.elim⟩
  exec op ch s a s' done := by
    obtain ⟨r, ran, same⟩ := Option.map_eq_some_iff.mp done
    cases same
    exact ran
  keeps op ch s a s' inv holds done inv' := by
    obtain ⟨r, ran, same⟩ := Option.map_eq_some_iff.mp done
    cases same
    obtain ⟨-, held, spent⟩ := exec_callers op ch s.state r.2 r.1 ran
    exact ⟨⟨inv', inv.2.congr held spent s.again⟩, holds⟩

/-! ### A second `Close` -/

/-- In a `Close` without a reference to give up -/
structure Repeating (i : ι) (sh : Ptr) (s : State ι) : Prop where
  call : s.call i = some (.close sh)
  taken : s.taken i = s.held i
  known : s.heap.cached sh = true

private theorem Repeating.framed : Framed unassuming m i (Repeating i sh) where
  stable _ _ _ _ rely h :=
    ⟨rely.call.trans h.call, (rely.taken.trans h.taken).trans rely.held.symm,
      rely.cached sh h.known⟩
  fmu _ _ _ h := ⟨h.call, h.taken, h.known⟩

/-- Nobody has a reference, so the count is 0. -/
private theorem readNoRefs_spec :
    (recordLogic ι m).Triple i
      (fun s => WithFmu i sh (Repeating i sh) s.state ∧ s.again i = true) (act (.refs sh))
      fun n s => n = 0 ∧ WithFmu i sh (Repeating i sh) s.state ∧ s.again i = true := by
  have sees := recordLogic_extends (m := m) i true
  apply Logic.Triple.perform
  · rintro s _ ⟨locked, _⟩ (bad | ⟨_, counts⟩)
    · exact bad locked.1
    · cases counts
  · rintro s ch n s' inv ⟨locked, second⟩ ok done
    cases done
    have nobody : ∀ j, sh ∉ s.state.taken j := by
      have checked : readsUnreferenced i (.refs sh) ch s = true := ok
      simpa [readsUnreferenced, second] using checked
    refine ⟨inv, ?_, locked, second⟩
    show s.state.heap.refs sh = 0
    rw [inv.1.refs sh]
    exact Finset.sum_eq_zero fun j _ => List.count_eq_zero.mpr (nobody j)
  · exact fun n => (Logic.Stable.const _).and
      ((sees.stable_view (Repeating.framed.withFmu sh)).and sees.stable)

private theorem closeAgain_spec :
    (recordLogic ι m).Triple i (fun s => Repeating i sh s.state ∧ s.again i = true)
      (SharedSocket.close sh) fun err s => err = some SharedSocket.closedTwice ∧
        Repeating i sh s.state ∧ s.again i = true := by
  have sees := recordLogic_extends (m := m) i true
  have known : ∀ s, Inv unassuming m s → Repeating i sh s → sh < s.next := fun s inv h =>
    inv.lt_of_cached h.known
  apply Logic.Triple.bind
    (sees.triple (.perform fun _ => rfl) (lockFmu_spec sh Repeating.framed known))
  intro _
  apply Logic.Triple.bind_eq readNoRefs_spec
  rw [if_pos (beq_self_eq_true 0)]
  apply Logic.Triple.bind
    (sees.triple (.perform fun _ => rfl) (unlockFmu_spec sh Repeating.framed known))
  exact fun _ => Logic.Triple.ret _ fun _ _ h => ⟨rfl, h⟩

/-! ### All calls -/

/-- The caller is in a second `Close`. -/
def Repeats (i : ι) (call : HandleCall) (s : Records ι) : Prop :=
  ∃ n sh, call = .close n sh ∧ Repeating i sh s.state ∧ s.again i = true

private theorem recordStart_ok (call : HandleCall) (s s' : Records ι)
    (inv : Inv unassuming m s.state ∧ s.Kept) (idle : Idle i s.state ∧ s.again i = false)
    (started : s.start i call = some s') :
    (Inv unassuming m s'.state ∧ s'.Kept) ∧
      (Pre i call.toCall s'.state ∧ s'.again i = false ∨ Repeats i call s') ∧
      ∀ j, j ≠ i → Rely j s.state s'.state ∧ s'.handles j = s.handles j ∧
        s'.again j = s.again j := by
  have verified := fun t ok began =>
    (proof ι unassuming m).start_ok i call.toCall s.state t inv.1 idle.1 ok began
  have taken : s.state.taken i = s.state.held i := idle.1
  -- A call that leaves the handles as they are
  have called : ∀ call, Inv unassuming m { s.state with
        call := Function.update s.state.call i (some call) } ∧ ∀ j, j ≠ i →
      Rely j s.state { s.state with call := Function.update s.state.call i (some call) } := by
    intro call
    refine caller_ok (i := i) inv.1 _ s.state.held s.state.spent
      (fun j ne => ⟨Function.update_of_ne ne .., rfl, rfl⟩) (inv.1.known i) ?_
    cases call <;> simp [Accounted, taken]
  cases call with
  | get name =>
    cases started
    obtain ⟨inv', pre, others⟩ := verified _ rfl rfl
    exact ⟨⟨inv', inv.2.held, inv.2.known⟩, .inl ⟨pre, idle.2⟩,
      fun j ne => ⟨others j ne, rfl, rfl⟩⟩
  | sendRawCmd sh cmd =>
    obtain ⟨t, began, rfl⟩ := Option.map_eq_some_iff.mp started
    simp only [HandleCall.toCall, State.start] at began
    split at began
    next mine =>
      cases began
      obtain ⟨inv', others⟩ := called (.sendRawCmd sh cmd)
      exact ⟨⟨inv', inv.2.held, inv.2.known⟩,
        .inl ⟨⟨inv.1.known i sh mine, Function.update_self .., taken⟩, idle.2⟩,
        fun j ne => ⟨others j ne, rfl, rfl⟩⟩
    · cases began
  | close n sh =>
    simp only [Records.start] at started
    split at started
    -- The first `Close` of a handle, which the caller holds
    next nth =>
      obtain ⟨t, began, rfl⟩ := Option.map_eq_some_iff.mp started
      have held : sh ∈ s.state.held i := (inv.2.held i).mem_iff.mp (mem_unclosed nth)
      obtain ⟨inv', pre, others⟩ := verified t (decide_eq_true held) began
      simp only [State.start, held, true_or, if_true, Option.some.injEq] at began
      have kept := inv.2.close (t := t) nth (by rw [← began]) (by rw [← began])
      exact ⟨⟨inv', kept⟩, .inl ⟨pre, idle.2⟩, fun j ne =>
        ⟨others j ne, Function.update_of_ne ne .., rfl⟩⟩
    · split at started
      -- A second one, for which the caller has nothing left to give up
      next nth =>
        cases started
        obtain ⟨inv', others⟩ := called (.close sh)
        have known := inv.1.known i sh (inv.2.known i _ (List.mem_of_getElem? nth))
        exact ⟨⟨inv', inv.2.held, inv.2.known⟩,
          .inr ⟨n, sh, rfl, ⟨Function.update_self .., taken, known⟩, Function.update_self ..⟩,
          fun j ne => ⟨others j ne, rfl, Function.update_of_ne ne ..⟩⟩
      · cases started

private theorem recordFinish_ok (call : HandleCall) (res : Res) (s : Records ι)
    (inv : Inv unassuming m s.state ∧ s.Kept)
    (post : Post unassuming i call.toCall res s.state ∧ s.again i = false ∨
      Repeats i call s ∧ res = .close (some SharedSocket.closedTwice)) :
    (Inv unassuming m (s.finish i call res).state ∧ (s.finish i call res).Kept) ∧
      (Idle i (s.finish i call res).state ∧ (s.finish i call res).again i = false) ∧
      ∀ j, j ≠ i → Rely j s.state (s.finish i call res).state ∧
        (s.finish i call res).handles j = s.handles j ∧
        (s.finish i call res).again j = s.again j := by
  rcases post with ⟨post, first⟩ | ⟨⟨n, sh, rfl, repeating, second⟩, rfl⟩
  · obtain ⟨inv', idle, others⟩ :=
      (proof ι unassuming m).finish_ok i call.toCall res s.state inv.1 post
    have same : ∀ j, j ≠ i → (s.finish i call res).handles j = s.handles j := by
      intro j ne
      unfold Records.finish
      split
      · exact Function.update_of_ne ne ..
      · rfl
    exact ⟨⟨inv', inv.2.finish i call res⟩, ⟨idle, Function.update_self ..⟩,
      fun j ne => ⟨others j ne, same j ne, Function.update_of_ne ne ..⟩⟩
  · obtain ⟨inv', others⟩ := caller_ok (i := i) inv.1 (Function.update s.state.call i none)
      s.state.held s.state.spent (fun j ne => ⟨Function.update_of_ne ne .., rfl, rfl⟩)
      (inv.1.known i) (by simp [Accounted, repeating.taken])
    exact ⟨⟨inv', inv.2.held, inv.2.known⟩, ⟨repeating.taken, Function.update_self ..⟩,
      fun j ne => ⟨others j ne, rfl, Function.update_of_ne ne ..⟩⟩

/-- The recorded callers verified -/
def recordProof (ι : Type) [DecidableEq ι] [Fintype ι] (m : Manager) :
    Proof ι Op Ans (Records ι) Choice HandleCall Res where
  toLogic := recordLogic ι m
  idle i s := Idle i s.state ∧ s.again i = false
  pre i call s := Pre i call.toCall s.state ∧ s.again i = false ∨ Repeats i call s
  post i call res s := Post unassuming i call.toCall res s.state ∧ s.again i = false ∨
    Repeats i call s ∧ res = .close (some SharedSocket.closedTwice)
  idle_stable i :=
    have sees := recordLogic_extends (m := m) i false
    (sees.stable_view ((proof ι unassuming m).idle_stable i)).and sees.stable
  pre_stable i call := by
    have sees := recordLogic_extends (m := m) i
    rintro s s' inv inv' rely (pre | ⟨n, sh, rfl, repeating, second⟩)
    · have stable := (proof ι unassuming m).pre_stable i call.toCall
      exact .inl (((sees false).stable_view stable).and (sees false).stable s s' inv inv' rely pre)
    · exact .inr ⟨n, sh, rfl, Repeating.framed.stable _ _ inv.1 inv'.1 rely.1 repeating,
        rely.2.2.trans second⟩
  start_ok i call s s' inv idle _ started := recordStart_ok call s s' inv idle started
  body_ok i call := by
    apply Logic.Triple.or
    · exact ((recordLogic_extends i false).triple ((Prog.Only.any _).mono fun _ _ h => by cases h)
        ((proof ι unassuming m).body_ok i call.toCall)).weaken (fun _ _ h => h) fun _ _ _ => .inl
    · rintro s inv ⟨n, sh, rfl, pre⟩
      exact Logic.Triple.map _ (closeAgain_spec.weaken (fun _ _ h => h) fun err s _ h =>
        .inr ⟨⟨n, sh, rfl, h.2⟩, congrArg Res.close h.1⟩) s inv pre
  finish_ok i call res s inv post := recordFinish_ok call res s inv post
  env_ok ch s s' inv moved := by
    obtain ⟨t, peer, rfl⟩ := Option.map_eq_some_iff.mp moved
    obtain ⟨c, k, move, rfl⟩ := peer_cases ch s.state t peer
    exact ⟨⟨peer_inv c k s.state move inv.1, inv.2.held, inv.2.known⟩,
      fun i => ⟨peer_rely c k s.state move i, rfl, rfl⟩⟩

/-! ### Every reachable configuration -/

/-- Second `Close`s are told from first ones, and change no count. -/
structure Detected (m : Manager) (c : Config ι Op Ans (Records ι) HandleCall Res) : Prop where
  begins : ∀ i n sh c', (c.state.handles i)[n]? = some ⟨sh, true⟩ →
    (recorded ι m).next (.start i (.close n sh)) c = some c' →
      c'.state.again i = true ∧ c'.state.state.heap.refs = c.state.state.heap.refs
  continues : ∀ i l c', c.state.again i = true → l = .finish i ∨ (∃ ch, l = .step i ch) →
    (recorded ι m).next l c = some c' → c'.state.state.heap.refs = c.state.state.heap.refs
  refused : ∀ i n sh err, c.thread i = .running (.close n sh) (.ret (.close err)) →
    c.state.again i = true → err = some SharedSocket.closedTwice
  first : ∀ i n sh err, c.thread i = .running (.close n sh) (.ret (.close err)) →
    c.state.again i = false → err = none
  counted : ∀ sh, ∑ i, (unclosed (c.state.handles i)).count sh ≤ c.state.state.heap.refs sh

variable {c : Config ι Op Ans (Records ι) HandleCall Res}

private theorem recorded_ok (run : Reach (recorded ι m) closesLast (noHandles ι) c) :
    (recordProof ι m).ConfigOk c := by
  have start : Inv unassuming m (State.init : State ι) := (disciplined_ok .refl).1
  have kept : (noHandles ι).state.Kept := ⟨fun i => .refl _, by simp [noHandles]⟩
  exact (recordProof ι m).sound _ c ⟨⟨start, kept⟩, fun i => ⟨rfl, rfl⟩⟩ run

omit [DecidableEq ι] in
/-- The handles of a caller are among its references. -/
private theorem held_sublist {A : Assumptions} {s : State ι} (inv : Inv A m s) (i : ι) :
    (s.held i).Sublist (s.taken i) := by
  have accounted := inv.handles i
  unfold Accounted at accounted
  split at accounted
  · rcases accounted with same | ⟨p, more⟩
    · exact same ▸ .refl _
    · exact more ▸ List.sublist_cons_self p _
  · rcases accounted with same | ⟨_, given⟩
    · exact same ▸ .refl _
    · exact given ▸ List.erase_sublist
  · exact accounted ▸ .refl _

/-- As long as second `Close`s come after the last reference is gone, they are refused. -/
theorem second_close_detected (run : Reach (recorded ι m) closesLast (noHandles ι) c) :
    Detected m c := by
  have ok := recorded_ok run
  refine ⟨?_, ?_, ?_, ?_, ?_⟩
  · intro i n sh c' nth next
    simp only [System.next] at next
    split at next
    · obtain ⟨s', started, rfl⟩ := Option.map_eq_some_iff.mp next
      have began : c.state.start i (.close n sh) = some s' := started
      simp only [Records.start, nth, Option.some.injEq, Handle.mk.injEq, true_and,
        reduceCtorEq, if_false, if_true] at began
      subst began
      exact ⟨Function.update_self .., rfl⟩
    · cases next
  · rintro i l c' second (rfl | ⟨ch, rfl⟩) next
    · simp only [System.next] at next
      split at next
      next call r _ =>
        cases next
        show (State.finish i call.toCall r c.state.state).heap.refs = _
        unfold State.finish
        split <;> rfl
      · cases next
    · simp only [System.next] at next
      split at next
      next call op k at_op =>
        obtain ⟨r, done, rfl⟩ := Option.map_eq_some_iff.mp next
        obtain ⟨⟨a, t⟩, ran, rfl⟩ := Option.map_eq_some_iff.mp done
        have uncounted : op.countsReference = false :=
          Bool.eq_false_of_not_eq_true fun counts => ok.not_bad at_op (.inr ⟨second, counts⟩)
        exact exec_refs op ch c.state.state t a uncounted ran
      · cases next
  · intro i n sh err at_ret second
    rcases ok.post at_ret with ⟨_, first⟩ | ⟨_, refused⟩
    · rw [second] at first
      cases first
    · exact Res.close.inj refused
  · intro i n sh err at_ret first
    rcases ok.post at_ret with ⟨post, _⟩ | ⟨⟨_, _, _, _, second⟩, _⟩
    · exact post.1
    · rw [first] at second
      cases second
  · intro sh
    rw [ok.1.1.refs sh]
    refine Finset.sum_le_sum fun i _ => ?_
    rw [(ok.1.2.held i).count_eq]
    exact (held_sublist ok.1.1 i).count_le sh

/-- Caller 0 closes its only handle twice, and is refused the second time. -/
theorem second_close_detected_once :
    ∃ c, Reach (recorded (Fin 1) ⟨[], [], 0⟩) closesLast (noHandles (Fin 1)) c ∧
      c.state.again 0 = true ∧ Detected ⟨[], [], 0⟩ c := by
  obtain ⟨c, run, last⟩ := exists_reach (recorded (Fin 1) ⟨[], [], 0⟩) (noHandles (Fin 1))
    (fun _ _ _ => true) readsUnreferenced
    (uninterrupted 0 (.get (lit "a")) (List.replicate 13 .go) ++
      uninterrupted 0 (.close 0 0) (List.replicate 6 .go) ++
      .start 0 (.close 0 0) :: List.replicate 3 (.step 0 .go))
    (fun c => c.state.again 0) (by decide +kernel)
  exact ⟨c, run, last, second_close_detected run⟩

/-- The second `Close` of `i` returned without an error, and the handle of `j` is not counted. -/
def undetected (i j : Fin 2) (c : Config (Fin 2) Op Ans (Records (Fin 2)) HandleCall Res) : Bool :=
  match c.thread i with
  | .running (.close 0 0) (.ret (.close none)) =>
    c.state.again i && c.state.state.heap.refs 0 == 0 && c.state.handles j == [⟨0, false⟩]
  | _ => false

/-- Two callers have a handle each of one `sharedSocket`, and one of them closes its own twice. -/
theorem second_close_undetected :
    ∃ c, Reach (recorded (Fin 2) ⟨[], [], 0⟩) ⟨fun _ _ _ => True, fun _ _ _ _ => True⟩
        (noHandles (Fin 2)) c ∧
      c.thread 0 = .running (.close 0 0) (.ret (.close none)) ∧ c.state.again 0 = true ∧
      c.state.state.heap.refs 0 = 0 ∧ c.state.handles 1 = [⟨0, false⟩] := by
  obtain ⟨c, run, last⟩ := exists_reach (recorded (Fin 2) ⟨[], [], 0⟩) (noHandles (Fin 2))
    (fun _ _ _ => true) (fun _ _ _ _ => true)
    (uninterrupted 0 (.get (lit "a")) (List.replicate 13 .go) ++
      uninterrupted 1 (.get (lit "a")) (List.replicate 9 .go) ++
      uninterrupted 0 (.close 0 0) (List.replicate 5 .go) ++
      .start 0 (.close 0 0) :: List.replicate 6 (.step 0 .go))
    (undetected 0 1) (by decide +kernel)
  unfold undetected at last
  split at last
  next at_ret =>
    simp only [Bool.and_eq_true, beq_iff_eq] at last
    exact ⟨c, run.weaken (fun _ _ _ _ => trivial) (fun _ _ _ _ _ => trivial), at_ret, last.1.1,
      last.1.2, last.2⟩
  · cases last

end HostapdGrpc.Socket
