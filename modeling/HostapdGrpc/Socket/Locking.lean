import HostapdGrpc.Socket.Invariant

/-!
# The locks separate the goroutines

An operation made under its lock does not disturb what any other goroutine relies on.
-/

namespace HostapdGrpc.Socket

open Go Interaction

variable {ι : Type}

namespace Connection

/-- The peer changes neither who uses a connection nor how often it was used. -/
theorem Later.fixed {k k' : Connection ι} (h : Later k k') :
    k'.opener = k.opener ∧ k'.home = k.home ∧ k'.closed = k.closed ∧ k'.sent = k.sent ∧
      k'.replied = k.replied := by
  induction h with
  | refl => exact ⟨rfl, rfl, rfl, rfl, rfl⟩
  | tail _ move ih =>
    cases move with
    | answer n id text sent => exact ih
    | message text isMessage => exact ih
end Connection

/-! ### The rely is a preorder that every operation respects -/

namespace Rely
theorem refl (i : ι) (s : State ι) : Rely i s s := by
  constructor <;> grind

theorem trans {i : ι} {s₁ s₂ s₃ : State ι} (first : Rely i s₁ s₂) (second : Rely i s₂ s₃) :
    Rely i s₁ s₃ where
  mu := second.mu.trans first.mu
  fmu p := (second.fmu p).trans (first.fmu p)
  smu p := (second.smu p).trans (first.smu p)
  underMu locked := by
    obtain ⟨map₁, count₁, next₁, flags₁⟩ := first.underMu locked
    obtain ⟨map₂, count₂, next₂, flags₂⟩ := second.underMu (first.mu.mpr locked)
    exact ⟨map₂.trans map₁, count₂.trans count₁, next₂.trans next₁,
      fun p => (flags₂ p).trans (flags₁ p)⟩
  underFmu p locked :=
    (second.underFmu p ((first.fmu p).mpr locked)).trans (first.underFmu p locked)
  underSmu p locked :=
    (second.underSmu p ((first.smu p).mpr locked)).trans (first.underSmu p locked)
  cached p flag := second.cached p (first.cached p flag)
  next := first.next.trans second.next
  frozen p lt := by
    obtain ⟨device₁, dir₁, name₁⟩ := first.frozen p lt
    obtain ⟨device₂, dir₂, name₂⟩ := second.frozen p (lt_of_lt_of_le lt first.next)
    exact ⟨device₂.trans device₁, dir₂.trans dir₁, name₂.trans name₁⟩
  conn c p locked home := by
    have early := first.conn c p locked home
    have homed : (s₂.conn c).home = some p := early.fixed.2.1.trans home
    exact early.trans (second.conn c p ((first.smu p).mpr locked) homed)
  opened c opener home := by
    have early := first.opened c opener home
    have mine : (s₂.conn c).opener = some i := early.fixed.1.trans opener
    have homeless : (s₂.conn c).home = none := early.fixed.2.1.trans home
    exact early.trans (second.opened c mine homeless)
  call := second.call.trans first.call
  held := second.held.trans first.held
  spent := second.spent.trans first.spent
  taken := second.taken.trans first.taken

/-- Locks are taken when free and released by their holder, which concerns no other. -/
private theorem setHolder (i j : ι) (ne : j ≠ i) (l : Lock) (h : Option ι) (s : State ι)
    (mine : s.holder l = none ∨ s.holder l = some i) (new : h = none ∨ h = some i) :
    Rely j s (s.setHolder l h) := by
  cases l <;> simp only [State.holder] at mine <;> constructor <;>
    simp only [State.setHolder, Function.update_apply] <;> grind

/-- Whoever holds `smu` of its `sharedSocket` may change a connection. -/
theorem setConn (i j : ι) (ne : j ≠ i) (c : Conn) (k : Connection ι) (s : State ι)
    (mine : ∃ p, s.heap.smu p = some i ∧ (s.conn c).home = some p) :
    Rely j s (s.setConn c k) := by
  obtain ⟨p, locked, home⟩ := mine
  constructor <;> simp only [State.setConn, Function.update_apply] <;> grind

variable [DecidableEq ι]

/-- Operations that are not bad respect what the other goroutines rely on. -/
theorem of_exec [Fintype ι] (A : Assumptions) (m : Manager) (i : ι) (op : Op) (ch : Choice)
    (s s' : State ι) (a : Ans op) (inv : Inv A m s) (safe : ¬Bad A i op s)
    (done : s.exec i op ch = some (a, s')) (j : ι) (ne : j ≠ i) : Rely j s s' := by
  cases op with
  -- The locks themselves
  | lock l =>
    simp only [State.exec] at done
    split at done
    next free =>
      cases done
      exact setHolder i j ne l _ s (.inl free) (.inr rfl)
    · cases done
  | unlock l =>
    cases done
    exact setHolder i j ne l _ s (.inr (not_not.mp safe)) (.inl rfl)
  -- Updates under `fmu`, `smu` and `m.mu`: `safe` says that `i` holds the lock, so `j` does not.
  | incRefs p =>
    cases done
    have locked : s.heap.fmu p = some i := not_not.mp safe
    constructor <;> simp only [Function.update_apply] <;> grind
  | decRefs p =>
    cases done
    have locked : s.heap.fmu p = some i := not_not.mp safe
    constructor <;> simp only [Function.update_apply] <;> grind
  | setCached p b =>
    cases done
    obtain ⟨locked, global, rfl⟩ := not_not.mp safe
    constructor <;> simp only [Function.update_apply] <;> grind
  | setSock p t =>
    cases t with
    | none =>
      cases done
      have locked : s.heap.smu p = some i := not_not.mp safe
      constructor <;> simp only [Function.update_apply] <;> grind
    | some c =>
      cases done
      obtain ⟨locked, opener, home⟩ := not_not.mp safe
      constructor <;> simp only [Function.update_apply] <;> grind
  | insert name p =>
    cases done
    have locked : s.mu = some i := not_not.mp safe
    constructor <;> grind
  | delete name =>
    cases done
    have locked : s.mu = some i := not_not.mp safe
    constructor <;> grind
  | addCount z =>
    cases done
    have locked : s.mu = some i := not_not.mp safe
    constructor <;> grind
  -- New memory and new connections, which nobody relies on yet
  | new name device clientDir c =>
    cases done
    obtain ⟨locked, opener, home⟩ := not_not.mp safe
    have fresh := inv.fresh s.next le_rfl
    constructor <;> simp only [Function.update_apply] <;> grind
  | openSock device clientDir =>
    have fresh := inv.freshConn s.nextConn le_rfl
    simp only [State.exec] at done
    split at done
    · cases done
      constructor <;> simp only [State.setConn, Function.update_apply] <;> grind
    · split at done
      · cases done
      · cases done
        exact refl j s
    · cases done
  -- Uses of a connection, under the `smu` of its `sharedSocket`
  | send t cmd =>
    cases t with
    | none => cases done
    | some c =>
      have mine := not_not.mp safe
      simp only [State.exec] at done
      split at done <;> (try split at done) <;> cases done
      · exact setConn i j ne c _ s mine
      · exact refl j s
  | recv c =>
    have mine := not_not.mp safe
    simp only [State.exec, State.recv] at done
    split at done <;> (try split at done) <;> cases done
    · exact setConn i j ne c _ s mine
    · exact setConn i j ne c _ s mine
    · exact refl j s
  | closeSock t =>
    cases t with
    | none => cases done
    | some c =>
      have mine := not_not.mp safe
      simp only [State.exec] at done
      split at done <;> (try split at done) <;> cases done
      · exact setConn i j ne c _ s mine
      · exact setConn i j ne c _ s mine
  | range =>
    simp only [State.exec] at done
    split at done <;> (try split at done) <;> cases done <;> exact refl j s
  | panic => cases done
  -- Reads
  | refs p => cases done; exact refl j s
  | cached p => cases done; exact refl j s
  | sock p => cases done; exact refl j s
  | device p => cases done; exact refl j s
  | lookup name => cases done; exact refl j s
  | size => cases done; exact refl j s
  | count => cases done; exact refl j s

end Rely

end HostapdGrpc.Socket
