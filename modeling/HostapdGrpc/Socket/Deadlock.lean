import HostapdGrpc.Interaction.LockOrder
import HostapdGrpc.Socket.Manager

/-!
# Freedom from deadlock

The order of the locks is `m.mu`, then the `fmu`s, then the `smu`s. No function acquires a
lock below one it holds or beside it, on any path and whatever its other operations are
answered, so callers never wait for each other in a cycle.
-/

namespace HostapdGrpc.Socket

open Go Interaction

def lockUse (op : Op) : LockUse Lock :=
  match op with
  | .lock l => .acquire l
  | .unlock l => .release l
  | _ => .none

def Lock.rank (l : Lock) : Nat :=
  match l with
  | .mu => 0
  | .fmu _ => 1
  | .smu _ => 2

theorem Lock.rank_bounded (l : Lock) : l.rank < 3 := by
  cases l <;> simp [Lock.rank]

/-- The order of the locks on every path of a function -/
abbrev InOrder {α : Type} (held : List Lock) (p : Act α) (after : List Lock) : Prop :=
  Ordered lockUse Lock.rank held p after

section
variable {α β : Type} {held after : List Lock}

private theorem locks {l : Lock} {f : Unit → Act α} (above : ∀ h ∈ held, h.rank < l.rank)
    (rest : InOrder (l :: held) (f ()) after) : InOrder held (act (.lock l) >>= f) after :=
  Ordered.bind (Ordered.acquire rfl above) fun _ => rest

private theorem unlocks {l : Lock} {f : Unit → Act α} (once : l ∉ held)
    (rest : InOrder held (f ()) after) : InOrder (l :: held) (act (.unlock l) >>= f) after :=
  Ordered.bind (Ordered.release rfl once) fun _ => rest

private theorem acts {op : Op} {f : Ans op → Act α} (other : lockUse op = .none)
    (rest : ∀ x, InOrder held (f x) after) : InOrder held (act op >>= f) after :=
  Ordered.bind (Ordered.other other) rest

private theorem panics : InOrder held (panic : Act α) after :=
  fun x => x.elim

end

/-! ### `sharedSocket` -/

section
variable (sh : Ptr) (held : List Lock)

private theorem testClosed_inOrder : InOrder held (SharedSocket.testClosed sh) held := by
  unfold SharedSocket.testClosed
  refine acts rfl fun cached => ?_
  split
  · exact acts rfl fun refs => .ret _
  · exact .ret _

private theorem request_inOrder (c : Option Conn) (cmd : GoString) :
    InOrder held (WpaCtrl.request c cmd) held := by
  unfold WpaCtrl.request
  refine acts rfl fun sent => ?_
  split
  · refine acts rfl fun received => ?_
    split <;> exact .ret _
  · exact .ret _
  · exact .ret _

private theorem wpaCtrl_inOrder (c : Option Conn) (cmd : GoString) :
    InOrder held (WpaCtrl.sendRawCmd c cmd) held := by
  unfold WpaCtrl.sendRawCmd
  refine (request_inOrder held c cmd).bind fun answer => ?_
  split
  split
  · exact .ret _
  · split
    · exact panics
    · exact .ret _

private theorem reconnect_inOrder : InOrder held (SharedSocket.reconnect sh) held := by
  unfold SharedSocket.reconnect
  refine acts rfl fun s => acts rfl fun _ => acts rfl fun _ => acts rfl fun dirs => ?_
  refine acts rfl fun opened => ?_
  split
  · exact acts rfl fun _ => .ret _
  · exact acts rfl fun _ => .ret _

theorem sendRawCmd_inOrder (cmd : GoString) : InOrder [] (SharedSocket.sendRawCmd sh cmd) [] := by
  unfold SharedSocket.sendRawCmd
  refine locks (by simp) (acts rfl fun s => ?_)
  refine (wpaCtrl_inOrder _ s cmd).bind fun first => ?_
  split
  · exact unlocks (by simp) (.ret _)
  · split
    -- The socket is dead; `reconnect` and the second request are made under `smu` too.
    · refine (reconnect_inOrder sh _).bind fun failed => ?_
      split
      · exact unlocks (by simp) (.ret _)
      · refine acts rfl fun s => (wpaCtrl_inOrder _ s cmd).bind fun second => ?_
        exact unlocks (by simp) (.ret _)
    · exact unlocks (by simp) (.ret _)

/-! The functions that take `fmu` are called without a lock and under `m.mu`. -/

variable {held} (below : ∀ h ∈ held, h = .mu)
include below

private theorem fmu_above : ∀ h ∈ held, h.rank < (Lock.fmu sh).rank := by
  intro h member
  rw [below h member]
  simp [Lock.rank]

private theorem fmu_once : Lock.fmu sh ∉ held := by
  intro member
  cases below _ member

private theorem inc_inOrder : InOrder held (SharedSocket.inc sh) held := by
  unfold SharedSocket.inc
  refine locks (fmu_above sh below) ((testClosed_inOrder sh _).bind fun closed => ?_)
  split
  · exact unlocks (fmu_once sh below) (.ret _)
  · exact acts rfl fun _ => unlocks (fmu_once sh below) (.ret _)

private theorem cache_inOrder : InOrder held (SharedSocket.cache sh) held := by
  unfold SharedSocket.cache
  refine locks (fmu_above sh below) ((testClosed_inOrder sh _).bind fun closed => ?_)
  split
  · exact acts rfl fun _ => unlocks (fmu_once sh below) (.ret _)
  · exact unlocks (fmu_once sh below) (.ret _)

private theorem isOpen_inOrder : InOrder held (SharedSocket.isOpen sh) held := by
  unfold SharedSocket.isOpen
  refine locks (fmu_above sh below) ((testClosed_inOrder sh _).bind fun open' => ?_)
  exact unlocks (fmu_once sh below) (.ret _)

/-- `smu` under `fmu`, and both released, `smu` first -/
private theorem closeUnderlying_inOrder :
    InOrder (.fmu sh :: held) (SharedSocket.closeUnderlying sh) held := by
  have above : ∀ h ∈ .fmu sh :: held, h.rank < (Lock.smu sh).rank := by
    intro h member
    cases member with
    | head => simp [Lock.rank]
    | tail _ member =>
      rw [below h member]
      simp [Lock.rank]
  have once : Lock.smu sh ∉ .fmu sh :: held := by
    intro member
    cases member with
    | tail _ member => cases below _ member
  unfold SharedSocket.closeUnderlying
  refine locks above (acts rfl fun s => acts rfl fun _ => acts rfl fun err => ?_)
  exact unlocks once (unlocks (fmu_once sh below) (.ret _))

private theorem uncache_inOrder : InOrder held (SharedSocket.uncache sh) held := by
  unfold SharedSocket.uncache
  refine locks (fmu_above sh below) (acts rfl fun cached => ?_)
  split
  · exact acts rfl fun refs => unlocks (fmu_once sh below) (.ret _)
  · refine acts rfl fun _ => acts rfl fun refs => ?_
    split
    -- The last reference is gone: `fmu` is still held while the connection is closed.
    · exact (closeUnderlying_inOrder sh below).bind fun err => .ret _
    · exact unlocks (fmu_once sh below) (.ret _)

theorem close_inOrder : InOrder held (SharedSocket.close sh) held := by
  unfold SharedSocket.close
  refine locks (fmu_above sh below) (acts rfl fun refs => ?_)
  split
  · exact unlocks (fmu_once sh below) (.ret _)
  · refine acts rfl fun _ => acts rfl fun refs => ?_
    split
    · refine acts rfl fun cached => ?_
      split
      · exact closeUnderlying_inOrder sh below
      · exact unlocks (fmu_once sh below) (.ret _)
    · exact unlocks (fmu_once sh below) (.ret _)

end

/-! ### `Manager` -/

section
variable (m : Manager)

private theorem mu_below : ∀ h ∈ [Lock.mu], h = .mu := by
  simp

private theorem evictLoop_inOrder (need : Int) (entries : List (GoString × Ptr)) :
    InOrder [.mu] (m.evictLoop need entries) [.mu] := by
  -- Each turn starts and ends with `m.mu` only, whichever way it takes.
  induction entries with
  | nil => exact .ret _
  | cons entry rest ih =>
    obtain ⟨k, sock⟩ := entry
    unfold Manager.evictLoop
    refine (isOpen_inOrder sock mu_below).bind fun open' => ?_
    split
    · exact acts rfl fun _ => ih
    · refine acts rfl fun count => ?_
      split
      · refine acts rfl fun cached => ?_
        split
        -- The entry is uncached, which takes `fmu` and perhaps `smu` under `m.mu`.
        · refine acts rfl fun _ => (uncache_inOrder sock mu_below).bind fun closed => ?_
          split
          split
          · exact acts rfl fun _ => ih
          · exact ih
        · exact ih
      · exact ih

private theorem storeEntry_inOrder (name : GoString) (s : Ptr) :
    InOrder [.mu] (Manager.storeEntry name s) [.mu] := by
  unfold Manager.storeEntry
  refine acts rfl fun cached => ?_
  split
  · refine (cache_inOrder s mu_below).bind fun closed => ?_
    split
    · exact panics
    · exact acts rfl fun _ => Ordered.other rfl
  · exact Ordered.other rfl

private theorem store_inOrder (name : GoString) (s : Ptr) :
    InOrder [.mu] (m.store name s) [.mu] := by
  unfold Manager.store
  split
  · refine acts rfl fun size => ?_
    split
    · refine Ordered.bind ?_ fun _ => storeEntry_inOrder name s
      exact acts rfl fun entries => evictLoop_inOrder m 1 entries
    · exact storeEntry_inOrder name s
  · exact storeEntry_inOrder name s

private theorem reuse_inOrder (name : GoString) :
    InOrder [.mu] (Manager.reuse name) [.mu] := by
  unfold Manager.reuse
  refine acts rfl fun found => ?_
  split
  · refine (inc_inOrder _ mu_below).bind fun closed => ?_
    split <;> exact .ret _
  · exact .ret _

private theorem openShared_inOrder (held : List Lock) (name device clientDir : GoString) :
    InOrder held (openShared name device clientDir) held := by
  unfold openShared
  refine acts rfl fun opened => ?_
  split
  · exact .ret _
  · exact acts rfl fun sh => .ret _

theorem get_inOrder (name : GoString) : InOrder [] (m.get name) [] := by
  unfold Manager.get
  refine locks (by simp) ((reuse_inOrder name).bind fun found => ?_)
  split
  · refine (store_inOrder m name _).bind fun _ => ?_
    exact unlocks (by simp) (.ret _)
  -- No entry, or a closed one: a connection is opened under `m.mu`.
  · refine (openShared_inOrder _ _ _ _).bind fun opened => ?_
    split
    · exact unlocks (by simp) (.ret _)
    · refine (store_inOrder m name _).bind fun _ => ?_
      exact unlocks (by simp) (.ret _)

/-- Every call respects the order and returns without a lock. -/
theorem body_inOrder (call : Call) : InOrder [] (body m call) [] := by
  cases call with
  | get name => exact (get_inOrder m name).map _
  | sendRawCmd sh cmd => exact (sendRawCmd_inOrder sh cmd).map _
  | close sh => exact (close_inOrder sh (by simp)).map _

end

/-! ### Any number of callers -/

/-- The callers of `m` at the granularity of the locks: what is no lock is answered anything -/
def locking (ι : Type) [DecidableEq ι] (m : Manager) :
    System ι Op Ans (Lock → Option ι) ((op : Op) → Option (Ans op)) Call Res :=
  lockSystem lockUse (body m)

/-- In no state do callers wait in a cycle, and while one waits, one can take its step or
panics, which ends the process. -/
theorem deadlock_free {ι : Type} [DecidableEq ι] (m : Manager)
    {c : Config ι Op Ans (Lock → Option ι) Call Res}
    (run : Reach (locking ι m) ⟨fun _ _ _ => True, fun _ _ _ _ => True⟩ unlocked c) :
    (∀ i, ¬ Relation.TransGen (WaitsFor lockUse c) i i) ∧
      ∀ i l, Wants lockUse c i l → ∃ j, CanStep (locking ι m) c j ∨ Halts c j :=
  ⟨no_wait_cycle (body_inOrder m) run,
    fun _ _ wants => exists_canStep (body_inOrder m) Lock.rank_bounded run wants⟩

/-- Every lock is granted; nothing else is answered. -/
def granting (op : Op) : Option (Ans op) :=
  match op with
  | .lock _ => some ()
  | _ => none

/-- Two callers of `Get`, the first one in it -/
theorem deadlock_free_two :
    ∃ c : Config (Fin 2) Op Ans (Lock → Option (Fin 2)) Call Res,
      WaitsFor lockUse c 1 0 ∧ (∀ i, ¬ Relation.TransGen (WaitsFor lockUse c) i i) ∧
        ∃ j, CanStep (locking (Fin 2) ⟨[], [], 0⟩) c j ∨ Halts c j := by
  let m : Manager := ⟨[], [], 0⟩
  have none : Reach (locking (Fin 2) m) ⟨fun _ _ _ => True, fun _ _ _ _ => True⟩
    unlocked unlocked := .refl
  have first := Reach.step (.start 0 (.get [])) none trivial rfl
  have locked := Reach.step (.step 0 granting) first (fun _ _ _ _ => trivial) rfl
  have second := Reach.step (.start 1 (.get [])) locked trivial rfl
  have free := deadlock_free m second
  have step := free.2 1 .mu ⟨.get [], .lock .mu, _, rfl, rfl⟩
  exact ⟨_, ⟨.mu, ⟨.get [], .lock .mu, _, rfl, rfl⟩, rfl⟩, free.1, step⟩

end HostapdGrpc.Socket
