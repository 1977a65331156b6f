import HostapdGrpc.Interaction.Strengthening
import HostapdGrpc.Socket.Calls
import HostapdGrpc.Socket.Soundness

/-!
# Nothing is used after it is freed

`wpa_ctrl_close` frees the connection. No goroutine sends on one that was closed, waits for a
reply on it, or closes it again.
-/

namespace HostapdGrpc.Socket

open Go Interaction

variable {ι : Type}

/-- A stored `Socket` that nobody is using is open. -/
def Intact (s : State ι) : Prop :=
  ∀ p c, s.heap.smu p = none → s.heap.s p = some c → (s.conn c).closed = false

/-- The operation uses a connection that was closed. -/
def UsesFreed (op : Op) (s : State ι) : Prop :=
  match op with
  | .send (some c) _ | .recv c | .closeSock (some c) => (s.conn c).closed = true
  | _ => False

/-- The operation takes no `Socket` from its users and closes none. -/
def Op.calm : Op → Bool
  | .unlock (.smu _) | .setSock _ (some _) | .new _ _ _ _ | .closeSock _ => false
  | _ => true

/-- Besides, it uses no connection. -/
def Op.apart (op : Op) : Bool :=
  match op with
  | .send _ _ | .recv _ => false
  | op => op.calm

theorem Op.calm_of_apart {op : Op} (apart : op.apart = true) : op.calm = true := by
  cases op <;> first | exact apart | rfl

section
variable [DecidableEq ι] {i : ι} {s s' : State ι}

/-- What a calm operation leaves alone -/
structure Calm (s s' : State ι) : Prop where
  smu : ∀ p, s'.heap.smu p = none → s.heap.smu p = none
  sock : ∀ p c, s'.heap.s p = some c → s.heap.s p = some c
  closed : ∀ c, (s'.conn c).closed = true → (s.conn c).closed = true

omit [DecidableEq ι] in
theorem Calm.intact (calm : Calm s s') (intact : Intact s) : Intact s' := by
  intro p c free stored
  by_contra closed
  have before := intact p c (calm.smu p free) (calm.sock p c stored)
  rw [calm.closed c (by simpa using closed)] at before
  cases before

omit [DecidableEq ι] in
private theorem calm_refl (s : State ι) : Calm s s :=
  ⟨fun _ => id, fun _ _ => id, fun _ => id⟩

omit [DecidableEq ι] in
private theorem calm_setConn (s : State ι) (c : Conn) (k : Connection ι)
    (closed : k.closed = true → (s.conn c).closed = true) : Calm s (s.setConn c k) := by
  refine ⟨fun _ => id, fun _ _ => id, fun d => ?_⟩
  by_cases same : d = c
  · subst same
    simpa [State.setConn] using closed
  · simp only [State.setConn, Function.update_of_ne same]
    exact id

theorem calm_exec {op : Op} (calm : op.calm = true) {ch : Choice} {a : Ans op}
    (done : s.exec i op ch = some (a, s')) : Calm s s' := by
  cases op with
  | lock l =>
    simp only [State.exec] at done
    split at done <;> cases done
    cases l with
    | smu p =>
      refine ⟨fun q => ?_, fun _ _ => id, fun _ => id⟩
      by_cases same : q = p
      · subst same
        simp [State.setHolder]
      · simp [State.setHolder, Function.update_of_ne same]
    | mu => exact ⟨fun _ => id, fun _ _ => id, fun _ => id⟩
    | fmu p => exact ⟨fun _ => id, fun _ _ => id, fun _ => id⟩
  | unlock l =>
    cases done
    cases l with
    | smu p => cases calm
    | mu => exact ⟨fun _ => id, fun _ _ => id, fun _ => id⟩
    | fmu p => exact ⟨fun _ => id, fun _ _ => id, fun _ => id⟩
  | setSock p t =>
    cases t with
    | some c => cases calm
    | none =>
      cases done
      refine ⟨fun _ => id, fun q c stored => ?_, fun _ => id⟩
      by_cases same : q = p
      · subst same
        simp at stored
      · simpa only [Function.update_of_ne same] using stored
  | openSock device clientDir =>
    simp only [State.exec] at done
    split at done <;> (try split at done) <;> cases done
    · exact { calm_setConn s s.nextConn ⟨some i, none, false, 0, 0, [], []⟩ (by simp) with }
    · exact calm_refl s
  | send t cmd =>
    cases t with
    | none => cases done
    | some c =>
      simp only [State.exec] at done
      split at done <;> (try split at done) <;> cases done
      · exact calm_setConn s c _ id
      · exact calm_refl s
  | recv c =>
    simp only [State.exec, State.recv] at done
    split at done <;> (try split at done) <;> cases done
    · exact calm_setConn s c _ id
    · exact calm_setConn s c _ id
    · exact calm_refl s
  | range =>
    simp only [State.exec] at done
    split at done <;> (try split at done) <;> cases done <;> exact calm_refl s
  | panic => cases done
  | closeSock t => cases calm
  | new name device clientDir c => cases calm
  | refs | incRefs | decRefs | cached | setCached | sock | device | lookup | insert | delete |
      size | count | addCount =>
    cases done
    exact ⟨fun _ => id, fun _ _ => id, fun _ => id⟩

end

variable [DecidableEq ι] [Fintype ι] {A : Assumptions} {m : Manager} {i : ι} {p : Ptr}

/-- `p` keeps stored `Socket`s open, and uses none after it was closed. -/
private abbrev Sound (A : Assumptions) (m : Manager) (i : ι) {α : Type} (P : State ι → Prop)
    (p : Act α) (Q : α → State ι → Prop) : Prop :=
  (proof ι A m).Keeps Intact (fun _ => UsesFreed) i P p Q

private abbrev Anywhere (_ : State ι) : Prop := True

/-! ### Under `smu` -/

/-- `i` holds `smu` of `p`, whose `Socket` is `c`, and open. -/
private structure Mine (i : ι) (p : Ptr) (c : Option Conn) (s : State ι) : Prop where
  smu : s.heap.smu p = some i
  sock : s.heap.s p = c
  alive : ∀ d, c = some d → (s.conn d).closed = false

/-- Here its `Socket` may be closed. -/
private structure Shut (i : ι) (p : Ptr) (c : Option Conn) (s : State ι) : Prop where
  smu : s.heap.smu p = some i
  sock : s.heap.s p = c

/-- `i` has taken the `Socket` away. -/
private structure Taken (i : ι) (p : Ptr) (c : Option Conn) (s : State ι) : Prop where
  smu : s.heap.smu p = some i
  sock : s.heap.s p = none
  alive : ∀ d, c = some d → (s.conn d).closed = false ∧ (s.conn d).home = some p

/-- `i` has opened `c` and not stored it yet. -/
private structure Unstored (i : ι) (c : Conn) (s : State ι) : Prop where
  alive : (s.conn c).closed = false
  opener : (s.conn c).opener = some i
  home : (s.conn c).home = none

omit [DecidableEq ι] in
private theorem Mine.stable {s s' : State ι} {c : Option Conn} (inv : Inv A m s)
    (rely : Rely i s s') (h : Mine i p c s) : Mine i p c s' where
  smu := (rely.smu p).mpr h.smu
  sock := (rely.underSmu p h.smu).trans h.sock
  alive d here := by
    have home := inv.home p d (here ▸ h.sock)
    exact (rely.conn d p h.smu home).fixed.2.2.1.trans (h.alive d here)

omit [DecidableEq ι] [Fintype ι] in
private theorem Shut.stable {s s' : State ι} {c : Option Conn} (rely : Rely i s s')
    (h : Shut i p c s) : Shut i p c s' :=
  ⟨(rely.smu p).mpr h.smu, (rely.underSmu p h.smu).trans h.sock⟩

omit [DecidableEq ι] [Fintype ι] in
private theorem Taken.stable {s s' : State ι} {c : Option Conn} (rely : Rely i s s')
    (h : Taken i p c s) : Taken i p c s' where
  smu := (rely.smu p).mpr h.smu
  sock := (rely.underSmu p h.smu).trans h.sock
  alive d here := by
    obtain ⟨alive, home⟩ := h.alive d here
    obtain ⟨-, home', closed', -, -⟩ := (rely.conn d p h.smu home).fixed
    exact ⟨closed'.trans alive, home'.trans home⟩

omit [DecidableEq ι] [Fintype ι] in
private theorem Unstored.stable {s s' : State ι} {c : Conn} (rely : Rely i s s')
    (h : Unstored i c s) : Unstored i c s' := by
  obtain ⟨opener, home, closed, -, -⟩ := (rely.opened c h.opener h.home).fixed
  exact ⟨closed.trans h.alive, opener.trans h.opener, home.trans h.home⟩

/-! ### Single operations -/

section
variable {c : Option Conn}

private theorem sound_apart {α : Type} {q : Act α} (only : q.Only fun op => op.apart = true) :
    Sound A m i Anywhere q fun _ => Anywhere := by
  refine .of_only only fun op apart s _ intact _ => ⟨fun used => ?_, fun ch a s' done => ?_⟩
  · cases op <;> first | exact used.elim | cases apart
  · exact (calm_exec (Op.calm_of_apart apart) done).intact intact

private theorem sound_panic {α : Type} {P : State ι → Prop} {Q : α → State ι → Prop} :
    Sound A m i P (panic : Act α) Q := by
  show Sound A m i P (act .panic >>= fun x => x.elim) Q
  refine .bind (.op (Q := fun _ _ => False) (fun _ _ _ good _ => ?_)
    (fun _ _ _ _ _ _ good _ _ _ _ => ?_) fun _ _ _ _ _ => id) fun x => x.elim
  · exact (good trivial).elim
  · exact (good trivial).elim

/-- An operation of which the fields and the open connections do not depend -/
private theorem mine_calm {op : Op} (calm : op.calm = true)
    (heap : ∀ (s s' : State ι) ch a, s.exec i op ch = some (a, s') → s'.heap = s.heap)
    (safe : ∀ s : State ι, Mine i p c s → ¬UsesFreed op s) :
    Sound A m i (Mine i p c) (act op) fun _ => Mine i p c := by
  refine .op (fun s _ _ _ => safe s) (fun s ch a s' _ intact _ h _ done _ => ?_)
    fun _ s s' inv rely => Mine.stable inv rely
  have same := heap s s' ch a done
  have after := calm_exec calm done
  refine ⟨after.intact intact, ?_, ?_, fun d here => ?_⟩
  · rw [same]
    exact h.smu
  · rw [same]
    exact h.sock
  · by_contra shut
    have before := h.alive d here
    rw [after.closed d (by simpa using shut)] at before
    cases before

private theorem sound_lock :
    Sound A m i Anywhere (act (.lock (.smu p))) fun _ s => ∃ c, Mine i p c s := by
  refine .op (fun _ _ _ _ _ used => used) (fun s ch a s' _ intact _ _ _ done inv' => ?_)
    fun _ s s' inv rely => Exists.imp fun c => Mine.stable inv rely
  have done' : s.exec i (.lock (.smu p)) ch = some (a, s') := done
  refine ⟨(calm_exec rfl done').intact intact, s.heap.s p, ?_⟩
  simp only [State.exec] at done'
  split at done' <;> cases done'
  next free =>
    exact ⟨Function.update_self .., rfl, fun d stored => intact p d free stored⟩

private theorem sound_unlock :
    Sound A m i (fun s => ∃ c, Mine i p c s) (act (.unlock (.smu p))) fun _ => Anywhere := by
  refine .op (fun _ _ _ _ _ used => used) (fun s ch a s' _ intact _ h _ done _ => ?_)
    fun _ _ _ _ _ => id
  have done' : s.exec i (.unlock (.smu p)) ch = some (a, s') := done
  cases done'
  obtain ⟨c, h⟩ := h
  refine ⟨fun q d free stored => ?_, trivial⟩
  by_cases same : q = p
  · subst same
    exact h.alive d (h.sock.symm.trans stored)
  · exact intact q d (by simpa [State.setHolder, Function.update_of_ne same] using free) stored

private theorem sound_sock :
    Sound A m i (fun s => ∃ c, Mine i p c s) (act (.sock p)) fun c => Mine i p c := by
  refine .op (fun _ _ _ _ _ used => used) (fun s ch a s' _ intact _ h _ done _ => ?_)
    fun c s s' inv rely => Mine.stable inv rely
  have done' : s.exec i (.sock p) ch = some (a, s') := done
  cases done'
  obtain ⟨c, h⟩ := h
  exact ⟨intact, h.smu, rfl, h.sock ▸ h.alive⟩

private theorem sound_clear : Sound A m i (Shut i p c) (act (.setSock p none)) fun _ =>
    Mine i p none := by
  refine .op (fun _ _ _ _ _ used => used) (fun s ch a s' _ intact _ h _ done _ => ?_)
    fun _ s s' inv rely => Mine.stable inv rely
  have done' : s.exec i (.setSock p none) ch = some (a, s') := done
  refine ⟨(calm_exec rfl done').intact intact, ?_⟩
  cases done'
  exact ⟨h.smu, Function.update_self .., nofun⟩

private theorem sound_take : Sound A m i (Mine i p c) (act (.setSock p none)) fun _ =>
    Taken i p c := by
  refine .op (fun _ _ _ _ _ used => used) (fun s ch a s' inv intact _ h _ done _ => ?_)
    fun _ s s' _ rely => Taken.stable rely
  have done' : s.exec i (.setSock p none) ch = some (a, s') := done
  refine ⟨(calm_exec rfl done').intact intact, ?_⟩
  cases done'
  exact ⟨h.smu, Function.update_self .., fun d here =>
    ⟨h.alive d here, inv.home p d (here ▸ h.sock)⟩⟩

omit [DecidableEq ι] [Fintype ι] in
/-- A connection is closed that is stored nowhere, or where `i` is using it. -/
private theorem intact_close {s : State ι} {c : Conn} (intact : Intact s)
    (mine : ∀ q, s.heap.s q = some c → s.heap.smu q = some i) :
    Intact (s.setConn c { s.conn c with closed := true }) := by
  intro q d free stored
  by_cases same : d = c
  · subst same
    cases (mine q stored).symm.trans free
  · simpa only [State.setConn, Function.update_of_ne same] using intact q d free stored

omit [Fintype ι] in
private theorem closeSock_exec {s s' : State ι} {ch : Choice} {err : Option GoError}
    (done : s.exec i (.closeSock c) ch = some (err, s')) :
    ∃ d, c = some d ∧ s' = s.setConn d { s.conn d with closed := true } := by
  cases c with
  | none => cases done
  | some d =>
    simp only [State.exec] at done
    split at done <;> (try split at done) <;> cases done <;> exact ⟨d, rfl, rfl⟩

private theorem sound_shut : Sound A m i (Mine i p c) (act (.closeSock c)) fun _ =>
    Shut i p c := by
  refine .op (fun s _ _ _ h used => ?_) (fun s ch a s' inv intact _ h _ done _ => ?_)
    fun _ s s' _ rely => Shut.stable rely
  · cases c with
    | none => exact used
    | some d =>
      have shut : (s.conn d).closed = true := used
      rw [h.alive d rfl] at shut
      cases shut
  · obtain ⟨d, rfl, rfl⟩ := closeSock_exec done
    refine ⟨intact_close (i := i) intact fun q stored => ?_, h.smu, h.sock⟩
    -- A connection has one home, and that is locked.
    have here := (inv.home q d stored).symm.trans (inv.home p d h.sock)
    cases here
    exact h.smu

private theorem sound_close : Sound A m i (Taken i p c) (act (.closeSock c)) fun _ s =>
    ∃ c, Mine i p c s := by
  refine .op (fun s _ _ _ h used => ?_) (fun s ch a s' inv intact _ h _ done _ => ?_)
    fun _ s s' inv rely => Exists.imp fun c => Mine.stable inv rely
  · cases c with
    | none => exact used
    | some d =>
      have shut : (s.conn d).closed = true := used
      rw [(h.alive d rfl).1] at shut
      cases shut
  · obtain ⟨d, rfl, rfl⟩ := closeSock_exec done
    refine ⟨intact_close (i := i) intact fun q stored => ?_, none, h.smu, h.sock, nofun⟩
    have here := (inv.home q d stored).symm.trans (h.alive d rfl).2
    cases here
    exact h.smu

omit [Fintype ι] in
private theorem openSock_exec {device clientDir : GoString} {s s' : State ι} {ch : Choice}
    {r : Except GoError Conn} (done : s.exec i (.openSock device clientDir) ch = some (r, s')) :
    s'.heap = s.heap ∧ ∀ d, r = .ok d → Unstored i d s' := by
  simp only [State.exec] at done
  split at done <;> (try split at done) <;> cases done
  · refine ⟨rfl, fun d same => ?_⟩
    cases same
    constructor <;> simp [State.setConn]
  · exact ⟨rfl, fun d same => by cases same⟩

private theorem sound_open {P : State ι → Prop} (device clientDir : GoString)
    (keeps : ∀ s s' : State ι, s'.heap = s.heap → Calm s s' → P s → P s')
    (stable : ∀ s s', Inv A m s → Rely i s s' → P s → P s') :
    Sound A m i P (act (.openSock device clientDir)) fun r s =>
      P s ∧ ∀ d, r = .ok d → Unstored i d s := by
  refine .op (fun _ _ _ _ _ used => used) (fun s ch a s' _ intact _ h _ done _ => ?_)
    fun r s s' inv rely post => ⟨stable s s' inv rely post.1,
      fun d here => (post.2 d here).stable rely⟩
  have done' : s.exec i (.openSock device clientDir) ch = some (a, s') := done
  have calm : Calm s s' := calm_exec rfl done'
  obtain ⟨heap, opened⟩ := openSock_exec done'
  exact ⟨calm.intact intact, keeps s s' heap calm h, opened⟩

private theorem sound_store (d : Conn) :
    Sound A m i (fun s => Mine i p none s ∧ Unstored i d s) (act (.setSock p (some d))) fun _ =>
      Mine i p (some d) := by
  refine .op (fun _ _ _ _ _ used => used) (fun s ch a s' _ intact _ h _ done _ => ?_)
    fun _ s s' inv rely => Mine.stable inv rely
  have done' : s.exec i (.setSock p (some d)) ch = some (a, s') := done
  cases done'
  have same (e : Conn) : (Function.update s.conn d { s.conn d with home := some p } e).closed =
      (s.conn e).closed := by
    by_cases here : e = d
    · subst here
      simp
    · rw [Function.update_of_ne here]
  refine ⟨fun q e free stored => ?_, h.1.smu, Function.update_self .., fun e here => ?_⟩
  · have other : q ≠ p := fun here => by
      subst here
      cases h.1.smu.symm.trans free
    exact (same e).trans (intact q e free (by simpa [Function.update_of_ne other] using stored))
  · cases here
    exact (same d).trans h.2.alive

private theorem sound_new (name device clientDir : GoString) (d : Conn) :
    Sound A m i (Unstored i d) (act (.new name device clientDir d)) fun _ => Anywhere := by
  refine .op (fun _ _ _ _ _ used => used) (fun s ch a s' _ intact _ h _ done _ => ?_)
    fun _ _ _ _ _ => id
  have done' : s.exec i (.new name device clientDir d) ch = some (a, s') := done
  cases done'
  have same (e : Conn) : (Function.update s.conn d { s.conn d with home := some s.next } e).closed =
      (s.conn e).closed := by
    by_cases here : e = d
    · subst here
      simp
    · rw [Function.update_of_ne here]
  refine ⟨fun q e free stored => (same e).trans ?_, trivial⟩
  by_cases here : q = s.next
  · subst here
    simp only [Function.update_self, Option.some.injEq] at stored
    exact stored ▸ h.alive
  · exact intact q e (by simpa [Function.update_of_ne here] using free)
      (by simpa [Function.update_of_ne here] using stored)

end

/-! ### `SendRawCmd` -/

private theorem sound_request (c : Option Conn) (cmd : GoString) :
    Sound A m i (Mine i p c) (WpaCtrl.request c cmd) fun _ => Mine i p c := by
  have sent : Sound A m i (Mine i p c) (act (.send c cmd)) fun _ => Mine i p c := by
    refine mine_calm rfl (fun s s' ch a done => ?_) fun s h used => ?_
    · cases c with
      | none => cases done
      | some d =>
        simp only [State.exec] at done
        split at done <;> (try split at done) <;> cases done <;> rfl
    · cases c with
      | none => exact used
      | some d => cases (h.alive d rfl).symm.trans used
  have received (d : Conn) (here : c = some d) :
      Sound A m i (Mine i p c) (act (.recv d)) fun _ => Mine i p c := by
    refine mine_calm rfl (fun s s' ch a done => ?_) fun s h used => ?_
    · simp only [State.exec, State.recv] at done
      split at done <;> (try split at done) <;> cases done <;> rfl
    · cases (h.alive d here).symm.trans used
  refine sent.bind fun id => ?_
  split
  · refine (received _ rfl).bind fun received => ?_
    split <;> exact .ret _ fun _ _ _ h => h
  · exact .ret _ fun _ _ _ h => h
  · exact .ret _ fun _ _ _ h => h

private theorem sound_wpaCtrl (c : Option Conn) (cmd : GoString) :
    Sound A m i (Mine i p c) (WpaCtrl.sendRawCmd c cmd) fun _ => Mine i p c := by
  refine (sound_request c cmd).bind fun answer => ?_
  split
  split
  · exact .ret _ fun _ _ _ h => h
  · split
    · exact sound_panic
    · exact .ret _ fun _ _ _ h => h

private theorem sound_reconnect (c : Option Conn) :
    Sound A m i (Mine i p c) (SharedSocket.reconnect p) fun _ s => ∃ c, Mine i p c s := by
  have reread : Sound A m i (Mine i p c) (act (.sock p)) fun c => Mine i p c :=
    sound_sock.weaken (fun _ h => ⟨c, h⟩) fun _ _ h => h
  refine reread.bind fun c => sound_shut.bind fun _ => sound_clear.bind fun _ => ?_
  refine (mine_calm rfl (fun _ _ _ _ done => by cases done; rfl) fun _ _ => id).bind fun dirs => ?_
  refine (sound_open (P := Mine i p none) _ _ (fun s s' heap calm h => ?_)
    fun s s' inv rely => Mine.stable inv rely).bind fun opened => ?_
  · exact ⟨heap ▸ h.smu, heap ▸ h.sock, nofun⟩
  · cases opened with
    | error err =>
      refine Proof.Keeps.weaken (P := Shut i p none) ?_ (fun _ h => ⟨h.1.smu, h.1.sock⟩)
        fun _ _ h => h
      exact sound_clear.bind fun _ => .ret _ fun _ _ _ h => ⟨none, h⟩
    | ok d =>
      refine Proof.Keeps.weaken (P := fun s => Mine i p none s ∧ Unstored i d s) ?_
        (fun _ h => ⟨h.1, h.2 d rfl⟩) fun _ _ h => h
      exact (sound_store d).bind fun _ => .ret _ fun _ _ _ h => ⟨some d, h⟩

private theorem sound_sendRawCmd (sh : Ptr) (cmd : GoString) :
    Sound A m i Anywhere (SharedSocket.sendRawCmd sh cmd) fun _ => Anywhere := by
  have unlocks {c : Option Conn} (r : Except GoError Reply) :
      Sound A m i (Mine i sh c) (do
        act (.unlock (.smu sh))
        pure r) fun _ => Anywhere :=
    (sound_unlock.weaken (fun _ h => ⟨c, h⟩) fun _ _ h => h).bind fun _ => .ret _ fun _ _ _ h => h
  refine sound_lock.bind fun _ => sound_sock.bind fun c => ?_
  refine (sound_wpaCtrl c cmd).bind fun first => ?_
  split
  · exact unlocks _
  · split
    · refine (sound_reconnect c).bind fun failed => ?_
      split
      · exact .of_exists fun c => unlocks _
      · refine sound_sock.bind fun c => (sound_wpaCtrl c cmd).bind fun second => ?_
        exact unlocks _
    · exact unlocks _

/-! ### `Close` and `uncache` -/

private theorem sound_closeUnderlying (sh : Ptr) :
    Sound A m i Anywhere (SharedSocket.closeUnderlying sh) fun _ => Anywhere := by
  refine sound_lock.bind fun _ => sound_sock.bind fun c => sound_take.bind fun _ => ?_
  refine sound_close.bind fun err => sound_unlock.bind fun _ => ?_
  exact sound_apart (only_last rfl)

/-- Of operations on the books -/
private theorem sound_books {α : Type} {q : Act α} (only : q.Only fun op => op.books = true) :
    Sound A m i Anywhere q fun _ => Anywhere := by
  refine sound_apart (only.mono fun op books => ?_)
  cases op with
  | lock l => rfl
  | unlock l => cases l <;> first | rfl | cases books
  | setSock p t => cases books
  | _ => first | rfl | cases books

/-- One of them, before the rest of a program -/
private theorem books_then {α : Type} {op : Op} {f : Ans op → Act α} {Q : α → State ι → Prop}
    (books : op.books = true) (rest : ∀ x, Sound A m i Anywhere (f x) Q) :
    Sound A m i Anywhere (act op >>= f) Q :=
  (sound_books (.perform books)).bind rest

private theorem anywhere {α : Type} (a : α) :
    Sound A m i Anywhere (pure a : Act α) fun _ => Anywhere :=
  .ret a fun _ _ _ h => h

private theorem sound_uncache (sh : Ptr) :
    Sound A m i Anywhere (SharedSocket.uncache sh) fun _ => Anywhere := by
  refine books_then rfl fun _ => books_then rfl fun cached => ?_
  split
  · exact sound_books (only_then rfl fun _ => only_last rfl)
  · refine books_then rfl fun _ => books_then rfl fun refs => ?_
    split
    · exact (sound_closeUnderlying sh).bind fun err => anywhere _
    · exact sound_books (only_last rfl)

private theorem sound_sharedClose (sh : Ptr) :
    Sound A m i Anywhere (SharedSocket.close sh) fun _ => Anywhere := by
  refine books_then rfl fun _ => books_then rfl fun refs => ?_
  split
  · exact sound_books (only_last rfl)
  · refine books_then rfl fun _ => books_then rfl fun refs => ?_
    split
    · refine books_then rfl fun cached => ?_
      split
      · exact sound_closeUnderlying sh
      · exact sound_books (only_last rfl)
    · exact sound_books (only_last rfl)

/-! ### `Get` -/

private theorem sound_evictLoop (need : Int) (entries : List (GoString × Ptr)) :
    Sound A m i Anywhere (m.evictLoop need entries) fun _ => Anywhere := by
  have delete (name : GoString) :
      Sound A m i Anywhere (act (.delete name)) fun _ => Anywhere := sound_apart (.perform rfl)
  induction entries with
  | nil => exact anywhere ()
  | cons entry rest ih =>
    obtain ⟨k, sock⟩ := entry
    refine (sound_books (only_isOpen sock)).bind fun open' => ?_
    split
    · exact (delete k).bind fun _ => ih
    · refine books_then rfl fun count => ?_
      split
      · refine books_then rfl fun cached => ?_
        split
        · refine books_then rfl fun _ => (sound_uncache sock).bind fun closed => ?_
          split
          split
          · exact (delete k).bind fun _ => ih
          · exact ih
        · exact ih
      · exact ih

private theorem sound_managerStore (name : GoString) (s : Ptr) :
    Sound A m i Anywhere (m.store name s) fun _ => Anywhere := by
  have entry := sound_books (A := A) (m := m) (i := i) (only_storeEntry name s)
  unfold Manager.store
  split
  · refine books_then rfl fun size => ?_
    split
    · have evict : Sound A m i Anywhere (m.evict 1) fun _ => Anywhere :=
        books_then rfl fun entries => sound_evictLoop 1 entries
      exact evict.bind fun _ => entry
    · exact entry
  · exact entry

private theorem sound_openShared (name device clientDir : GoString) :
    Sound A m i Anywhere (openShared name device clientDir) fun _ => Anywhere := by
  refine (sound_open device clientDir (fun _ _ _ _ => id) fun _ _ _ _ => id).bind fun opened => ?_
  cases opened with
  | error err => exact .ret _ fun _ _ _ _ => trivial
  | ok d =>
    refine Proof.Keeps.weaken (P := Unstored i d) ?_ (fun _ h => h.2 d rfl) fun _ _ h => h
    exact (sound_new name device clientDir d).bind fun sh => anywhere _

private theorem sound_get (name : GoString) :
    Sound A m i Anywhere (m.get name) fun _ => Anywhere := by
  refine books_then rfl fun _ => (sound_books (only_reuse name)).bind fun found => ?_
  split
  · exact (sound_managerStore name _).bind fun _ => sound_books (only_last rfl)
  · refine (sound_openShared name _ _).bind fun opened => ?_
    split
    · exact sound_books (only_last rfl)
    · exact (sound_managerStore name _).bind fun _ => sound_books (only_last rfl)

/-! ### All runs -/

private theorem sound_body (call : Call) :
    Sound A m i Anywhere (body m call) fun _ => Anywhere := by
  cases call with
  | get name => exact .map _ (sound_get name)
  | sendRawCmd sh cmd => exact .map _ (sound_sendRawCmd sh cmd)
  | close sh => exact .map _ (sound_sharedClose sh)

/-- In runs of callers that only use their own handles, a connection is neither used nor closed
after it was closed, however the callers interleave. -/
theorem never_freed {c : Config ι Op Ans (State ι) Call Res}
    (run : Reach (system ι m) (A.condition m) (initial ι) c) {call : Call} {op : Op}
    {k : Ans op → Act Res} (at_op : c.thread i = .running call (.call op k)) :
    ¬UsesFreed op c.state := by
  have sound := (proof ι A m).strengthened (J := Intact) (B := fun _ => UsesFreed)
    (fun i call => sound_body call) ?_ ?_ ?_ (reach_ok .refl)
    (fun _ _ _ stored => by cases stored) (fun _ => rfl) run
  · exact sound.2 i call op k at_op
  · intro i call s s' intact started
    have started' : s.start i call = some s' := started
    cases call <;> simp only [State.start] at started' <;> (try split at started') <;>
      cases started' <;> exact intact
  · intro i call r s intact
    show Intact (s.finish i call r)
    unfold State.finish
    split <;> exact intact
  · intro ch s s' _ intact moved
    obtain ⟨c, k, move, rfl⟩ := peer_cases ch s s' moved
    obtain ⟨-, -, closed, -, -⟩ := Connection.Later.fixed (.single move)
    exact (calm_setConn s c k fun shut => closed.symm.trans shut).intact intact

end HostapdGrpc.Socket
