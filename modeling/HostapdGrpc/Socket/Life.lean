import HostapdGrpc.Socket.Operations

/-!
# One `sharedSocket` and its two owners

One goroutine opens a `sharedSocket` and then calls its methods, one after the other. The
references and the cache each own the `Socket`; whichever lets go last closes it.
-/

namespace HostapdGrpc.Socket

open Go Interaction

/-! ### Sequences of calls -/

/-- The fields that the methods of a `sharedSocket` read and write -/
structure Cell where
  fmu : Option Unit
  smu : Option Unit
  refs : Nat
  cached : Bool
  s : Option Conn

namespace Cell

def of (heap : SharedSockets Unit) (p : Ptr) : Cell :=
  ⟨heap.fmu p, heap.smu p, heap.refs p, heap.cached p, heap.s p⟩

/-- Neither owner is left. -/
def closed (x : Cell) : Bool := !x.cached && x.refs == 0

end Cell

inductive Method where
  | inc
  | cache
  | uncache
  | close
  | sendRawCmd (cmd : GoString)

/-- The methods that may close the `Socket` for good -/
def Method.releases : Method → Bool
  | .uncache | .close => true
  | _ => false

inductive LifeCall where
  | openShared (name device clientDir : GoString)
  | method (sh : Ptr) (f : Method)

inductive LifeRes where
  | opened (r : Except GoError Ptr)
  | closed (b : Bool)
  | uncached (b : Bool) (err : Option GoError)
  | done (err : Option GoError)
  | reply (r : Except GoError Reply)

def Method.body (sh : Ptr) : Method → Act LifeRes
  | .inc => LifeRes.closed <$> SharedSocket.inc sh
  | .cache => LifeRes.closed <$> SharedSocket.cache sh
  | .uncache => (fun r => LifeRes.uncached r.1 r.2) <$> SharedSocket.uncache sh
  | .close => LifeRes.done <$> SharedSocket.close sh
  | .sendRawCmd cmd => LifeRes.reply <$> SharedSocket.sendRawCmd sh cmd

/-- The memory, and a record of the sequence: the `sharedSocket` that was opened, the call under
way with the fields as it found them, and how often `Close` and `uncache` closed a `Socket`. -/
structure Life where
  mem : State Unit
  sh : Option Ptr
  call : Option LifeCall
  entry : Cell
  closings : Nat

def Op.closes : Op → Bool
  | .closeSock _ => true
  | _ => false

namespace Life

/-- The call under way is a `Close` or an `uncache`. -/
def releasing (s : Life) : Bool :=
  match s.call with
  | some (.method _ f) => f.releases
  | _ => false

def exec (op : Op) (ch : Choice) (s : Life) : Option (Ans op × Life) :=
  (s.mem.exec () op ch).map fun r => (r.1, { s with
    mem := r.2
    closings := if op.closes && s.releasing then s.closings + 1 else s.closings })

def start (call : LifeCall) (s : Life) : Option Life :=
  match call with
  | .openShared _ _ _ => if s.sh = none then some { s with call := some call } else none
  | .method p _ =>
    if s.sh = some p then some { s with call := some call, entry := Cell.of s.mem.heap p }
    else none

def finish (call : LifeCall) (res : LifeRes) (s : Life) : Life :=
  match call, res with
  | .openShared _ _ _, .opened (.ok p) => { s with call := none, sh := some p }
  | _, _ => { s with call := none }

end Life

def life : System Unit Op Ans Life Choice LifeCall LifeRes where
  exec _ op ch s := s.exec op ch
  body
    | .openShared name device clientDir => LifeRes.opened <$> openShared name device clientDir
    | .method sh f => f.body sh
  start _ call s := s.start call
  finish _ call res s := s.finish call res
  env ch s := (s.mem.peer ch).map fun t => { s with mem := t }

/-- Nothing opened yet, in any memory -/
def unopened (mem : State Unit) (entry : Cell) : Config Unit Op Ans Life LifeCall LifeRes :=
  ⟨⟨mem, none, none, entry, 0⟩, fun _ => .idle⟩

/-- `SendRawCmd` is called only while the `sharedSocket` is not closed. -/
def sendsWhileOpen (_ : Unit) (call : LifeCall) (s : Life) : Bool :=
  match call with
  | .method p (.sendRawCmd _) => !s.mem.heap.closed p
  | _ => true

/-- `Open` does not fail for `reconnect`. -/
def reconnects (_ : Unit) (op : Op) (ch : Choice) (s : Life) : Bool :=
  match op, ch, s.call with
  | .openSock _ _, .fail _, some (.method _ _) => false
  | _, _, _ => true

def lifeCondition : Condition Unit Op Life Choice LifeCall := .checked sendsWhileOpen reconnects

/-! ### The logic of a sequence -/

/-- Between the operations only the peers move, who close no connection. -/
structure PeersMoved (s s' : Life) : Prop where
  rest : s' = { s with mem := { s.mem with conn := s'.mem.conn } }
  closed : ∀ c, (s'.mem.conn c).closed = (s.mem.conn c).closed

/-- The call under way has just let the last owner go, and takes the `Socket` it found stored. -/
structure LetGo (t : Option Conn) (s : Life) : Prop where
  last : ∀ p, s.sh = some p → s.mem.heap.closed p = true
  owned : s.entry.closed = false
  stored : t = s.entry.s
  first : s.closings = 0

/-- It is bad to come to an operation that cannot be performed, and to close the `Socket` for good
at any other time. -/
def lifeLogic : Logic Unit Op Ans Life Choice LifeCall LifeRes where
  sys := life
  cond := lifeCondition
  inv _ := True
  rely _ := PeersMoved
  bad _ op s := (∀ ch, reconnects () op ch s = true → s.exec op ch = none) ∨
    ∃ t, op = .closeSock t ∧ s.releasing = true ∧ ¬LetGo t s
  rely_refl _ s := ⟨rfl, fun _ => rfl⟩
  rely_trans _ s₁ s₂ s₃ first second := by
    refine ⟨?_, fun c => (second.closed c).trans (first.closed c)⟩
    rw [second.rest, first.rest]
  guarantee i _ _ _ _ _ _ _ _ j ne := absurd (Subsingleton.elim j i) ne

/-! ### Rules for the operations -/

/-- The fields of the `sharedSocket`, the closings so far, and a connection that is open -/
structure At (p : Ptr) (n : Nat) (o : Option Conn) (x : Cell) (s : Life) : Prop where
  sh : s.sh = some p
  closings : s.closings = n
  cell : Cell.of s.mem.heap p = x
  live : ∀ c, o = some c → (s.mem.conn c).closed = false

/-- The same within a call of `f`, which began with the fields `e` -/
structure During (p : Ptr) (f : Method) (e : Cell) (n : Nat) (o : Option Conn) (x : Cell)
    (s : Life) : Prop extends At p n o x s where
  call : s.call = some (.method p f)
  entry : s.entry = e

variable {p : Ptr} {f : Method} {e x y : Cell} {n : Nat} {o : Option Conn}

theorem At.peers {s s' : Life} (h : At p n o x s) (moved : PeersMoved s s') : At p n o x s' where
  sh := (congrArg Life.sh moved.rest).trans h.sh
  closings := (congrArg Life.closings moved.rest).trans h.closings
  cell := (congrArg (fun s => Cell.of s.mem.heap p) moved.rest).trans h.cell
  live c same := (moved.closed c).trans (h.live c same)

theorem During.stable : lifeLogic.Stable () (During p f e n o x) := fun _ _ _ _ moved h =>
  { h.toAt.peers moved with
    call := (congrArg Life.call moved.rest).trans h.call
    entry := (congrArg Life.entry moved.rest).trans h.entry }

theorem reconnects_go (op : Op) (s : Life) : reconnects () op .go s = true := by
  cases op <;> rfl

/-- An operation that gives a value and changes the fields -/
theorem act_spec {op : Op} {v : Ans op} (other : op.closes = false)
    (effect : ∀ s : State Unit, Cell.of s.heap p = x → ∃ t,
      (∀ ch, s.exec () op ch = some (v, t)) ∧ Cell.of t.heap p = y ∧
        ∀ c, (t.conn c).closed = (s.conn c).closed) :
    lifeLogic.Triple () (During p f e n o x) (act op) fun a s =>
      a = v ∧ During p f e n o y s := by
  apply Logic.Triple.perform
  · rintro s _ h (stuck | ⟨t, rfl, _⟩)
    · obtain ⟨t, done, _⟩ := effect s.mem h.cell
      have never := stuck .go (reconnects_go op s)
      simp [Life.exec, done] at never
    · cases other
  · rintro s ch a s' _ h _ done
    obtain ⟨t, always, cell, closed⟩ := effect s.mem h.cell
    simp only [lifeLogic, life, Life.exec, always, Option.map_some, other, Bool.false_and,
      Bool.false_eq_true, if_false, Option.some.injEq, Prod.mk.injEq] at done
    obtain ⟨rfl, rfl⟩ := done
    exact ⟨trivial, rfl, { h with
      cell := cell
      live := fun c same => (closed c).trans (h.live c same) }⟩
  · exact fun a => (Logic.Stable.const _).and During.stable

section
variable {fmu smu : Option Unit} {refs : Nat} {cached : Bool} {sock : Option Conn}

theorem lockFmu : lifeLogic.Triple () (During p f e n o ⟨none, smu, refs, cached, sock⟩)
    (act (.lock (.fmu p))) fun a s =>
      a = () ∧ During p f e n o ⟨some (), smu, refs, cached, sock⟩ s := by
  refine act_spec rfl fun s cell => ⟨s.setHolder (.fmu p) (some ()), ?_, ?_, fun _ => rfl⟩ <;>
    simp_all [Cell.of, State.exec, State.holder, State.setHolder]

theorem unlockFmu : lifeLogic.Triple () (During p f e n o ⟨some (), smu, refs, cached, sock⟩)
    (act (.unlock (.fmu p))) fun a s =>
      a = () ∧ During p f e n o ⟨none, smu, refs, cached, sock⟩ s := by
  refine act_spec rfl fun s cell => ⟨s.setHolder (.fmu p) none, ?_, ?_, fun _ => rfl⟩ <;>
    simp_all [Cell.of, State.exec, State.setHolder]

theorem lockSmu : lifeLogic.Triple () (During p f e n o ⟨fmu, none, refs, cached, sock⟩)
    (act (.lock (.smu p))) fun a s =>
      a = () ∧ During p f e n o ⟨fmu, some (), refs, cached, sock⟩ s := by
  refine act_spec rfl fun s cell => ⟨s.setHolder (.smu p) (some ()), ?_, ?_, fun _ => rfl⟩ <;>
    simp_all [Cell.of, State.exec, State.holder, State.setHolder]

theorem unlockSmu : lifeLogic.Triple () (During p f e n o ⟨fmu, some (), refs, cached, sock⟩)
    (act (.unlock (.smu p))) fun a s =>
      a = () ∧ During p f e n o ⟨fmu, none, refs, cached, sock⟩ s := by
  refine act_spec rfl fun s cell => ⟨s.setHolder (.smu p) none, ?_, ?_, fun _ => rfl⟩ <;>
    simp_all [Cell.of, State.exec, State.setHolder]

theorem incRefs : lifeLogic.Triple () (During p f e n o ⟨fmu, smu, refs, cached, sock⟩)
    (act (.incRefs p)) fun a s =>
      a = () ∧ During p f e n o ⟨fmu, smu, refs + 1, cached, sock⟩ s := by
  refine act_spec rfl fun s cell => ⟨_, fun _ => rfl, ?_, fun _ => rfl⟩
  simp_all [Cell.of]

theorem decRefs : lifeLogic.Triple () (During p f e n o ⟨fmu, smu, refs, cached, sock⟩)
    (act (.decRefs p)) fun a s =>
      a = () ∧ During p f e n o ⟨fmu, smu, refs - 1, cached, sock⟩ s := by
  refine act_spec rfl fun s cell => ⟨_, fun _ => rfl, ?_, fun _ => rfl⟩
  simp_all [Cell.of]

theorem setCached (b : Bool) : lifeLogic.Triple () (During p f e n o ⟨fmu, smu, refs, cached, sock⟩)
    (act (.setCached p b)) fun a s =>
      a = () ∧ During p f e n o ⟨fmu, smu, refs, b, sock⟩ s := by
  refine act_spec rfl fun s cell => ⟨_, fun _ => rfl, ?_, fun _ => rfl⟩
  simp_all [Cell.of]

theorem setSock (t : Option Conn) :
    lifeLogic.Triple () (During p f e n o ⟨fmu, smu, refs, cached, sock⟩) (act (.setSock p t))
      fun a s => a = () ∧ During p f e n o ⟨fmu, smu, refs, cached, t⟩ s := by
  cases t with
  | none =>
    refine act_spec rfl fun s cell => ⟨_, fun _ => rfl, ?_, fun _ => rfl⟩
    simp_all [Cell.of]
  | some c =>
    refine act_spec rfl fun s cell => ⟨_, fun _ => rfl, ?_, fun d => ?_⟩
    · simp_all [Cell.of]
    -- The connection records where it is stored.
    · simp only [Function.update_apply]
      split <;> simp_all

end

theorem readRefs : lifeLogic.Triple () (During p f e n o x) (act (.refs p)) fun a s =>
    a = x.refs ∧ During p f e n o x s :=
  act_spec rfl fun s cell => ⟨s, fun _ => by rw [← cell]; rfl, cell, fun _ => rfl⟩

theorem readCached : lifeLogic.Triple () (During p f e n o x) (act (.cached p)) fun a s =>
    a = x.cached ∧ During p f e n o x s :=
  act_spec rfl fun s cell => ⟨s, fun _ => by rw [← cell]; rfl, cell, fun _ => rfl⟩

theorem readSock : lifeLogic.Triple () (During p f e n o x) (act (.sock p)) fun a s =>
    a = x.s ∧ During p f e n o x s :=
  act_spec rfl fun s cell => ⟨s, fun _ => by rw [← cell]; rfl, cell, fun _ => rfl⟩

theorem readDevice : lifeLogic.Triple () (During p f e n o x) (act (.device p)) fun _ s =>
    During p f e n o x s := by
  apply Logic.Triple.perform
  · rintro s _ _ (stuck | ⟨t, same, _⟩)
    · cases stuck .go (reconnects_go _ s)
    · cases same
  · rintro s ch a s' _ h _ done
    cases done
    exact ⟨trivial, { h with }⟩
  · exact fun _ => During.stable

/-! ### Rules for the calls into the system -/

/-- A `Socket` is closed: by the call that let the last owner go, or to be replaced. -/
theorem closeSock {c : Conn} (letGo : f.releases = true →
      x.closed = true ∧ e.closed = false ∧ some c = e.s ∧ n = 0) :
    lifeLogic.Triple () (During p f e n o x) (act (.closeSock (some c))) fun _ s =>
      During p f e (if f.releases then n + 1 else n) none x s := by
  apply Logic.Triple.perform
  · rintro s _ h (stuck | ⟨t, same, releasing, not⟩)
    · cases stuck .go (reconnects_go _ s)
    · cases same
      simp only [Life.releasing, h.call] at releasing
      obtain ⟨last, owned, stored, first⟩ := letGo releasing
      refine not ⟨fun q opened => ?_, h.entry ▸ owned, h.entry ▸ stored, h.closings.trans first⟩
      obtain rfl : p = q := Option.some.inj (h.sh.symm.trans opened)
      rw [← h.cell] at last
      exact last
  · rintro s ch a s' _ h _ done
    have counted : s.releasing = f.releases := by simp only [Life.releasing, h.call]
    obtain ⟨r, closed, same⟩ := Option.map_eq_some_iff.mp done
    cases same
    have heap : r.2.heap = s.mem.heap := by
      simp only [State.exec] at closed
      split at closed <;> (try split at closed) <;> cases closed <;> rfl
    refine ⟨trivial, ⟨h.sh, ?_, ?_, fun c same => by cases same⟩, h.call, h.entry⟩
    · simp only [Op.closes, Bool.true_and, counted, h.closings]
    · rw [← h.cell, ← heap]
  · exact fun _ => During.stable

/-- `reconnect` gets a new connection. -/
theorem reopen (device clientDir : GoString) :
    lifeLogic.Triple () (During p f e n o x) (act (.openSock device clientDir)) fun r s =>
      ∃ c, r = .ok c ∧ During p f e n (some c) x s := by
  apply Logic.Triple.perform
  · rintro s _ _ (stuck | ⟨t, same, _⟩)
    · cases stuck .go (reconnects_go _ s)
    · cases same
  · rintro s ch r s' _ h ok done
    obtain ⟨⟨a, t⟩, opened, same⟩ := Option.map_eq_some_iff.mp done
    cases same
    simp only [State.exec] at opened
    split at opened
    · cases opened
      refine ⟨trivial, _, rfl, ⟨h.sh, h.closings, h.cell, ?_⟩, h.call, h.entry⟩
      rintro c ⟨⟩
      simp [State.setConn]
    · have allowed : reconnects () (.openSock device clientDir) (.fail _) s = true := ok
      simp [reconnects, h.call] at allowed
    · cases opened
  · exact fun r => .exists fun c => (Logic.Stable.const _).and During.stable

/-- A use of the open connection leaves it open. -/
private theorem During.use {s : Life} {c : Conn} (h : During p f e n (some c) x s)
    {k : Connection Unit} (closed : k.closed = (s.mem.conn c).closed) :
    During p f e n (some c) x { s with mem := s.mem.setConn c k } :=
  { h with
    live := fun d same => by
      cases same
      simpa [State.setConn] using closed.trans (h.live c rfl) }

theorem send {c : Conn} (cmd : GoString) :
    lifeLogic.Triple () (During p f e n (some c) x) (act (.send (some c) cmd)) fun _ s =>
      During p f e n (some c) x s := by
  apply Logic.Triple.perform
  · rintro s _ h (stuck | ⟨t, same, _⟩)
    · have never := stuck .go (reconnects_go _ s)
      simp [Life.exec, State.exec, h.live c rfl] at never
    · cases same
  · rintro s ch r s' _ h _ done
    obtain ⟨⟨a, t⟩, sent, same⟩ := Option.map_eq_some_iff.mp done
    cases same
    simp only [State.exec] at sent
    split at sent <;> (try split at sent) <;> cases sent
    · exact ⟨trivial, h.use rfl⟩
    · exact ⟨trivial, h⟩
  · exact fun _ => During.stable

/-- The reply fits the buffer. -/
theorem recv {c : Conn} :
    lifeLogic.Triple () (During p f e n (some c) x) (act (.recv c)) fun r s =>
      (∀ d, r = .reply d → d.text.length ≤ State.bufSize) ∧ During p f e n (some c) x s := by
  apply Logic.Triple.perform
  · rintro s _ _ (stuck | ⟨t, same, _⟩)
    · obtain ⟨r, ends⟩ | ⟨r, ends⟩ := s.mem.recv_ends c
      · have never := stuck .go rfl
        simp [Life.exec, State.exec, ends] at never
      · have never := stuck .timeout rfl
        simp [Life.exec, State.exec, ends] at never
    · cases same
  · rintro s ch r s' _ h _ done
    obtain ⟨⟨a, t⟩, received, same⟩ := Option.map_eq_some_iff.mp done
    cases same
    simp only [State.exec, State.recv] at received
    split at received <;> (try split at received) <;> cases received
    · refine ⟨trivial, ?_, h.use rfl⟩
      rintro d ⟨⟩
      exact List.length_take_le _ _
    · exact ⟨trivial, by rintro _ ⟨⟩, h.use rfl⟩
    · exact ⟨trivial, by rintro _ ⟨⟩, h⟩
  · exact fun _ => (Logic.Stable.const _).and During.stable

end HostapdGrpc.Socket
