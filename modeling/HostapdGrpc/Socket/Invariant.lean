import HostapdGrpc.Socket.Manager
import HostapdGrpc.Interaction.RelyGuarantee
import Mathlib.Algebra.BigOperators.Group.Finset.Basic

/-!
# What the goroutines rely on

The locking discipline of the package and the invariant of its memory. `m.mu` protects
the map, the counter and the cache flags, `fmu` the reference count of its
`sharedSocket`, `smu` its field `s` and the connection stored there.
-/

namespace HostapdGrpc.Socket

open Go Interaction

variable {ι : Type} [DecidableEq ι]

/-! ### Conditions on runs -/

/-- Callers use only handles they got and have not closed. -/
def usesOwnHandle (i : ι) (call : Call) (s : State ι) : Bool :=
  match call with
  | .get _ => true
  | .sendRawCmd sh _ | .close sh => decide (sh ∈ s.held i)

/-- `evict` deletes no entry but that of the name being fetched. -/
def evictsOwnEntry (i : ι) (op : Op) (_ : Choice) (s : State ι) : Bool :=
  match op with
  | .delete k => s.call i == some (.get k)
  | _ => true

/-- `Open` does not fail for `reconnect`, whose caller is in `SendRawCmd`. -/
def reopenSucceeds (i : ι) (op : Op) (ch : Choice) (s : State ι) : Bool :=
  match op, ch, s.call i with
  | .openSock _ _, .fail _, some (.sendRawCmd _ _) => false
  | _, _, _ => true

/-- `Get` opens a connection only while the counter is below the limit. -/
def opensBelowLimit (m : Manager) (i : ι) (op : Op) (ch : Choice) (s : State ι) : Bool :=
  match op, ch, s.call i with
  | .openSock _ _, .go, some (.get _) => decide (s.cached < m.limit)
  | _, _, _ => true

/-- A command is sent only on a connection all of whose earlier requests got a reply. -/
def sendsAfterReplies (_ : ι) (op : Op) (_ : Choice) (s : State ι) : Bool :=
  match op with
  | .send (some c) _ => (s.conn c).sent == (s.conn c).replied
  | _ => true

def disciplined : Condition ι Op (State ι) Choice Call :=
  .checked usesOwnHandle fun _ _ _ _ => true

/-- Besides, every operation meets `P`. -/
def disciplinedAnd (P : ι → Op → Choice → State ι → Bool) : Condition ι Op (State ι) Choice Call :=
  .checked usesOwnHandle P

/-- Which of the four conditions a proof assumes of the run. -/
structure Assumptions where
  evicts : Prop
  reopens : Prop
  room : Prop
  replies : Prop

namespace Assumptions

variable (A : Assumptions) (m : Manager)

def condition : Condition ι Op (State ι) Choice Call where
  start i call s := usesOwnHandle i call s = true
  step i op ch s :=
    (A.evicts → evictsOwnEntry i op ch s = true) ∧ (A.reopens → reopenSucceeds i op ch s = true) ∧
    (A.room → opensBelowLimit m i op ch s = true) ∧ (A.replies → sendsAfterReplies i op ch s = true)

end Assumptions

/-! ### Connections -/

namespace Connection

/-- Commands whose reply is still to be read. -/
def pending (k : Connection ι) : List CmdId :=
  k.outstanding ++ k.queue.filterMap Datagram.origin

/-- One move of the peer on the connection. -/
inductive Moved : Connection ι → Connection ι → Prop where
  | answer {k : Connection ι} (n : Nat) (id : CmdId) (text : GoString)
      (sent : k.outstanding[n]? = some id) :
      Moved k { k with
        outstanding := k.outstanding.eraseIdx n, queue := k.queue ++ [⟨text, some id⟩] }
  | message {k : Connection ι} (text : GoString) (isMessage : Datagram.isMessage ⟨text, none⟩) :
      Moved k { k with queue := k.queue ++ [⟨text, none⟩] }

/-- Any number of moves of the peer. -/
abbrev Later : Connection ι → Connection ι → Prop := Relation.ReflTransGen Moved

/-- Between two requests: if every request got a reply, none is on its way. -/
structure Ready (k : Connection ι) : Prop where
  replied_le : k.replied ≤ k.sent
  pending_nil : k.sent = k.replied → k.pending = []

end Connection

/-! ### The invariant -/

/-- What holds of the map, the counter and the flags while `m.mu` is free. -/
structure Quiet (A : Assumptions) (m : Manager) (s : State ι) : Prop where
  cached : ∀ p < s.next, s.heap.cached p = true
  count : s.cached = s.next
  entries : A.evicts → ∀ p < s.next, s.sockets.lookup (s.heap.name p) = some p
  room : A.room → 1 ≤ m.limit → (s.next : Int) ≤ m.limit

/-- The references of a caller are the handles it holds, but for one that its `Get` has
taken and not returned yet, or that its `Close` has not given up yet. -/
def Accounted (i : ι) (s : State ι) : Prop :=
  match s.call i with
  | some (.get _) => s.taken i = s.held i ∨ ∃ p, s.taken i = p :: s.held i
  | some (.close p) => s.taken i = s.held i ∨ p ∈ s.taken i ∧ (s.taken i).erase p = s.held i
  | _ => s.taken i = s.held i

structure Inv [Fintype ι] (A : Assumptions) (m : Manager) (s : State ι) : Prop where
  /-- Every reference counted was taken by somebody. -/
  refs : ∀ p, s.heap.refs p = ∑ i, (s.taken i).count p
  handles : ∀ i, Accounted i s
  fresh : ∀ p, s.next ≤ p → s.heap.refs p = 0 ∧ s.heap.cached p = false ∧
    s.heap.fmu p = none ∧ s.heap.smu p = none
  known : ∀ i p, p ∈ s.held i ∨ p ∈ s.spent i → s.heap.cached p = true
  entry : ∀ k p, s.sockets.lookup k = some p → s.heap.cached p = true ∧ s.heap.name p = k
  unique : A.evicts → ∀ p < s.next, ∀ q < s.next, s.heap.name p = s.heap.name q → p = q
  device : ∀ p < s.next, s.heap.device p = Path.join m.hostapdDir (s.heap.name p) ∧
    s.heap.clientDir p = m.clientDir
  quiet : s.mu = none → Quiet A m s
  freshConn : ∀ c, s.nextConn ≤ c → (s.conn c).opener = none ∧ (s.conn c).home = none
  home : ∀ p c, s.heap.s p = some c → (s.conn c).home = some p
  homeLt : ∀ c p, (s.conn c).home = some p → p < s.next
  /-- A connection taken out of its `sharedSocket` is closed. -/
  current : ∀ c p, (s.conn c).home = some p → (s.conn c).closed = false → s.heap.s p = some c
  live : A.reopens → ∀ p < s.next, s.heap.smu p = none → s.heap.s p ≠ none
  messages : ∀ c, ∀ d ∈ (s.conn c).queue, d.origin = none → d.isMessage = true
  ready : A.replies → ∀ c, (∀ p, s.heap.s p = some c → s.heap.smu p = none) →
    (s.conn c).Ready

/-! ### Rely and guarantee -/

/-- What the other goroutines and the peers leave alone while `i` does not step. -/
structure Rely (i : ι) (s s' : State ι) : Prop where
  mu : s'.mu = some i ↔ s.mu = some i
  fmu : ∀ p, s'.heap.fmu p = some i ↔ s.heap.fmu p = some i
  smu : ∀ p, s'.heap.smu p = some i ↔ s.heap.smu p = some i
  underMu : s.mu = some i → s'.sockets = s.sockets ∧ s'.cached = s.cached ∧ s'.next = s.next ∧
    ∀ p, s'.heap.cached p = s.heap.cached p
  underFmu : ∀ p, s.heap.fmu p = some i → s'.heap.refs p = s.heap.refs p
  underSmu : ∀ p, s.heap.smu p = some i → s'.heap.s p = s.heap.s p
  cached : ∀ p, s.heap.cached p = true → s'.heap.cached p = true
  next : s.next ≤ s'.next
  frozen : ∀ p < s.next, s'.heap.device p = s.heap.device p ∧
    s'.heap.clientDir p = s.heap.clientDir p ∧ s'.heap.name p = s.heap.name p
  conn : ∀ c p, s.heap.smu p = some i → (s.conn c).home = some p →
    (s.conn c).Later (s'.conn c)
  opened : ∀ c, (s.conn c).opener = some i → (s.conn c).home = none →
    (s.conn c).Later (s'.conn c)
  call : s'.call i = s.call i
  held : s'.held i = s.held i
  spent : s'.spent i = s.spent i
  taken : s'.taken i = s.taken i

/-- An access without its lock, a call on a nil `Socket` if no reopening fails, the opening
of a second connection for a name if no entry is lost, a panic; and the drop of a cache
flag, which no goroutine comes to. -/
def Bad (A : Assumptions) (i : ι) (op : Op) (s : State ι) : Prop :=
  match op with
  | .lock _ | .device _ => False
  | .openSock _ _ => A.evicts ∧ ∃ p < s.next, s.call i = some (.get (s.heap.name p))
  | .unlock l => s.holder l ≠ some i
  | .refs p | .incRefs p | .decRefs p => s.heap.fmu p ≠ some i
  | .cached p => s.heap.fmu p ≠ some i ∧ s.mu ≠ some i
  | .setCached p b => ¬(s.heap.fmu p = some i ∧ s.mu = some i ∧ b = true)
  | .sock p | .setSock p none => s.heap.smu p ≠ some i
  | .setSock p (some c) =>
    ¬(s.heap.smu p = some i ∧ (s.conn c).opener = some i ∧ (s.conn c).home = none)
  | .lookup _ | .insert _ _ | .delete _ | .size | .range | .count | .addCount _ =>
    s.mu ≠ some i
  | .new _ _ _ c => ¬(s.mu = some i ∧ (s.conn c).opener = some i ∧ (s.conn c).home = none)
  | .send none _ | .closeSock none => A.reopens
  | .send (some c) _ | .recv c | .closeSock (some c) =>
    ¬∃ p, s.heap.smu p = some i ∧ (s.conn c).home = some p
  | .panic => True

end HostapdGrpc.Socket
