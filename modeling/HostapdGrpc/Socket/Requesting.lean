import HostapdGrpc.Socket.Counting

/-!
# Requests

`sharedSocket.SendRawCmd` under `smu`: a request, and after a dead `Socket` the
reconnection and a second request.
-/

namespace HostapdGrpc.Socket

open Go Interaction

/-! ### Reading the queue -/

namespace Connection

variable {ι : Type} {k : Connection ι}

/-- If one reply is on its way and the unsolicited messages have no origin, the first other
datagram is that reply, and nothing is on its way behind it. -/
theorem read_only_pending {id : CmdId} {d : Datagram} {rest : List Datagram}
    (only : k.pending.Perm [id]) (messages : ∀ e ∈ k.queue, e.origin = none → e.isMessage = true)
    (read : k.queue.dropWhile Datagram.isMessage = d :: rest) :
    d.origin = some id ∧ ({ k with queue := rest } : Connection ι).pending = [] := by
  have split : k.queue = k.queue.takeWhile Datagram.isMessage ++ d :: rest := by
    rw [← read, List.takeWhile_append_dropWhile]
  have notMessage : d.isMessage = false := by
    have first := List.head?_dropWhile_not Datagram.isMessage k.queue
    rw [read] at first
    simpa using first
  have answers : d.origin ≠ none := by
    intro unsolicited
    have member : d ∈ k.queue := by
      rw [split]
      exact List.mem_append_right _ List.mem_cons_self
    rw [messages d member unsolicited] at notMessage
    cases notMessage
  obtain ⟨origin, answered⟩ := Option.ne_none_iff_exists'.mp answers
  -- With the origin of `d` there is no room in the list for another.
  rw [pending, split] at only
  simp only [List.filterMap_append, List.filterMap_cons, answered] at only
  have same : origin = id := by
    apply List.mem_singleton.mp
    apply only.mem_iff.mp
    simp
  have size := only.length_eq
  simp only [List.length_append, List.length_cons, List.length_nil] at size
  have unsent : k.outstanding = [] := List.eq_nil_of_length_eq_zero (by omega)
  have unread : rest.filterMap Datagram.origin = [] := List.eq_nil_of_length_eq_zero (by omega)
  refine ⟨by rw [answered, same], ?_⟩
  rw [pending, unsent, unread, List.append_nil]

/-- A connection whose last request got no reply. -/
theorem Ready.of_behind (behind : k.sent = k.replied + 1) : k.Ready where
  replied_le := behind ▸ Nat.le_succ _
  pending_nil all := by omega

end Connection

variable {ι : Type} {A : Assumptions} {m : Manager} {i : ι} {p : Ptr} {cmd : GoString}

/-! ### What is known under `smu` -/

/-- Goroutine `i` holds `smu` of `p` in `SendRawCmd`. -/
structure Holding (i : ι) (p : Ptr) (cmd : GoString) (s : State ι) : Prop where
  smu : s.heap.smu p = some i
  lt : p < s.next
  call : s.call i = some (.sendRawCmd p cmd)
  taken : s.taken i = s.held i

/-- Besides, the `Socket` is `c`, and a request may be made on it. -/
structure Using (A : Assumptions) (i : ι) (p : Ptr) (cmd : GoString) (c : Option Conn)
    (s : State ι) : Prop extends Holding i p cmd s where
  sock : s.heap.s p = c
  live : A.reopens → c ≠ none
  ready : A.replies → ∀ d, c = some d → (s.conn d).Ready

/-- Command `id` has been sent, and its reply is the only one on its way. -/
structure Awaiting (A : Assumptions) (i : ι) (p : Ptr) (cmd : GoString) (c : Conn) (id : CmdId)
    (s : State ι) : Prop extends Holding i p cmd s where
  sock : s.heap.s p = some c
  awaited : A.replies → (s.conn c).sent = (s.conn c).replied + 1 ∧ (s.conn c).pending.Perm [id]

/-- `reconnect` has taken the `Socket` away. -/
structure Emptied (i : ι) (p : Ptr) (cmd : GoString) (s : State ι) : Prop
    extends Holding i p cmd s where
  sock : s.heap.s p = none

/-- `reconnect` has opened `c` and not stored it yet. -/
structure Reopened (i : ι) (p : Ptr) (cmd : GoString) (c : Conn) (s : State ι) : Prop
    extends Emptied i p cmd s where
  opener : (s.conn c).opener = some i
  home : (s.conn c).home = none
  ready : (s.conn c).Ready

theorem Using.home [Fintype ι] {s : State ι} {c : Conn} (inv : Inv A m s)
    (h : Using A i p cmd (some c) s) : ∃ q, s.heap.smu q = some i ∧ (s.conn c).home = some q :=
  ⟨p, h.smu, inv.home p c h.sock⟩

theorem Holding.rely {s s' : State ι} (h : Holding i p cmd s) (rely : Rely i s s') :
    Holding i p cmd s' where
  smu := (rely.smu p).mpr h.smu
  lt := lt_of_lt_of_le h.lt rely.next
  call := rely.call.trans h.call
  taken := (rely.taken.trans h.taken).trans rely.held.symm

/-- After the wait the connection is ready again: the reply was read, or the request is one
that got none. -/
private theorem Awaiting.over [Fintype ι] {s : State ι} {c : Conn} {id : CmdId}
    (inv : Inv A m s) (h : Awaiting A i p cmd c id s) (k : Connection ι)
    (opener : k.opener = (s.conn c).opener) (home : k.home = (s.conn c).home)
    (closing : k.closed = false → (s.conn c).closed = false)
    (queue : ∀ d ∈ k.queue, d ∈ (s.conn c).queue) (ready : A.replies → k.Ready) :
    Inv A m (s.setConn c k) ∧ Using A i p cmd (some c) (s.setConn c k) := by
  refine ⟨?_, { h.toHolding with sock := h.sock, live := ?_, ready := ?_ }⟩
  · exact inv.setConn c k opener home closing (fun d member => inv.messages c d (queue d member))
      fun replies _ => ready replies
  · exact fun _ nil => by cases nil
  · intro replies d here
    cases here
    simpa [State.setConn] using ready replies

variable [Fintype ι] [DecidableEq ι]

theorem Using.stable (c : Option Conn) : (logic ι A m).Stable i (Using A i p cmd c) :=
  fun s s' inv _ rely h =>
    { h.toHolding.rely rely with
      sock := (rely.underSmu p h.smu).trans h.sock
      live := h.live
      ready := fun replies d here => by
        subst here
        exact (h.ready replies d rfl).later (rely.conn d p h.smu (inv.home p d h.sock)) }

theorem Awaiting.stable (c : Conn) (id : CmdId) :
    (logic ι A m).Stable i (Awaiting A i p cmd c id) := fun s s' inv _ rely h =>
  { h.toHolding.rely rely with
    sock := (rely.underSmu p h.smu).trans h.sock
    awaited := fun replies => by
      have later := rely.conn c p h.smu (inv.home p c h.sock)
      obtain ⟨behind, only⟩ := h.awaited replies
      obtain ⟨-, -, -, sent, replied⟩ := later.fixed
      exact ⟨by rw [sent, replied, behind], later.pending_perm.trans only⟩ }

theorem Emptied.stable : (logic ι A m).Stable i (Emptied i p cmd) := fun _ _ _ _ rely h =>
  { h.toHolding.rely rely with sock := (rely.underSmu p h.smu).trans h.sock }

theorem Reopened.stable (c : Conn) : (logic ι A m).Stable i (Reopened i p cmd c) :=
  fun s s' inv inv' rely h =>
    have later := rely.opened c h.opener h.home
    { Emptied.stable (A := A) (m := m) s s' inv inv' rely h.toEmptied with
      opener := later.fixed.1.trans h.opener
      home := later.fixed.2.1.trans h.home
      ready := h.ready.later later }

/-! ### `wpa_ctrl_request` -/

private theorem send_spec (c : Conn) (text : GoString) :
    (logic ι A m).Triple i (Using A i p cmd (some c)) (act (.send (some c) text)) fun r s =>
      match r with
      | .ok id => Awaiting A i p cmd c id s
      | .error _ => Using A i p cmd (some c) s := by
  apply Logic.Triple.perform
  · exact fun s inv h bad => bad (h.home inv)
  · intro s ch r s' inv h ok done
    have done' : s.exec i (.send (some c) text) ch = some (r, s') := done
    cases ch with
    | go =>
      simp only [State.exec] at done'
      split at done' <;> cases done'
      refine ⟨?_, { h.toHolding with sock := h.sock, awaited := fun replies => ?_ }⟩
      · apply Inv.setConn inv c
        · rfl
        · rfl
        · exact id
        · exact inv.messages c
        -- Not ready while the request is made, but in use as well
        · intro replies free
          have locked := free p h.sock
          rw [h.smu] at locked
          cases locked
      · have answered : (s.conn c).sent = (s.conn c).replied := by
          simpa [sendsAfterReplies] using ok.2.2.2 replies
        have none_left := (h.ready replies c rfl).pending_nil answered
        simp only [State.setConn, Function.update_self]
        refine ⟨by rw [answered], ?_⟩
        obtain ⟨unsent, unread⟩ := List.append_eq_nil_iff.mp none_left
        simp [Connection.pending, unsent, unread]
    | fail e =>
      simp only [State.exec] at done'
      split at done' <;> cases done'
      exact ⟨inv, h⟩
    | order => cases done'
    | timeout => cases done'
    | answer => cases done'
    | message => cases done'
  · intro r
    cases r with
    | ok id => exact Awaiting.stable c id
    | error e => exact Using.stable (some c)

private theorem recv_spec (c : Conn) (id : CmdId) :
    (logic ι A m).Triple i (Awaiting A i p cmd c id) (act (.recv c)) fun r s =>
      Using A i p cmd (some c) s ∧
        ∀ d, r = .reply d → d.text.length ≤ State.bufSize ∧ (A.replies → d.origin = some id) := by
  apply Logic.Triple.perform
  · exact fun s inv h bad => bad ⟨p, h.smu, inv.home p c h.sock⟩
  · intro s ch r s' inv h _ done
    have done' : s.recv c ch = some (r, s') := done
    have messages := inv.messages c
    cases ch with
    | go =>
      simp only [State.recv] at done'
      split at done'
      next d rest read =>
        cases done'
        have members : ∀ e ∈ rest, e ∈ (s.conn c).queue := fun e member =>
          (List.dropWhile_sublist _).subset (read ▸ List.mem_cons_of_mem d member)
        have ready : A.replies → Connection.Ready
            { s.conn c with queue := rest, replied := (s.conn c).replied + 1 } := fun replies => by
          obtain ⟨behind, only⟩ := h.awaited replies
          exact ⟨behind.ge, fun _ => (Connection.read_only_pending only messages read).2⟩
        obtain ⟨inv', using'⟩ := h.over inv { s.conn c with
          queue := rest, replied := (s.conn c).replied + 1 } rfl rfl (fun h => h) members ready
        refine ⟨inv', using', fun d' same => ?_⟩
        cases same
        refine ⟨List.length_take_le _ _, fun replies => ?_⟩
        exact (Connection.read_only_pending (h.awaited replies).2 messages read).1
      · cases done'
    -- After a timeout or an error one reply is missing for good, and no more is sent.
    | timeout =>
      simp only [State.recv] at done'
      split at done' <;> cases done'
      obtain ⟨inv', using'⟩ := h.over inv { s.conn c with queue := [] } rfl rfl (fun h => h)
        (fun e member => by cases member) fun replies => .of_behind (h.awaited replies).1
      exact ⟨inv', using', fun d same => by cases same⟩
    | fail e =>
      simp only [State.recv] at done'
      split at done' <;> cases done'
      refine ⟨inv, { h.toHolding with sock := h.sock, live := ?_, ready := ?_ }, ?_⟩
      · exact fun _ nil => by cases nil
      · intro replies d here
        cases here
        exact .of_behind (h.awaited replies).1
      · exact fun d same => by cases same
    | order => cases done'
    | answer => cases done'
    | message => cases done'
  · intro r
    exact (Using.stable (some c)).and (Logic.Stable.const _)

/-- A result of `wpa_ctrl_request` that is 0 comes with the reply to its command. -/
private def Answered (A : Assumptions) (ret : Int) (reply : Reply) : Prop :=
  ret = 0 → reply.text.length ≤ State.bufSize ∧ (A.replies → reply.origin = some reply.command)

private theorem request_spec (c : Option Conn) (text : GoString) :
    (logic ι A m).Triple i (Using A i p cmd c) (WpaCtrl.request c text) fun r s =>
      Using A i p cmd c s ∧ Answered A r.1 r.2.2 := by
  cases c with
  | none =>
    -- The call on a nil `Socket` cannot be executed, so nothing follows it.
    refine Logic.Triple.bind (R := fun _ _ => False) ?_ fun _ _ _ impossible => impossible.elim
    apply Logic.Triple.perform
    · exact fun s _ h reopens => h.live reopens rfl
    · intro s ch a s' _ _ _ done
      cases done
    · exact fun _ _ _ _ _ _ impossible => impossible
  | some c =>
    have failing : ∀ (ret : Int) (e : Errno) (reply : Reply), ret ≠ 0 →
        (logic ι A m).Triple i (Using A i p cmd (some c)) (pure (ret, e, reply)) fun r s =>
          Using A i p cmd (some c) s ∧ Answered A r.1 r.2.2 := fun ret e reply nonzero =>
      Logic.Triple.ret _ fun s _ h => ⟨h, fun zero => absurd zero nonzero⟩
    apply Logic.Triple.bind (send_spec c text)
    intro sent
    cases sent with
    | error e => exact failing _ _ _ (by decide)
    | ok id =>
      apply Logic.Triple.bind (recv_spec c id)
      intro received
      cases received with
      | reply d => exact Logic.Triple.ret _ fun s _ h => ⟨h.1, fun _ => h.2 d rfl⟩
      | timeout => exact (failing _ _ _ (by decide)).weaken (fun _ _ h => h.1) fun _ _ _ h => h
      | failed e => exact (failing _ _ _ (by decide)).weaken (fun _ _ h => h.1) fun _ _ _ h => h

/-- What `SendRawCmd` promises of its result. -/
def Replied (A : Assumptions) (r : Except GoError Reply) : Prop :=
  ∀ reply, r = .ok reply → A.replies → reply.origin = some reply.command

theorem wpaSendRawCmd_spec (c : Option Conn) (text : GoString) :
    (logic ι A m).Triple i (Using A i p cmd c) (WpaCtrl.sendRawCmd c text) fun r s =>
      Using A i p cmd c s ∧ Replied A r := by
  apply Logic.Triple.bind (request_spec c text)
  rintro ⟨ret, e, reply⟩
  apply Logic.Triple.assume fun _ _ h => h.2
  intro answered
  by_cases zero : ret = 0
  · obtain ⟨fits, own⟩ := answered zero
    simp only [zero, ne_eq, not_true_eq_false, if_false]
    rw [if_neg (Nat.not_lt.mpr fits)]
    refine Logic.Triple.ret _ fun s _ h => ⟨h.1, fun r same => ?_⟩
    cases same
    exact own
  · simp only [ne_eq, zero, not_false_eq_true, if_true]
    exact Logic.Triple.ret _ fun s _ h => ⟨h.1, fun r same => by cases same⟩

/-! ### `reconnect` -/

private theorem readSock_spec (c : Option Conn) :
    (logic ι A m).Triple i (Using A i p cmd c) (act (.sock p)) fun d s =>
      d = c ∧ Using A i p cmd c s :=
  read_spec (fun s => s.heap.s p) (fun _ _ => rfl) (fun _ _ h bad => bad h.smu)
    (fun _ _ h => ⟨h.sock, h⟩) fun d => (Logic.Stable.const (d = c)).and (Using.stable c)

private theorem shut_stable (c : Option Conn) :
    (logic ι A m).Stable i (fun s => Using A i p cmd c s ∧
      ∀ d, c = some d → (s.conn d).closed = true) := by
  intro s s' inv inv' rely h
  refine ⟨Using.stable c s s' inv inv' rely h.1, fun d here => ?_⟩
  have later := rely.conn d p h.1.smu (inv.home p d (here ▸ h.1.sock))
  rw [later.fixed.2.2.1]
  exact h.2 d here

private theorem closeSock_spec (c : Option Conn) :
    (logic ι A m).Triple i (Using A i p cmd c) (act (.closeSock c)) fun _ s =>
      Using A i p cmd c s ∧ ∀ d, c = some d → (s.conn d).closed = true := by
  apply Logic.Triple.perform
  · intro s inv h
    cases c with
    | none => exact fun reopens => h.live reopens rfl
    | some c => exact fun bad => bad (h.home inv)
  · intro s ch r s' inv h _ done
    have done' : s.exec i (.closeSock c) ch = some (r, s') := done
    cases c with
    | none => cases done'
    | some c =>
      have closed : s' = s.setConn c { s.conn c with closed := true } := by
        cases ch <;> simp only [State.exec] at done' <;> (try split at done') <;>
          cases done' <;> rfl
      subst closed
      have ready : A.replies → ({ s.conn c with closed := true } : Connection ι).Ready :=
        fun replies => { h.ready replies c rfl with }
      refine ⟨Inv.setConn inv c _ rfl rfl (fun shut => by cases shut) (inv.messages c)
        fun replies _ => ready replies,
        { h.toHolding with sock := h.sock, live := h.live, ready := fun replies d here => ?_ },
        fun d here => ?_⟩
      · cases here
        simpa [State.setConn] using ready replies
      · cases here
        simp [State.setConn]
  · exact fun _ => shut_stable c

private theorem clearSock_spec (c : Option Conn) :
    (logic ι A m).Triple i
      (fun s => Using A i p cmd c s ∧ ∀ d, c = some d → (s.conn d).closed = true)
      (act (.setSock p none)) fun _ => Emptied i p cmd := by
  apply det_spec (fun _ => ()) _ (fun _ _ => rfl)
  · exact fun s _ h bad => bad h.1.smu
  · rintro s _ inv ⟨h, closed⟩ _
    have here : ∀ d, s.heap.s p = some d → c = some d := fun d stored =>
      h.sock.symm.trans stored
    exact ⟨inv.clearSock i p h.smu (fun d stored => closed d (here d stored))
      fun replies d stored => h.ready replies d (here d stored),
      { h.toHolding with sock := Function.update_self .. }⟩
  · exact fun _ => Emptied.stable

private theorem device_spec :
    (logic ι A m).Triple i (Emptied i p cmd) (act (.device p)) fun _ => Emptied i p cmd :=
  read_spec (fun s => (s.heap.device p, s.heap.clientDir p)) (fun _ _ => rfl)
    (fun _ _ _ bad => bad) (fun _ _ h => h) fun _ => Emptied.stable

private theorem reopen_spec (device clientDir : GoString) :
    (logic ι A m).Triple i (Emptied i p cmd) (act (.openSock device clientDir)) fun r s =>
      match r with
      | .ok c => Reopened i p cmd c s
      | .error _ => ¬A.reopens ∧ Emptied i p cmd s := by
  apply Logic.Triple.perform
  · rintro s _ h ⟨_, q, _, call⟩
    rw [h.call] at call
    cases call
  · intro s ch r s' inv h ok done
    have done' : s.exec i (.openSock device clientDir) ch = some (r, s') := done
    cases ch with
    | go =>
      cases done'
      exact ⟨inv.openSock i, { h.toHolding with
        sock := h.sock
        opener := by simp [State.setConn]
        home := by simp [State.setConn]
        ready := by
          simp only [State.setConn, Function.update_self]
          exact ⟨le_rfl, fun _ => rfl⟩ }⟩
    | fail e =>
      simp only [State.exec] at done'
      split at done' <;> cases done'
      -- The condition excludes this outcome where it is assumed.
      have fails : ¬A.reopens := fun reopens => by
        have succeeds := ok.2.1 reopens
        simp [reopenSucceeds, h.call] at succeeds
      exact ⟨inv, fails, h⟩
    | order => cases done'
    | timeout => cases done'
    | answer => cases done'
    | message => cases done'
  · intro r
    cases r with
    | ok c => exact Reopened.stable c
    | error err => exact (Logic.Stable.const _).and Emptied.stable

private theorem storeSock_spec (c : Conn) :
    (logic ι A m).Triple i (Reopened i p cmd c) (act (.setSock p (some c))) fun _ =>
      Using A i p cmd (some c) := by
  apply det_spec (fun _ => ()) _ (fun _ _ => rfl)
  · exact fun s _ h bad => bad ⟨h.smu, h.opener, h.home⟩
  · intro s _ inv h _
    refine ⟨inv.storeSock i p c h.smu h.lt h.sock h.opener h.home, { h.toHolding with
      sock := Function.update_self ..
      live := fun _ nil => by cases nil
      ready := fun _ d here => ?_ }⟩
    cases here
    simpa using ⟨h.ready.replied_le, h.ready.pending_nil⟩
  · exact fun _ => Using.stable (some c)

private theorem giveUp_spec :
    (logic ι A m).Triple i (fun s => ¬A.reopens ∧ Emptied i p cmd s) (act (.setSock p none))
      fun _ => Using A i p cmd none := by
  apply det_spec (fun _ => ()) _ (fun _ _ => rfl)
  · exact fun s _ h bad => bad h.2.smu
  · rintro s _ inv ⟨fails, h⟩ _
    have empty : ∀ d, s.heap.s p ≠ some d := by
      rw [h.sock]
      exact fun d stored => by cases stored
    exact ⟨inv.clearSock i p h.smu (fun d stored => absurd stored (empty d))
      fun _ d stored => absurd stored (empty d), { h.toHolding with
        sock := Function.update_self ..
        live := fun reopens => absurd reopens fails
        ready := fun _ d here => by cases here }⟩
  · exact fun _ => Using.stable none

/-- `reconnect` leaves a new `Socket`, or none if the opening failed. -/
theorem reconnect_spec (c : Option Conn) :
    (logic ι A m).Triple i (Using A i p cmd c) (SharedSocket.reconnect p) fun _ s =>
      ∃ d, Using A i p cmd d s := by
  apply Logic.Triple.bind_eq (readSock_spec c)
  apply Logic.Triple.bind (closeSock_spec c)
  intro _
  apply Logic.Triple.bind (clearSock_spec c)
  intro _
  apply Logic.Triple.bind device_spec
  rintro ⟨device, clientDir⟩
  apply Logic.Triple.bind (reopen_spec device clientDir)
  intro r
  cases r with
  | error err =>
    apply Logic.Triple.bind giveUp_spec
    exact fun _ => Logic.Triple.ret _ fun s _ h => ⟨none, h⟩
  | ok c =>
    apply Logic.Triple.bind (storeSock_spec c)
    exact fun _ => Logic.Triple.ret _ fun s _ h => ⟨some c, h⟩

/-! ### `SendRawCmd` -/

/-- Goroutine `i` is in `SendRawCmd` without `smu`. -/
structure Outside (i : ι) (p : Ptr) (cmd : GoString) (s : State ι) : Prop where
  known : s.heap.cached p = true
  call : s.call i = some (.sendRawCmd p cmd)
  taken : s.taken i = s.held i

private theorem lockSmu_spec :
    (logic ι A m).Triple i (Outside i p cmd) (act (.lock (.smu p))) fun _ s =>
      ∃ c, Using A i p cmd c s := by
  apply lock_spec (.smu p)
  · exact fun s inv h => inv.lt_of_cached h.known
  · intro s inv h free
    have lt := inv.lt_of_cached h.known
    have ready : A.replies → ∀ d, s.heap.s p = some d → (s.conn d).Ready := by
      intro replies d stored
      apply inv.ready replies d
      intro q storedAt
      -- A connection has one home, so `smu` of `p` is the lock in question.
      have home := inv.home p d stored
      rw [inv.home q d storedAt, Option.some.injEq] at home
      rw [home]
      exact free
    exact ⟨s.heap.s p, {
      smu := Function.update_self ..
      lt := lt
      call := h.call
      taken := h.taken
      sock := rfl
      live := fun reopens => inv.live reopens p lt free
      ready := ready }⟩
  · exact Logic.Stable.exists Using.stable

private theorem unlockSmu_spec {α : Type} (a : α) :
    (logic ι A m).Triple i (fun s => ∃ c, Using A i p cmd c s)
      (do
        act (.unlock (.smu p))
        pure a)
      fun b s => b = a ∧ s.taken i = s.held i := by
  apply Logic.Triple.bind (R := fun _ s => s.taken i = s.held i)
  · apply det_spec (fun _ => ()) _ (fun _ _ => rfl)
    · rintro s _ ⟨c, h⟩ bad
      exact bad h.smu
    · rintro s _ inv ⟨c, h⟩ _
      refine ⟨inv.unlockSmu p ?_ ?_, h.taken⟩
      · rw [h.sock]
        exact h.live
      · intro replies d stored
        exact h.ready replies d (h.sock.symm.trans stored)
    · exact fun _ _ _ _ _ rely h => (rely.taken.trans h).trans rely.held.symm
  · exact fun _ => Logic.Triple.ret _ fun s _ h => ⟨rfl, h⟩

/-- A request on the `Socket` that `p` has now, and what follows it. -/
private theorem requested_spec {α : Type} {k : Except GoError Reply → Act α}
    {Q : α → State ι → Prop}
    (rest : ∀ r, Replied A r →
      (logic ι A m).Triple i (fun s => ∃ c, Using A i p cmd c s) (k r) Q) :
    (logic ι A m).Triple i (fun s => ∃ c, Using A i p cmd c s)
      (do
        let s ← act (.sock p)
        let r ← WpaCtrl.sendRawCmd s cmd
        k r) Q := by
  apply Logic.Triple.exists
  intro c
  apply Logic.Triple.bind_eq (readSock_spec c)
  apply Logic.Triple.bind (wpaSendRawCmd_spec c cmd)
  intro r
  apply Logic.Triple.assume fun _ _ h => h.2
  intro replied
  exact (rest r replied).weaken (fun _ _ h => ⟨c, h.1⟩) fun _ _ _ h => h

/-- `SendRawCmd` returns the reply to its own command if requests are made on connections
without outstanding ones. -/
theorem sendRawCmd_spec :
    (logic ι A m).Triple i (Outside i p cmd) (SharedSocket.sendRawCmd p cmd) fun r s =>
      s.taken i = s.held i ∧ Replied A r := by
  have returning : ∀ r : Except GoError Reply, Replied A r →
      (logic ι A m).Triple i (fun s => ∃ c, Using A i p cmd c s)
        (do
          act (.unlock (.smu p))
          pure r)
        fun r s => s.taken i = s.held i ∧ Replied A r := by
    intro r replied
    apply (unlockSmu_spec r).weaken fun _ _ h => h
    rintro _ s _ ⟨rfl, taken⟩
    exact ⟨taken, replied⟩
  have failing : ∀ err : GoError, Replied A (.error err) := fun err reply same => by cases same
  apply Logic.Triple.bind lockSmu_spec
  intro _
  apply requested_spec
  intro r replied
  cases r with
  | ok reply => exact returning _ replied
  | error err =>
    by_cases dead : isSocketDead err = true
    · simp only [dead, if_true]
      have reconnecting : (logic ι A m).Triple i (fun s => ∃ c, Using A i p cmd c s)
          (SharedSocket.reconnect p) fun _ s => ∃ c, Using A i p cmd c s :=
        Logic.Triple.exists reconnect_spec
      apply Logic.Triple.bind reconnecting
      intro reopened
      -- `SendRawCmd` returns the error of a failed opening, or that of the second request.
      cases reopened with
      | some err => exact returning _ (failing err)
      | none =>
        apply requested_spec
        exact returning
    · simp only [dead]
      exact returning _ (failing err)

end HostapdGrpc.Socket
