import HostapdGrpc.Socket.Soundness

/-!
# Messages read early

`wpa_ctrl_request` reads the unsolicited messages of a connection one by one. Until it returns,
its connection is behind one on which they are still queued, which makes no difference to what
any operation of the manager does.
-/

namespace HostapdGrpc.Socket

open Go Interaction

variable {ι : Type}

/-- On `k` some messages have been read that are still queued on `k'`. -/
def Connection.Behind (k k' : Connection ι) : Prop :=
  ∃ ms, (∀ d ∈ ms, d.isMessage = true) ∧ k' = { k with queue := ms ++ k.queue }

structure State.Behind (s t : State ι) : Prop where
  rest : t = { s with conn := t.conn }
  conn : ∀ c, (s.conn c).Behind (t.conn c)

namespace Connection.Behind

variable {k k' : Connection ι}

theorem refl (k : Connection ι) : k.Behind k := ⟨[], by simp, rfl⟩

/-- A change of anything but the queue -/
theorem update (f : Connection ι → Connection ι)
    (other : ∀ k q, f { k with queue := q } = { f k with queue := q })
    (queue : ∀ k, (f k).queue = k.queue) (behind : k.Behind k') : (f k).Behind (f k') := by
  obtain ⟨ms, messages, rfl⟩ := behind
  exact ⟨ms, messages, by rw [other, queue]⟩

/-- One more message is read. -/
theorem pop {d : Datagram} {rest : List Datagram} (behind : k.Behind k')
    (first : k.queue = d :: rest) (isMessage : d.isMessage = true) :
    Behind { k with queue := rest } k' := by
  obtain ⟨ms, messages, rfl⟩ := behind
  refine ⟨ms ++ [d], ?_, by simp [first]⟩
  intro e member
  obtain early | last := List.mem_append.mp member
  · exact messages e early
  · rw [List.mem_singleton.mp last]
    exact isMessage

/-- The first datagram that is no message is the same. -/
theorem dropWhile (behind : k.Behind k') :
    k'.queue.dropWhile Datagram.isMessage = k.queue.dropWhile Datagram.isMessage := by
  obtain ⟨ms, messages, rfl⟩ := behind
  rw [List.dropWhile_append_of_pos messages]

theorem all_isMessage (behind : k.Behind k') :
    k'.queue.all Datagram.isMessage = k.queue.all Datagram.isMessage := by
  obtain ⟨ms, messages, rfl⟩ := behind
  rw [List.all_append, List.all_eq_true.mpr messages, Bool.true_and]

/-- Messages count for nothing else. -/
theorem fixed (behind : k.Behind k') : k'.opener = k.opener ∧ k'.home = k.home ∧
    k'.closed = k.closed ∧ k'.sent = k.sent ∧ k'.replied = k.replied := by
  obtain ⟨ms, _, rfl⟩ := behind
  exact ⟨rfl, rfl, rfl, rfl, rfl⟩

theorem queue_subset (behind : k.Behind k') {d : Datagram} (member : d ∈ k.queue) :
    d ∈ k'.queue := by
  obtain ⟨ms, _, rfl⟩ := behind
  exact List.mem_append_right ms member

theorem ready (behind : k.Behind k') (ready : k'.Ready) : k.Ready := by
  obtain ⟨ms, _, rfl⟩ := behind
  refine ⟨ready.replied_le, fun all => ?_⟩
  have none_left := ready.pending_nil all
  simp only [Connection.pending, List.filterMap_append, List.append_eq_nil_iff] at none_left ⊢
  exact ⟨none_left.1, none_left.2.2⟩

end Connection.Behind

namespace State.Behind

variable {s s' t : State ι}

theorem refl (s : State ι) : s.Behind s := ⟨rfl, fun c => .refl (s.conn c)⟩

/-- A change of one connection -/
theorem update {f : Conn → Connection ι} {k k' : Connection ι}
    (behind : ∀ c, (s.conn c).Behind (f c)) (c : Conn) (conn : k.Behind k') (d : Conn) :
    (Function.update s.conn c k d).Behind (Function.update f c k' d) := by
  by_cases same : d = c
  · subst same
    simpa only [Function.update_self] using conn
  · simpa only [Function.update_of_ne same] using behind d

theorem setConn {k : Connection ι} (behind : s.Behind t) (c : Conn) (k' : Connection ι)
    (conn : k.Behind k') :
    (s.setConn c k).Behind (t.setConn c k') where
  rest := by
    have rest := behind.rest
    unfold State.setConn
    rw [rest]
  conn := update behind.conn c conn

/-- The connection alone moves on. -/
theorem setConn_left {k : Connection ι} (behind : s.Behind t) (c : Conn)
    (conn : k.Behind (t.conn c)) : (s.setConn c k).Behind t where
  rest := behind.rest
  conn d := by
    have others := update behind.conn c conn d
    rwa [Function.update_eq_self] at others

/-- The wait for a reply finds the same. -/
private theorem recv {c : Conn} {ch : Choice} {r : Received} (behind : s.Behind t)
    (done : s.recv c ch = some (r, s')) : ∃ t', t.recv c ch = some (r, t') ∧ s'.Behind t' := by
  have conn := behind.conn c
  cases ch with
  | go =>
    simp only [State.recv] at done
    split at done
    next d rest read =>
      cases done
      refine ⟨_, ?_, behind.setConn c { t.conn c with
        queue := rest, replied := (t.conn c).replied + 1 } ?_⟩
      · simp only [State.recv, conn.dropWhile, read]
      · obtain ⟨ms, _, same⟩ := conn
        rw [same]
        exact .refl _
    · cases done
  | timeout =>
    simp only [State.recv] at done
    split at done
    next all =>
      cases done
      refine ⟨_, ?_, behind.setConn c { t.conn c with queue := [] } ?_⟩
      · simp only [State.recv, conn.all_isMessage, all, if_true]
      · obtain ⟨ms, _, same⟩ := conn
        rw [same]
        exact .refl _
    · cases done
  | fail e =>
    simp only [State.recv] at done
    split at done <;> cases done
    next nonzero => exact ⟨t, by simp only [State.recv, nonzero, if_false], behind⟩
  | order entries => cases done
  | answer c k text => cases done
  | message c text => cases done

/-- The peers go on in the same way. -/
theorem peer {ch : Choice} (behind : s.Behind t) (moved : s.peer ch = some s') :
    ∃ t', t.peer ch = some t' ∧ s'.Behind t' := by
  cases ch with
  | answer c n text =>
    obtain ⟨ms, messages, same⟩ := behind.conn c
    simp only [State.peer] at moved
    split at moved
    next id sent =>
      split at moved <;> cases moved
      next alive =>
        refine ⟨_, ?_, behind.setConn c { t.conn c with
          outstanding := (t.conn c).outstanding.eraseIdx n
          queue := (t.conn c).queue ++ [⟨text, some id⟩] } ?_⟩
        · simp only [State.peer, same, sent, alive]
          rfl
        · rw [same]
          exact ⟨ms, messages, by simp⟩
    · cases moved
  | message c text =>
    obtain ⟨ms, messages, same⟩ := behind.conn c
    simp only [State.peer] at moved
    split at moved <;> cases moved
    next alive =>
      refine ⟨_, ?_, behind.setConn c { t.conn c with
        queue := (t.conn c).queue ++ [⟨text, none⟩] } ?_⟩
      · simp only [State.peer, same, alive, if_false]
      · rw [same]
        exact ⟨ms, messages, by simp⟩
  | go => cases moved
  | order entries => cases moved
  | fail e => cases moved
  | timeout => cases moved

variable [DecidableEq ι] {i : ι}

/-- Every operation does the same. -/
theorem exec {op : Op} {ch : Choice} {a : Ans op} (behind : s.Behind t)
    (done : s.exec i op ch = some (a, s')) :
    ∃ t', t.exec i op ch = some (a, t') ∧ s'.Behind t' := by
  cases op with
  | recv c => exact behind.recv done
  | send c cmd =>
    cases c with
    | none => cases done
    | some c =>
      obtain ⟨ms, messages, same⟩ := behind.conn c
      cases ch with
      | go =>
        simp only [State.exec] at done
        split at done <;> cases done
        next alive =>
          refine ⟨_, ?_, behind.setConn c { t.conn c with
            sent := (t.conn c).sent + 1
            outstanding := (t.conn c).outstanding ++ [(t.conn c).sent] } ?_⟩
          · simp only [State.exec, same, alive]
            rfl
          · rw [same]
            exact ⟨ms, messages, rfl⟩
      | fail e =>
        simp only [State.exec] at done
        split at done <;> cases done
        next alive =>
          refine ⟨t, ?_, behind⟩
          simp only [State.exec, same, alive]
          rfl
      | order entries => cases done
      | timeout => cases done
      | answer c k text => cases done
      | message c text => cases done
  | lock l =>
    obtain ⟨f, rfl⟩ : ∃ f, t = { s with conn := f } := ⟨t.conn, behind.rest⟩
    simp only [State.exec] at done
    split at done <;> cases done
    next free =>
      have same : ({ s with conn := f } : State ι).holder l = s.holder l := by cases l <;> rfl
      refine ⟨({ s with conn := f } : State ι).setHolder l (some i), ?_, ?_⟩
      · simp only [State.exec, same, free, if_true]
      · cases l <;> exact ⟨rfl, behind.conn⟩
  | unlock l =>
    obtain ⟨f, rfl⟩ : ∃ f, t = { s with conn := f } := ⟨t.conn, behind.rest⟩
    cases done
    exact ⟨_, rfl, by cases l <;> exact ⟨rfl, behind.conn⟩⟩
  | range =>
    obtain ⟨f, rfl⟩ : ∃ f, t = { s with conn := f } := ⟨t.conn, behind.rest⟩
    simp only [State.exec] at done
    split at done
    · cases done
      exact ⟨_, rfl, behind⟩
    · split at done <;> cases done
      next perm =>
        refine ⟨_, ?_, behind⟩
        simp only [State.exec]
        exact if_pos perm
    · cases done
  | openSock device clientDir =>
    obtain ⟨f, rfl⟩ : ∃ f, t = { s with conn := f } := ⟨t.conn, behind.rest⟩
    simp only [State.exec] at done
    split at done
    · cases done
      exact ⟨_, rfl, rfl, update behind.conn s.nextConn (.refl _)⟩
    · split at done <;> cases done
      next set =>
        refine ⟨_, ?_, behind⟩
        simp only [State.exec, set, if_false]
    · cases done
  | closeSock c =>
    cases c with
    | none => cases done
    | some c =>
      have shut : Connection.Behind { s.conn c with closed := true }
          { t.conn c with closed := true } :=
        (behind.conn c).update (fun k => { k with closed := true }) (fun _ _ => rfl) fun _ => rfl
      simp only [State.exec] at done
      split at done
      · cases done
        exact ⟨_, rfl, behind.setConn c _ shut⟩
      · split at done <;> cases done
        next set =>
          refine ⟨_, ?_, behind.setConn c _ shut⟩
          simp only [State.exec, set, if_false]
      · cases done
  | setSock p c =>
    obtain ⟨f, rfl⟩ : ∃ f, t = { s with conn := f } := ⟨t.conn, behind.rest⟩
    cases c with
    | none =>
      cases done
      exact ⟨_, rfl, rfl, behind.conn⟩
    | some c =>
      cases done
      exact ⟨_, rfl, rfl, update behind.conn c ((behind.conn c).update
        (fun k => { k with home := some p }) (fun _ _ => rfl) fun _ => rfl)⟩
  | new name device clientDir c =>
    obtain ⟨f, rfl⟩ : ∃ f, t = { s with conn := f } := ⟨t.conn, behind.rest⟩
    cases done
    exact ⟨_, rfl, rfl, update behind.conn c ((behind.conn c).update
      (fun k => { k with home := some s.next }) (fun _ _ => rfl) fun _ => rfl)⟩
  | panic => cases done
  | _ =>
    -- Operations on the memory
    obtain ⟨f, rfl⟩ : ∃ f, t = { s with conn := f } := ⟨t.conn, behind.rest⟩
    cases done
    exact ⟨_, rfl, rfl, behind.conn⟩

/-- Calls and returns do not concern connections. -/
theorem start {call : Call} (behind : s.Behind t) (started : s.start i call = some s') :
    ∃ t', t.start i call = some t' ∧ s'.Behind t' := by
  obtain ⟨f, rfl⟩ : ∃ f, t = { s with conn := f } := ⟨t.conn, behind.rest⟩
  have conn : ∀ c, (s.conn c).Behind (f c) := behind.conn
  cases call with
  | get name =>
    cases started
    exact ⟨_, rfl, rfl, conn⟩
  | sendRawCmd p cmd =>
    simp only [State.start] at started ⊢
    split at started <;> cases started
    next known =>
      rw [if_pos known]
      exact ⟨_, rfl, rfl, conn⟩
  | close p =>
    simp only [State.start] at started ⊢
    split at started <;> cases started
    next known =>
      rw [if_pos known]
      exact ⟨_, rfl, rfl, conn⟩

theorem finish (behind : s.Behind t) (call : Call) (res : Res) :
    (s.finish i call res).Behind (t.finish i call res) := by
  obtain ⟨f, rfl⟩ : ∃ f, t = { s with conn := f } := ⟨t.conn, behind.rest⟩
  have conn : ∀ c, (s.conn c).Behind (f c) := behind.conn
  unfold State.finish
  split <;> exact ⟨rfl, conn⟩

end State.Behind

/-! ### What is known carries over -/

section
variable {A : Assumptions} {m : Manager} {s t : State ι}

theorem Inv.of_behind [Fintype ι] [DecidableEq ι] (behind : s.Behind t) (inv : Inv A m t) :
    Inv A m s := by
  obtain ⟨f, rfl⟩ : ∃ f, t = { s with conn := f } := ⟨t.conn, behind.rest⟩
  have conn : ∀ c, (s.conn c).Behind (f c) := behind.conn
  exact
    { refs := inv.refs
      handles := inv.handles
      fresh := inv.fresh
      known := inv.known
      entry := inv.entry
      unique := inv.unique
      device := inv.device
      quiet := fun free => { inv.quiet free with }
      freshConn := fun c fresh => by
        obtain ⟨opener, home, -⟩ := (conn c).fixed
        exact opener ▸ home ▸ inv.freshConn c fresh
      home := fun p c stored => (conn c).fixed.2.1 ▸ inv.home p c stored
      homeLt := fun c p home => inv.homeLt c p ((conn c).fixed.2.1.trans home)
      current := fun c p home alive => inv.current c p ((conn c).fixed.2.1.trans home)
        ((conn c).fixed.2.2.1.trans alive)
      live := inv.live
      messages := fun c d member => inv.messages c d ((conn c).queue_subset member)
      ready := fun replies c unused => (conn c).ready (inv.ready replies c unused) }

theorem Bad.of_behind [DecidableEq ι] {i : ι} {op : Op} (behind : s.Behind t)
    (bad : Bad A i op s) : Bad A i op t := by
  obtain ⟨f, rfl⟩ : ∃ f, t = { s with conn := f } := ⟨t.conn, behind.rest⟩
  have opener : ∀ c, (f c).opener = (s.conn c).opener := fun c => (behind.conn c).fixed.1
  have home : ∀ c, (f c).home = (s.conn c).home := fun c => (behind.conn c).fixed.2.1
  cases op with
  | unlock l => cases l <;> exact bad
  | new name device clientDir c => simpa only [Bad, opener, home] using bad
  | setSock p c => cases c <;> simpa only [Bad, opener, home] using bad
  | send c cmd => cases c <;> simpa only [Bad, home] using bad
  | closeSock c => cases c <;> simpa only [Bad, home] using bad
  | recv c => simpa only [Bad, home] using bad
  | _ => exact bad

theorem Post.of_behind {i : ι} {call : Call} {res : Res} (behind : s.Behind t)
    (post : Post A i call res t) : Post A i call res s := by
  obtain ⟨f, rfl⟩ : ∃ f, t = { s with conn := f } := ⟨t.conn, behind.rest⟩
  cases call with
  | get name =>
    cases res with
    | get r =>
      cases r with
      | ok p =>
        have fetched : Fetched i name p { s with conn := f } := post
        exact { fetched with }
      | error err => exact post
    | sendRawCmd r => exact post
    | close err => exact post
  | sendRawCmd p cmd => cases res <;> exact post
  | close p => cases res <;> exact post

end

end HostapdGrpc.Socket
