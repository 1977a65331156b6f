import HostapdGrpc.Socket.Counting

/-!
# Fetching

`Manager.Get` under `m.mu`: the lookup, the opening of a connection, and the storing of
the entry with the eviction before it.
-/

namespace HostapdGrpc.Socket

open Go Interaction

variable {ι : Type} {A : Assumptions} {m : Manager} {i : ι} {name : GoString} {p : Ptr}

/-- Goroutine `i` holds `m.mu` in `Get name`, with nothing changed yet. -/
structure Locked (A : Assumptions) (m : Manager) (i : ι) (name : GoString) (s : State ι) :
    Prop where
  mu : s.mu = some i
  call : s.call i = some (.get name)
  quiet : Quiet A m s
  taken : s.taken i = s.held i

/-- Goroutine `i` is about to store `p` under `name`: the flag of `p` is `flag`, and the
counter is behind by `missing`. -/
structure Storing (A : Assumptions) (m : Manager) (i : ι) (name : GoString) (p : Ptr)
    (flag : Bool) (missing : Int) (s : State ι) : Prop where
  mu : s.mu = some i
  call : s.call i = some (.get name)
  lt : p < s.next
  named : s.heap.name p = name
  flag : s.heap.cached p = flag
  others : ∀ q < s.next, q ≠ p → s.heap.cached q = true
  count : s.cached + missing = s.next
  entries : A.evicts → ∀ q < s.next, q ≠ p →
    s.heap.name q ≠ name ∧ s.sockets.lookup (s.heap.name q) = some q
  room : A.room → 1 ≤ m.limit → (s.next : Int) ≤ m.limit
  taken : s.taken i = p :: s.held i

/-- Goroutine `i` has stored `p` and still holds `m.mu`. -/
structure Stored (A : Assumptions) (m : Manager) (i : ι) (name : GoString) (p : Ptr)
    (s : State ι) : Prop where
  mu : s.mu = some i
  call : s.call i = some (.get name)
  quiet : Quiet A m s
  named : s.heap.name p = name
  flag : s.heap.cached p = true
  taken : s.taken i = p :: s.held i

/-- `Get` has released `m.mu` and returns `p`. -/
structure Fetched (i : ι) (name : GoString) (p : Ptr) (s : State ι) : Prop where
  named : s.heap.name p = name
  flag : s.heap.cached p = true
  taken : s.taken i = p :: s.held i

/-- The `sharedSocket`s of some entries of the map are cached. -/
def AllCached (es : List (GoString × Ptr)) (s : State ι) : Prop :=
  ∀ e ∈ es, s.heap.cached e.2 = true

/-! ### What holds under `m.mu` stays -/

theorem Quiet.rely {s s' : State ι} (quiet : Quiet A m s) (mu : s.mu = some i)
    (rely : Rely i s s') : Quiet A m s' := by
  obtain ⟨map, count, next, flags⟩ := rely.underMu mu
  refine ⟨fun p lt => ?_, by rw [count, next]; exact quiet.count, fun evicts p lt => ?_, ?_⟩
  · rw [flags p]
    exact quiet.cached p (next ▸ lt)
  · rw [map, (rely.frozen p (next ▸ lt)).2.2]
    exact quiet.entries evicts p (next ▸ lt)
  · rw [next]
    exact quiet.room

/-! ### The updates under `m.mu` -/

namespace Storing

variable {s : State ι}

/-- Deleting the entry of the name being fetched, or any when that is allowed. -/
theorem delete {flag : Bool} {missing : Int} {s : State ι}
    (h : Storing A m i name p flag missing s) (k : GoString) (ch : Choice)
    (ok : A.evicts → evictsOwnEntry i (.delete k) ch s = true) :
    Storing A m i name p flag missing { s with sockets := s.sockets.erase k } where
  __ := h
  entries := fun evicts q lt ne => by
    obtain ⟨other, found⟩ := h.entries evicts q lt ne
    -- The entry deleted is that of `name`, and the entries in question have other names.
    have own : name = k := by simpa [evictsOwnEntry, h.call] using ok evicts
    refine ⟨other, ?_⟩
    rw [← found]
    exact AList.lookup_erase_ne (own ▸ other)

/-- The flag of the stored one is set. -/
theorem setFlag {missing : Int} (h : Storing A m i name p false missing s) :
    Storing A m i name p true missing
      { s with heap.cached := Function.update s.heap.cached p true } where
  __ := h
  flag := Function.update_self ..
  others q lt ne := by
    simpa only [Function.update_of_ne ne] using h.others q lt ne

theorem addOne {flag : Bool} (h : Storing A m i name p flag 1 s) :
    Storing A m i name p flag 0 { s with cached := s.cached + 1 } :=
  { h with count := by simpa using h.count }

theorem insert (h : Storing A m i name p true 0 s) :
    Stored A m i name p { s with sockets := s.sockets.insert name p } where
  mu := h.mu
  call := h.call
  named := h.named
  flag := h.flag
  taken := h.taken
  quiet := {
    cached := fun q lt => by
      by_cases same : q = p
      · exact same ▸ h.flag
      · exact h.others q lt same
    count := by simpa using h.count
    entries := fun evicts q lt => by
      by_cases same : q = p
      · subst same
        rw [h.named]
        exact AList.lookup_insert _
      · obtain ⟨other, found⟩ := h.entries evicts q lt same
        rw [← found]
        exact AList.lookup_insert_ne other
    room := h.room }

end Storing

variable [Fintype ι] [DecidableEq ι]

theorem Locked.framed : Framed A m i (Locked A m i name) where
  stable _ _ _ _ rely h :=
    ⟨rely.mu.mpr h.mu, rely.call.trans h.call, h.quiet.rely h.mu rely,
      (rely.taken.trans h.taken).trans rely.held.symm⟩
  fmu _ _ _ h := { h with quiet := { h.quiet with } }

theorem Storing.framed (flag : Bool) (missing : Int) :
    Framed A m i (Storing A m i name p flag missing) where
  stable s s' _ _ rely h := by
    obtain ⟨map, count, next, flags⟩ := rely.underMu h.mu
    exact {
      mu := rely.mu.mpr h.mu
      call := rely.call.trans h.call
      lt := next ▸ h.lt
      named := ((rely.frozen p h.lt).2.2).trans h.named
      flag := (flags p).trans h.flag
      others := fun q lt ne => (flags q).trans (h.others q (next ▸ lt) ne)
      count := by rw [count, next]; exact h.count
      entries := fun evicts q lt ne => by
        rw [map, (rely.frozen q (next ▸ lt)).2.2]
        exact h.entries evicts q (next ▸ lt) ne
      room := by rw [next]; exact h.room
      taken := by rw [rely.taken, rely.held]; exact h.taken }
  fmu _ _ _ h := { h with }

theorem Stored.stable : (logic ι A m).Stable i (Stored A m i name p) := fun s s' inv _ rely h =>
  { mu := rely.mu.mpr h.mu
    call := rely.call.trans h.call
    quiet := h.quiet.rely h.mu rely
    named := ((rely.frozen p (inv.lt_of_cached h.flag)).2.2).trans h.named
    flag := rely.cached p h.flag
    taken := by rw [rely.taken, rely.held]; exact h.taken }

theorem Fetched.stable : (logic ι A m).Stable i (Fetched i name p) := fun s s' inv _ rely h =>
  { named := ((rely.frozen p (inv.lt_of_cached h.flag)).2.2).trans h.named
    flag := rely.cached p h.flag
    taken := by rw [rely.taken, rely.held]; exact h.taken }

theorem AllCached.framed (es : List (GoString × Ptr)) : Framed A m i (AllCached es) where
  stable _ _ _ _ rely h := fun e member => rely.cached e.2 (h e member)
  fmu _ _ _ h := h

theorem Framed.and {P Q : State ι → Prop} (left : Framed A m i P) (right : Framed A m i Q) :
    Framed A m i fun s => P s ∧ Q s where
  stable := left.stable.and right.stable
  fmu s q h pre := ⟨left.fmu s q h pre.1, right.fmu s q h pre.2⟩

/-! ### Eviction -/

/-- `evict` drops every entry it visits, since `isOpen` says of a cached one that it is
not open. -/
theorem evictLoop_spec (need : Int) (es : List (GoString × Ptr)) (flag : Bool) (missing : Int) :
    (logic ι A m).Triple i (fun s => Storing A m i name p flag missing s ∧ AllCached es s)
      (m.evictLoop need es) fun _ => Storing A m i name p flag missing := by
  induction es with
  | nil => exact Logic.Triple.ret () fun s _ h => h.1
  | cons e es ih =>
    have framed : Framed A m i fun s => Storing A m i name p flag missing s ∧
        AllCached (e :: es) s := (Storing.framed flag missing).and (AllCached.framed _)
    -- Not open, it says: on to the deletion; `uncache` is never called.
    apply Logic.Triple.bind_eq (SharedSocket.isOpen_spec framed (p := e.2) fun s _ h =>
      .inl (h.2 e List.mem_cons_self))
    refine Logic.Triple.bind (R := fun _ s => Storing A m i name p flag missing s ∧
      AllCached es s) ?_ fun _ => ih
    apply det_spec (fun _ => ()) _ (fun _ _ => rfl)
    · exact fun s _ h bad => bad h.1.mu
    · exact fun s ch inv h ok => ⟨inv.delete i e.1 h.1.mu, h.1.delete e.1 ch ok.1,
        fun e' member => h.2 e' (List.mem_cons_of_mem e member)⟩
    · exact fun _ => ((Storing.framed flag missing).and (AllCached.framed es)).stable

theorem evict_spec (need : Int) (flag : Bool) (missing : Int) :
    (logic ι A m).Triple i (Storing A m i name p flag missing) (m.evict need)
      fun _ => Storing A m i name p flag missing := by
  have entered : ∀ s : State ι, Inv A m s → ∀ es : List (GoString × Ptr), es.Perm s.entries →
      AllCached es s := by
    intro s inv es perm e member
    obtain ⟨entry, found, rfl⟩ := List.mem_map.mp (perm.mem_iff.mp member)
    exact (inv.entry entry.1 entry.2 (AList.mem_lookup_iff.mpr found)).1
  apply Logic.Triple.bind (R := fun es s => Storing A m i name p flag missing s ∧ AllCached es s)
  · apply Logic.Triple.perform
    · exact fun s _ h bad => bad h.mu
    · intro s ch es s' inv h _ done
      have done' : s.exec i .range ch = some (es, s') := done
      simp only [State.exec] at done'
      split at done' <;> (try split at done') <;> cases done'
      · exact ⟨inv, h, entered s inv _ (.refl _)⟩
      next perm => exact ⟨inv, h, entered s inv _ perm⟩
    · exact fun es => ((Storing.framed flag missing).and (AllCached.framed es)).stable
  · exact fun es => evictLoop_spec need es flag missing

/-! ### Storing -/

theorem readFlag_spec (flag : Bool) (missing : Int) :
    (logic ι A m).Triple i (Storing A m i name p flag missing) (act (.cached p)) fun b s =>
      b = flag ∧ Storing A m i name p flag missing s := by
  apply read_spec (fun s => s.heap.cached p) (fun _ _ => rfl)
  · exact fun s _ h bad => bad.2 h.mu
  · exact fun s _ h => ⟨h.flag, h⟩
  · exact fun b => (Logic.Stable.const (b = flag)).and (Storing.framed flag missing).stable

theorem insert_spec :
    (logic ι A m).Triple i (Storing A m i name p true 0) (act (.insert name p))
      fun _ => Stored A m i name p := by
  apply det_spec (fun _ => ()) _ (fun _ _ => rfl)
  · exact fun s _ h bad => bad h.mu
  · exact fun s _ inv h _ => ⟨inv.insert i name p h.mu h.flag h.named, h.insert⟩
  · exact fun _ => Stored.stable

theorem addCount_spec (flag : Bool) :
    (logic ι A m).Triple i (Storing A m i name p flag 1) (act (.addCount 1))
      fun _ => Storing A m i name p flag 0 := by
  apply det_spec (fun _ => ()) _ (fun _ _ => rfl)
  · exact fun s _ h bad => bad h.mu
  · exact fun s _ inv h _ => ⟨inv.addCount i 1 h.mu, h.addOne⟩
  · exact fun _ => (Storing.framed flag 0).stable

/-- `storeEntry` flags and counts a new `sharedSocket`, once. -/
theorem storeEntry_spec (flag : Bool) :
    (logic ι A m).Triple i (Storing A m i name p flag (if flag then 0 else 1))
      (Manager.storeEntry name p) fun _ => Stored A m i name p := by
  apply Logic.Triple.bind_eq (readFlag_spec flag _)
  cases flag with
  | true => exact insert_spec
  | false =>
    have caching : (logic ι A m).Triple i (Storing A m i name p false 1) (SharedSocket.cache p)
        fun closed s => closed = false ∧ Storing A m i name p true 1 s := by
      apply SharedSocket.cache_spec (Storing.framed false 1) (Storing.framed true 1)
      -- Not cached yet, but counted for the caller of `openShared`
      · intro s _ h
        right
        rw [h.taken]
        exact List.mem_cons_self
      · exact fun s _ h => h.lt
      · exact fun s h => h.mu
      · exact fun s _ h => h.setFlag
    apply Logic.Triple.bind_eq caching
    apply Logic.Triple.bind (addCount_spec true)
    exact fun _ => insert_spec

theorem store_spec (flag : Bool) :
    (logic ι A m).Triple i (Storing A m i name p flag (if flag then 0 else 1))
      (m.store name p) fun _ => Stored A m i name p := by
  unfold Manager.store
  by_cases limited : m.limit ≠ 0
  · rw [if_pos limited]
    have sizing : (logic ι A m).Triple i (Storing A m i name p flag (if flag then 0 else 1))
        (act .size) fun _ => Storing A m i name p flag (if flag then 0 else 1) := by
      apply read_spec (fun s => s.sockets.keys.length) (fun _ _ => rfl)
      · exact fun s _ h bad => bad h.mu
      · exact fun s _ h => h
      · exact fun _ => (Storing.framed flag _).stable
    apply Logic.Triple.bind sizing
    intro size
    by_cases full : (size : Int) ≥ m.limit
    · rw [if_pos full]
      exact Logic.Triple.bind (evict_spec 1 flag _) fun _ => storeEntry_spec flag
    · rw [if_neg full]
      exact storeEntry_spec flag
  · rw [if_neg limited]
    exact storeEntry_spec flag

/-! ### The lookup and the opening -/

/-- A `sharedSocket` found for the name, now with a reference of `i`, is ready to be stored. -/
theorem Locked.hit {s : State ι} (inv : Inv A m s) (h : Locked A m i name s)
    (found : s.sockets.lookup name = some p) : Storing A m i name p true 0 { s with
      heap.refs := Function.update s.heap.refs p (s.heap.refs p + 1)
      taken := Function.update s.taken i (p :: s.taken i) } := by
  obtain ⟨flag, named⟩ := inv.entry name p found
  exact {
    mu := h.mu
    call := h.call
    lt := inv.lt_of_cached flag
    named := named
    flag := flag
    others := fun q lt _ => h.quiet.cached q lt
    count := by simpa using h.quiet.count
    entries := fun evicts q lt ne => by
      have own := h.quiet.entries evicts q lt
      refine ⟨fun same => ?_, own⟩
      rw [same, found, Option.some.injEq] at own
      exact ne own.symm
    room := h.quiet.room
    taken := by simp [h.taken] }

/-- What the lookup answers is the entry, for as long as `m.mu` is held. -/
private def Looked (A : Assumptions) (m : Manager) (i : ι) (name : GoString) (r : Option Ptr)
    (s : State ι) : Prop :=
  Locked A m i name s ∧ s.sockets.lookup name = r

private theorem Looked.framed (r : Option Ptr) : Framed A m i (Looked A m i name r) where
  stable s s' inv inv' rely h :=
    ⟨Locked.framed.stable s s' inv inv' rely h.1, by rw [(rely.underMu h.1.mu).1]; exact h.2⟩
  fmu s q holder h := ⟨Locked.framed.fmu s q holder h.1, h.2⟩

theorem reuse_spec :
    (logic ι A m).Triple i (Locked A m i name) (Manager.reuse name) fun r s =>
      match r with
      | some p => Storing A m i name p true 0 s
      | none => Locked A m i name s ∧ s.sockets.lookup name = none := by
  have looking : (logic ι A m).Triple i (Locked A m i name) (act (.lookup name))
      fun r => Looked A m i name r := by
    apply read_spec (fun s => s.sockets.lookup name) (fun _ _ => rfl)
    · exact fun s _ h bad => bad h.mu
    · exact fun s _ h => ⟨h, rfl⟩
    · exact fun r => (Looked.framed r).stable
  apply Logic.Triple.bind looking
  intro r
  cases r with
  | none => exact Logic.Triple.ret none fun s _ h => h
  | some p =>
    have counting : (logic ι A m).Triple i (Looked A m i name (some p)) (SharedSocket.inc p)
        fun closed s => closed = false ∧ Storing A m i name p true 0 s := by
      apply SharedSocket.inc_spec name (Looked.framed (some p)) (Storing.framed true 0)
      · exact fun s inv h => .inl (inv.entry name p h.2).1
      · exact fun s _ h => h.lt
      · exact fun s h => ⟨h.1.call, h.1.taken⟩
      · exact fun s inv h => h.1.hit inv h.2
    apply Logic.Triple.bind_eq counting
    exact Logic.Triple.ret (some p) fun s _ h => h

/-- Nothing is stored for the name, and `i` has opened `c`. -/
private structure Opened (A : Assumptions) (m : Manager) (i : ι) (name : GoString) (c : Conn)
    (s : State ι) : Prop where
  locked : Locked A m i name s
  missed : s.sockets.lookup name = none
  opener : (s.conn c).opener = some i
  home : (s.conn c).home = none
  room : A.room → (s.next : Int) < m.limit

private theorem Opened.stable (c : Conn) :
    (logic ι A m).Stable i (Opened A m i name c) := by
  intro s s' inv inv' rely h
  obtain ⟨map, -, next, -⟩ := rely.underMu h.locked.mu
  obtain ⟨opener, home, -⟩ := (rely.opened c h.opener h.home).fixed
  exact {
    locked := Locked.framed.stable s s' inv inv' rely h.locked
    missed := by rw [map]; exact h.missed
    opener := opener.trans h.opener
    home := home.trans h.home
    room := by rw [next]; exact h.room }

omit [Fintype ι] in
private theorem Opened.new {s s' : State ι} {c : Conn}
    (h : Opened A m i name c s)
    (made : s.exec i (.new name (Path.join m.hostapdDir name) m.clientDir c) .go =
      some (s.next, s')) : Storing A m i name s.next false 1 s' := by
  have quiet := h.locked.quiet
  cases made
  have old : ∀ q : Ptr, q < s.next + 1 → q ≠ s.next → q < s.next := fun q lt ne =>
    lt_of_le_of_ne (Nat.lt_succ_iff.mp lt) ne
  exact {
    mu := h.locked.mu
    call := h.locked.call
    lt := Nat.lt_succ_self _
    named := Function.update_self ..
    flag := Function.update_self ..
    others := fun q lt ne => by
      simpa only [Function.update_of_ne ne] using quiet.cached q (old q lt ne)
    count := by simpa using quiet.count
    entries := fun evicts q lt ne => by
      have own := quiet.entries evicts q (old q lt ne)
      have stored : ∀ k, k = s.heap.name q → k ≠ name ∧ s.sockets.lookup k = some q := by
        rintro k rfl
        refine ⟨fun same => ?_, own⟩
        rw [same, h.missed] at own
        cases own
      exact stored _ (Function.update_of_ne ne ..)
    room := fun room _ => by simpa using Int.add_one_le_of_lt (h.room room)
    taken := by simp [h.locked.taken] }

omit [Fintype ι] [DecidableEq ι] in
/-- If no entry is lost, a name without an entry has no `sharedSocket`. -/
private theorem Locked.missing {s : State ι} (h : Locked A m i name s)
    (missed : s.sockets.lookup name = none) (evicts : A.evicts) :
    ∀ q < s.next, s.heap.name q ≠ name := by
  rintro q lt rfl
  have own := h.quiet.entries evicts q lt
  rw [missed] at own
  cases own

theorem openShared_spec :
    (logic ι A m).Triple i (fun s => Locked A m i name s ∧ s.sockets.lookup name = none)
      (openShared name (Path.join m.hostapdDir name) m.clientDir) fun r s =>
      match r with
      | .ok p => Storing A m i name p false 1 s
      | .error _ => Locked A m i name s := by
  apply Logic.Triple.bind (R := fun r s =>
    match r with
    | .ok c => Opened A m i name c s
    | .error _ => Locked A m i name s)
  · apply Logic.Triple.perform
    -- There is no other `sharedSocket` of the name if no entry is lost.
    · rintro s _ pre ⟨evicts, q, lt, call⟩
      rw [pre.1.call, Option.some.injEq, Call.get.injEq] at call
      exact pre.1.missing pre.2 evicts q lt call.symm
    · intro s ch r s' inv pre ok done
      have done' : s.exec i (.openSock (Path.join m.hostapdDir name) m.clientDir) ch =
        some (r, s') := done
      cases ch with
      | go =>
        cases done'
        refine ⟨inv.openSock i, { pre.1 with quiet := { pre.1.quiet with } }, pre.2,
          by simp [State.setConn], by simp [State.setConn], fun room => ?_⟩
        -- The counter is the number of `sharedSocket`s, so there is room for one more.
        have below := ok.2.2.1 room
        simp only [opensBelowLimit, pre.1.call, decide_eq_true_eq] at below
        rwa [pre.1.quiet.count] at below
      | fail e =>
        simp only [State.exec] at done'
        split at done'
        · cases done'
        · cases done'
          exact ⟨inv, pre.1⟩
      | order => cases done'
      | timeout => cases done'
      | answer => cases done'
      | message => cases done'
    · intro r
      cases r with
      | ok c => exact Opened.stable c
      | error err => exact Locked.framed.stable
  · intro r
    cases r with
    | error err => exact Logic.Triple.ret _ fun s _ h => h
    | ok c =>
      have allocating : (logic ι A m).Triple i (Opened A m i name c)
          (act (.new name (Path.join m.hostapdDir name) m.clientDir c))
          fun p => Storing A m i name p false 1 := by
        apply det_spec (fun s => s.next) _ (fun _ _ => rfl)
        · exact fun s _ h bad => bad ⟨h.locked.mu, h.opener, h.home⟩
        · intro s _ inv h _
          exact ⟨inv.new i name c h.locked.mu h.locked.call h.locked.taken
            (h.locked.missing h.missed) h.opener h.home _ rfl, h.new rfl⟩
        · exact fun _ => (Storing.framed false 1).stable
      apply Logic.Triple.bind allocating
      exact fun p => Logic.Triple.ret _ fun s _ h => h

/-! ### `Get` -/

private theorem lockMu_spec :
    (logic ι A m).Triple i
      (fun s => s.call i = some (.get name) ∧ s.taken i = s.held i)
      (act (.lock .mu)) fun _ => Locked A m i name := by
  apply lock_spec .mu (fun _ _ _ => trivial)
  · exact fun s inv pre free => ⟨rfl, pre.1, { inv.quiet free with }, pre.2⟩
  · exact Locked.framed.stable

private theorem unlockMu_spec {P Q : State ι → Prop} (mu : ∀ s, P s → s.mu = some i)
    (quiet : ∀ s, P s → Quiet A m s) (after : ∀ s, P s → Q (s.setHolder .mu none))
    (stable : (logic ι A m).Stable i Q) :
    (logic ι A m).Triple i P (act (.unlock .mu)) fun _ => Q := by
  apply det_spec (fun _ => ()) _ (fun _ _ => rfl)
  · exact fun s _ pre bad => bad (mu s pre)
  · exact fun s _ inv pre _ => ⟨inv.unlockMu (quiet s pre), after s pre⟩
  · exact fun _ => stable

/-- `Get` returns a cached `sharedSocket` of the name with one more reference of `i`; when
it fails, `i` has the references it had. -/
theorem get_spec :
    (logic ι A m).Triple i (fun s => s.call i = some (.get name) ∧ s.taken i = s.held i)
      (m.get name) fun r s =>
      match r with
      | .ok p => Fetched i name p s
      | .error _ => s.taken i = s.held i := by
  have finishing : ∀ (p : Ptr) (flag : Bool),
      (logic ι A m).Triple i (Storing A m i name p flag (if flag then 0 else 1))
        (do
          m.store name p
          act (.unlock .mu)
          pure (Except.ok (ε := GoError) p))
        fun r s =>
          match r with
          | .ok p => Fetched i name p s
          | .error _ => s.taken i = s.held i := by
    intro p flag
    apply Logic.Triple.bind (store_spec flag)
    intro _
    apply Logic.Triple.bind (unlockMu_spec (Q := Fetched i name p) (fun _ h => h.mu)
      (fun _ h => h.quiet) (fun _ h => ⟨h.named, h.flag, h.taken⟩) Fetched.stable)
    exact fun _ => Logic.Triple.ret _ fun s _ h => h
  apply Logic.Triple.bind lockMu_spec
  intro _
  apply Logic.Triple.bind reuse_spec
  intro r
  cases r with
  -- A cached one is stored again, a new one for the first time.
  | some p => exact finishing p true
  | none =>
    apply Logic.Triple.bind openShared_spec
    intro r
    cases r with
    | ok p => exact finishing p false
    | error err =>
      apply Logic.Triple.bind (unlockMu_spec (Q := fun s => s.taken i = s.held i) (fun _ h => h.mu)
        (fun _ h => h.quiet) (fun _ h => h.taken) ?_)
      · exact fun _ => Logic.Triple.ret _ fun s _ h => h
      · exact fun _ _ _ _ rely h => (rely.taken.trans h).trans rely.held.symm

end HostapdGrpc.Socket
