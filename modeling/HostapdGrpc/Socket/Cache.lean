import HostapdGrpc.Socket.Soundness

/-!
# The cache

The map, the counter and the flags under eviction. `evict` asks `isOpen`, whose answer is
the negation of what its name says, so it drops the entries of open connections; what the
cache is meant to guarantee holds of the runs in which that does no harm.
-/

namespace HostapdGrpc.Socket

open Go Interaction

variable {ι : Type} {A : Assumptions} {m : Manager}

/-! ### One connection per name -/

/-- No two `sharedSocket`s of one name are open, no two callers hold different ones, and
`Get` opens one only if all others of the name are closed. -/
structure OnePerName (c : Config ι Op Ans (State ι) Call Res) : Prop where
  opened : ∀ p q, c.state.heap.closed p = false → c.state.heap.closed q = false →
    c.state.heap.name p = c.state.heap.name q → p = q
  shared : ∀ i j p q, p ∈ c.state.held i → q ∈ c.state.held j →
    c.state.heap.name p = c.state.heap.name q → p = q
  needed : ∀ i name device clientDir k,
    c.thread i = .running (.get name) (.call (.openSock device clientDir) k) →
      ∀ p, c.state.heap.name p = name → c.state.heap.closed p = true

variable [Fintype ι] [DecidableEq ι] {c : Config ι Op Ans (State ι) Call Res}

private theorem evicting_ok
    (run : Reach (system ι m) (disciplinedAnd evictsOwnEntry) (initial ι) c) :
    (proof ι ⟨True, False, False, False⟩ m).ConfigOk c := by
  apply reach_ok
  exact Reach.weaken (C := disciplinedAnd evictsOwnEntry) (fun _ _ _ h => h)
    (fun _ _ _ _ h => ⟨fun _ => h, False.elim, False.elim, False.elim⟩) run

/-- If `evict` only ever drops the entry that is stored again, names are not opened twice. -/
theorem one_per_name (run : Reach (system ι m) (disciplinedAnd evictsOwnEntry) (initial ι) c) :
    OnePerName c := by
  have ok := evicting_ok run
  have inv := ok.1
  -- What is open has been allocated, and allocated names are distinct.
  have unique : ∀ p q, c.state.heap.closed p = false → c.state.heap.closed q = false →
      c.state.heap.name p = c.state.heap.name q → p = q := fun p q openP openQ same =>
    inv.unique trivial p (inv.lt_of_open openP) q (inv.lt_of_open openQ) same
  refine ⟨unique, fun i j p q heldP heldQ => unique p q (inv.open_of_held heldP)
    (inv.open_of_held heldQ), ?_⟩
  intro i name device clientDir k at_op p named
  have call : c.state.call i = some (.get name) := by
    rw [call_of_thread run i, at_op]
    rfl
  by_contra open'
  -- An opening for a name that has an open `sharedSocket` is bad.
  have lt := inv.lt_of_open (by simpa using open')
  exact ok.not_bad at_op ⟨trivial, p, lt, by rw [call, named]⟩

/-- A name fetched twice at the limit, where `evict` drops its own entry. -/
theorem one_per_name_refetched :
    ∃ c, Reach (system (Fin 1) ⟨[], [], 1⟩) (disciplinedAnd evictsOwnEntry) (initial (Fin 1)) c ∧
      c.state.held 0 = [0, 0] ∧ OnePerName c := by
  obtain ⟨c, run, last⟩ := exists_run (ι := Fin 1) ⟨[], [], 1⟩ evictsOwnEntry
    (uninterrupted 0 (.get (lit "a")) (List.replicate 14 .go) ++
      uninterrupted 0 (.get (lit "a")) (List.replicate 15 .go))
    (fun c => c.state.held 0 == [0, 0]) (by decide +kernel)
  exact ⟨c, run, eq_of_beq last, one_per_name run⟩

/-- A `Get` of a name whose entry was dropped for another opens a second connection. -/
theorem opened_twice :
    ∃ c, Reach (system (Fin 1) ⟨[], [], 1⟩) disciplined (initial (Fin 1)) c ∧
      c.state.mu = none ∧
      ¬∀ p q, c.state.heap.closed p = false → c.state.heap.closed q = false →
        c.state.heap.name p = c.state.heap.name q → p = q := by
  -- The `Get` of `b` drops the entry of `a`, and the second `Get` of `a` that of `b`.
  obtain ⟨c, run, last⟩ := exists_run (ι := Fin 1) ⟨[], [], 1⟩ (fun _ _ _ _ => true)
    (uninterrupted 0 (.get (lit "a")) (List.replicate 14 .go) ++
      uninterrupted 0 (.get (lit "b")) (List.replicate 19 .go) ++
      uninterrupted 0 (.get (lit "a")) (List.replicate 19 .go))
    (fun c => c.state.mu == none && !c.state.heap.closed 0 && !c.state.heap.closed 2 &&
      c.state.heap.name 0 == c.state.heap.name 2) (by decide +kernel)
  simp only [Bool.and_eq_true, beq_iff_eq, Bool.not_eq_true'] at last
  obtain ⟨⟨⟨free, open₀⟩, open₂⟩, same⟩ := last
  refine ⟨c, run, free, fun one => ?_⟩
  have equal := one 0 2 open₀ open₂ same
  cases equal

/-! ### The counter, the flags and the map -/

/-- The counter counts the flagged entries, and a flagged `sharedSocket` is the entry of
its name. -/
structure Represented (s : State ι) : Prop where
  count : s.cached = ((s.entries.filter fun e => s.heap.cached e.2).length : Int)
  reachable : ∀ p < s.next, s.heap.cached p = true → s.sockets.lookup (s.heap.name p) = some p

omit [Fintype ι] [DecidableEq ι] in
theorem mem_entries {s : State ι} (k : GoString) (p : Ptr) :
    (k, p) ∈ s.entries ↔ s.sockets.lookup k = some p := by
  simp only [State.entries, List.mem_map, Prod.mk.injEq]
  constructor
  · rintro ⟨⟨k', p'⟩, member, rfl, rfl⟩
    exact AList.mem_lookup_iff.mpr member
  · exact fun found => ⟨⟨k, p⟩, AList.mem_lookup_iff.mp found, rfl, rfl⟩

omit [DecidableEq ι] in
/-- The entries list every allocated `sharedSocket` once. -/
private theorem entries_perm {s : State ι} (inv : Inv A m s) (quiet : Quiet A m s)
    (evicts : A.evicts) : (s.entries.map Prod.snd).Perm (List.range s.next) := by
  have distinct : (s.entries.map Prod.snd).Nodup := by
    apply List.Nodup.of_map s.heap.name
    have names : (s.entries.map Prod.snd).map s.heap.name = s.sockets.keys := by
      simp only [State.entries, AList.keys, List.keys, List.map_map]
      apply List.map_congr_left
      rintro ⟨k, p⟩ member
      exact (inv.entry k p (AList.mem_lookup_iff.mpr member)).2
    rw [names]
    exact s.sockets.keys_nodup
  rw [List.perm_ext_iff_of_nodup distinct List.nodup_range]
  intro p
  simp only [List.mem_map, List.mem_range]
  constructor
  · rintro ⟨⟨k, q⟩, member, rfl⟩
    exact inv.lt_of_cached (inv.entry k q ((mem_entries k q).mp member)).1
  · exact fun lt => ⟨(s.heap.name p, p), (mem_entries _ p).mpr (quiet.entries evicts p lt), rfl⟩

/-- If `evict` only ever drops the entry that is stored again, the cache is represented
whenever `m.mu` is free. -/
theorem represented (run : Reach (system ι m) (disciplinedAnd evictsOwnEntry) (initial ι) c)
    (free : c.state.mu = none) : Represented c.state := by
  have ok := evicting_ok run
  have quiet := ok.1.quiet free
  refine ⟨?_, fun p lt _ => quiet.entries trivial p lt⟩
  -- Every entry is flagged, so all of them are counted.
  have flagged : c.state.entries.filter (fun e => c.state.heap.cached e.2) = c.state.entries := by
    apply List.filter_eq_self.mpr
    rintro ⟨k, p⟩ member
    exact (ok.1.entry k p ((mem_entries k p).mp member)).1
  have size := (entries_perm ok.1 quiet trivial).length_eq
  rw [List.length_map, List.length_range] at size
  rw [flagged, size, quiet.count]

/-- A name fetched twice at the limit, where `evict` drops its own entry. -/
theorem represented_refetched :
    ∃ c, Reach (system (Fin 1) ⟨[], [], 1⟩) (disciplinedAnd evictsOwnEntry) (initial (Fin 1)) c ∧
      c.state.cached = 1 ∧ Represented c.state := by
  obtain ⟨c, run, last⟩ := exists_run (ι := Fin 1) ⟨[], [], 1⟩ evictsOwnEntry
    (uninterrupted 0 (.get (lit "a")) (List.replicate 14 .go) ++
      uninterrupted 0 (.get (lit "a")) (List.replicate 15 .go))
    (fun c => c.state.cached == 1 && c.state.mu == none) (by decide +kernel)
  simp only [Bool.and_eq_true, beq_iff_eq] at last
  exact ⟨c, run, last.1, represented run last.2⟩

/-- When `evict` drops the entry of another name, its connection stays flagged and counted. -/
theorem orphaned :
    ∃ c, Reach (system (Fin 1) ⟨[], [], 1⟩) disciplined (initial (Fin 1)) c ∧
      c.state.mu = none ∧
      c.state.cached ≠ ((c.state.entries.filter fun e => c.state.heap.cached e.2).length : Int) ∧
      ¬∀ p < c.state.next, c.state.heap.cached p = true →
        c.state.sockets.lookup (c.state.heap.name p) = some p := by
  obtain ⟨c, run, last⟩ := exists_run (ι := Fin 1) ⟨[], [], 1⟩ (fun _ _ _ _ => true)
    (uninterrupted 0 (.get (lit "a")) (List.replicate 14 .go) ++
      uninterrupted 0 (.get (lit "b")) (List.replicate 19 .go))
    (fun c => c.state.mu == none && c.state.cached == 2 && c.state.next == 2 &&
      (c.state.entries.filter fun e => c.state.heap.cached e.2).length == 1 &&
      c.state.heap.cached 0 && c.state.sockets.lookup (c.state.heap.name 0) == none)
    (by decide +kernel)
  simp only [Bool.and_eq_true, beq_iff_eq] at last
  obtain ⟨⟨⟨⟨⟨free, count⟩, next⟩, entries⟩, flag⟩, missing⟩ := last
  refine ⟨c, run, free, by rw [count, entries]; decide, fun reachable => ?_⟩
  have found := reachable 0 (by rw [next]; decide) flag
  rw [missing] at found
  cases found

/-! ### The limit -/

/-- The `sharedSocket`s retained by the cache flag -/
def retained (s : State ι) : Finset Ptr :=
  (Finset.range s.next).filter fun p => s.heap.cached p = true

/-- The open connections, but for those that `Open` is just returning -/
def connected (s : State ι) : Finset Conn :=
  (Finset.range s.nextConn).filter fun c => (s.conn c).closed = false ∧ (s.conn c).home ≠ none

/-- The `sharedSocket`s that some caller holds -/
def inUse (s : State ι) : Finset Ptr := Finset.univ.biUnion fun i => (s.held i).toFinset

omit [DecidableEq ι] in
/-- Every open connection is the `Socket` of a `sharedSocket` of its own. -/
private theorem connected_card_le {s : State ι} (inv : Inv A m s) :
    (connected s).card ≤ s.next := by
  rw [← Finset.card_range s.next]
  have stored : ∀ c ∈ connected s, ∃ p, (s.conn c).home = some p ∧ p < s.next ∧
      s.heap.s p = some c := by
    intro c member
    obtain ⟨-, open', homed⟩ := Finset.mem_filter.mp member
    obtain ⟨p, home⟩ := Option.ne_none_iff_exists'.mp homed
    exact ⟨p, home, inv.homeLt c p home, inv.current c p home open'⟩
  -- Two open connections with one home would both be its `Socket`.
  apply Finset.card_le_card_of_injOn fun c => (s.conn c).home.getD 0
  · intro c member
    obtain ⟨p, home, lt, -⟩ := stored c member
    simpa [home] using lt
  · intro c member d member' same
    obtain ⟨p, home, -, at_p⟩ := stored c member
    obtain ⟨q, home', -, at_q⟩ := stored d member'
    simp only [home, home', Option.getD_some] at same
    rw [same, at_q, Option.some.injEq] at at_p
    exact at_p.symm

/-- If `Get` only opens connections below the limit, no more than the limit are retained,
nor open beyond those in use. -/
theorem within_limit (limited : 1 ≤ m.limit)
    (run : Reach (system ι m) (disciplinedAnd (opensBelowLimit m)) (initial ι) c)
    (free : c.state.mu = none) :
    ((retained c.state).card : Int) ≤ m.limit ∧
      ((connected c.state).card : Int) ≤ m.limit + (inUse c.state).card := by
  have ok : (proof ι ⟨False, False, True, False⟩ m).ConfigOk c := by
    apply reach_ok
    exact Reach.weaken (C := disciplinedAnd (opensBelowLimit m)) (fun _ _ _ h => h)
      (fun _ _ _ _ h => ⟨False.elim, False.elim, fun _ => h, False.elim⟩) run
  have room := (ok.1.quiet free).room trivial limited
  -- No more are allocated than the limit, whether they are in use or not.
  have bounded : ∀ n ≤ c.state.next, (n : Int) ≤ m.limit := fun n few =>
    (Int.ofNat_le.mpr few).trans room
  have inMemory := Finset.card_filter_le (Finset.range c.state.next) fun p =>
    c.state.heap.cached p = true
  rw [Finset.card_range] at inMemory
  exact ⟨bounded _ inMemory, (bounded _ (connected_card_le ok.1)).trans (by simp)⟩

theorem within_limit_two :
    ∃ c, Reach (system (Fin 1) ⟨[], [], 2⟩) (disciplinedAnd (opensBelowLimit ⟨[], [], 2⟩))
        (initial (Fin 1)) c ∧
      (retained c.state).card = 2 ∧ ((retained c.state).card : Int) ≤ 2 ∧
      ((connected c.state).card : Int) ≤ 2 + (inUse c.state).card := by
  obtain ⟨c, run, last⟩ := exists_run (ι := Fin 1) ⟨[], [], 2⟩ (opensBelowLimit ⟨[], [], 2⟩)
    (uninterrupted 0 (.get (lit "a")) (List.replicate 14 .go) ++
      uninterrupted 0 (.get (lit "b")) (List.replicate 14 .go))
    (fun c => c.state.mu == none && (retained c.state).card == 2) (by decide +kernel)
  simp only [Bool.and_eq_true, beq_iff_eq] at last
  exact ⟨c, run, last.2, within_limit (m := ⟨[], [], 2⟩) (by decide) run last.1⟩

/-- A connection opened at the limit does not take the place of another. -/
theorem beyond_limit :
    ∃ c, Reach (system (Fin 1) ⟨[], [], 1⟩) disciplined (initial (Fin 1)) c ∧
      c.state.mu = none ∧ ¬((retained c.state).card : Int) ≤ 1 := by
  obtain ⟨c, run, last⟩ := exists_run (ι := Fin 1) ⟨[], [], 1⟩ (fun _ _ _ _ => true)
    (uninterrupted 0 (.get (lit "a")) (List.replicate 14 .go) ++
      uninterrupted 0 (.get (lit "b")) (List.replicate 19 .go))
    (fun c => c.state.mu == none && (retained c.state).card == 2) (by decide +kernel)
  simp only [Bool.and_eq_true, beq_iff_eq] at last
  refine ⟨c, run, last.1, ?_⟩
  rw [last.2]
  decide

end HostapdGrpc.Socket
