import HostapdGrpc.Socket.Operations

/-!
# Counting references

The methods of `sharedSocket` that work under `fmu`. A `sharedSocket` that is cached, or
that the goroutine itself has a reference to, is never found closed.
-/

namespace HostapdGrpc.Socket

open Go Interaction

variable {ι : Type} [Fintype ι] {A : Assumptions} {m : Manager} {i : ι} {p : Ptr}

/-- Cached, or counted for `i` -/
def Alive (i : ι) (p : Ptr) (s : State ι) : Prop := s.heap.cached p = true ∨ p ∈ s.taken i

theorem Inv.lt_of_cached {s : State ι} (inv : Inv A m s) (flag : s.heap.cached p = true) :
    p < s.next := by
  by_contra beyond
  have unset := (inv.fresh p (not_lt.mp beyond)).2.1
  rw [flag] at unset
  cases unset

theorem Inv.lt_of_alive {s : State ι} (inv : Inv A m s) (alive : Alive i p s) : p < s.next := by
  rcases alive with flag | taken
  · exact inv.lt_of_cached flag
  · by_contra beyond
    have unused := (inv.fresh p (not_lt.mp beyond)).1
    exact (inv.refs_pos taken).ne' unused

theorem Inv.lt_of_open {s : State ι} (inv : Inv A m s) (open' : s.heap.closed p = false) :
    p < s.next := by
  by_contra beyond
  obtain ⟨refs, flag, -, -⟩ := inv.fresh p (not_lt.mp beyond)
  simp [SharedSockets.closed, refs, flag] at open'

theorem Inv.open_of_held {s : State ι} (inv : Inv A m s) (held : p ∈ s.held i) :
    s.heap.closed p = false := by
  simp [SharedSockets.closed, inv.known i p (.inl held)]

variable [DecidableEq ι] {P P' : State ι → Prop}

/-! ### Reads under `fmu` -/

theorem readCached_spec (framed : Framed A m i P) (alive : ∀ s, Inv A m s → P s → Alive i p s) :
    (logic ι A m).Triple i (WithFmu i p P) (act (.cached p)) fun b s =>
      WithFmu i p P s ∧ (b = true → s.heap.cached p = true) ∧ (b = false → p ∈ s.taken i) := by
  apply read_spec (fun s => s.heap.cached p) (fun _ _ => rfl)
  · exact fun s _ pre bad => bad.1 pre.1
  · intro s inv pre
    refine ⟨pre, id, fun unset => ?_⟩
    have flag : s.heap.cached p = false := unset
    rcases alive s inv pre.2 with cached | taken
    · rw [flag] at cached
      cases cached
    · exact taken
  · intro b s s' inv inv' rely h
    refine ⟨framed.withFmu p s s' inv inv' rely h.1, fun set => rely.cached p (h.2.1 set), ?_⟩
    intro unset
    rw [rely.taken]
    exact h.2.2 unset

theorem readRefs_spec (framed : Framed A m i P) :
    (logic ι A m).Triple i (WithFmu i p P) (act (.refs p)) fun n s =>
      WithFmu i p P s ∧ s.heap.refs p = n := by
  apply read_spec (fun s => s.heap.refs p) (fun _ _ => rfl)
  · exact fun s _ pre bad => bad pre.1
  · exact fun s _ pre => ⟨pre, rfl⟩
  · intro n s s' inv inv' rely h
    exact ⟨framed.withFmu p s s' inv inv' rely h.1, (rely.underFmu p h.1.1).trans h.2⟩

/-- Who has a reference reads that there are references. -/
theorem readOwnRefs_spec (framed : Framed A m i P) (taken : ∀ s, P s → p ∈ s.taken i) :
    (logic ι A m).Triple i (WithFmu i p P) (act (.refs p)) fun n s =>
      n ≠ 0 ∧ WithFmu i p P s := by
  apply (readRefs_spec framed).weaken (fun _ _ h => h)
  intro n s inv h
  have pos := inv.refs_pos (taken s h.1.2)
  rw [h.2] at pos
  exact ⟨pos.ne', h.1⟩

theorem readSetFlag_spec (framed : Framed A m i P)
    (cached : ∀ s, Inv A m s → P s → s.heap.cached p = true) :
    (logic ι A m).Triple i (WithFmu i p P) (act (.cached p)) fun b s =>
      b = true ∧ WithFmu i p P s := by
  apply read_spec (fun s => s.heap.cached p) (fun _ _ => rfl)
  · exact fun s _ pre bad => bad.1 pre.1
  · exact fun s inv pre => ⟨cached s inv pre.2, pre⟩
  · exact fun b => (Logic.Stable.const (b = true)).and (framed.withFmu p)

/-! ### The methods -/

namespace SharedSocket

theorem testClosed_spec (framed : Framed A m i P) (alive : ∀ s, Inv A m s → P s → Alive i p s) :
    (logic ι A m).Triple i (WithFmu i p P) (testClosed p) fun closed s =>
      closed = false ∧ WithFmu i p P s := by
  apply Logic.Triple.bind (readCached_spec framed alive)
  intro cached
  cases cached with
  | true => exact Logic.Triple.ret false fun s _ h => ⟨rfl, h.1⟩
  | false =>
    -- Not cached, so alive by a reference of `i`, which keeps `refs` from 0.
    have counted : Framed A m i fun s => P s ∧ p ∈ s.taken i :=
      { stable := fun s s' inv inv' rely h =>
          ⟨framed.stable s s' inv inv' rely h.1, by rw [rely.taken]; exact h.2⟩
        fmu := fun s q h pre => ⟨framed.fmu s q h pre.1, pre.2⟩ }
    apply Logic.Triple.bind ((readOwnRefs_spec counted fun _ h => h.2).weaken
      (fun _ _ h => ⟨h.1.1, h.1.2, h.2.2 rfl⟩) fun _ _ _ h => h)
    intro n
    exact Logic.Triple.ret _ fun s _ h => ⟨beq_false_of_ne h.1, h.2.1, h.2.2.1⟩

/-- The methods begin with `fmu` and the test, which finds the `sharedSocket` open. -/
private theorem tested_spec {α : Type} {k : Bool → Act α} {Q : α → State ι → Prop}
    (framed : Framed A m i P) (alive : ∀ s, Inv A m s → P s → Alive i p s)
    (rest : (logic ι A m).Triple i (WithFmu i p P) (k false) Q) :
    (logic ι A m).Triple i P
      (do
        act (.lock (.fmu p))
        let closed ← testClosed p
        k closed) Q := by
  apply Logic.Triple.bind (lockFmu_spec p framed fun s inv pre => inv.lt_of_alive (alive s inv pre))
  exact fun _ => Logic.Triple.bind_eq (testClosed_spec framed alive) rest

/-- The methods end with the release of `fmu`. -/
private theorem released_spec {α : Type} (framed : Framed A m i P)
    (known : ∀ s, Inv A m s → P s → p < s.next) (a : α) :
    (logic ι A m).Triple i (WithFmu i p P)
      (do
        act (.unlock (.fmu p))
        pure a)
      fun b s => b = a ∧ P s := by
  apply Logic.Triple.bind (unlockFmu_spec p framed known)
  exact fun _ => Logic.Triple.ret a fun s _ h => ⟨rfl, h⟩

theorem isOpen_spec (framed : Framed A m i P) (alive : ∀ s, Inv A m s → P s → Alive i p s) :
    (logic ι A m).Triple i P (isOpen p) fun open' s => open' = false ∧ P s := by
  apply tested_spec framed alive
  exact released_spec framed (fun s inv pre => inv.lt_of_alive (alive s inv pre)) false

/-- `inc` takes a reference for its caller. -/
theorem inc_spec (name : GoString) (framed : Framed A m i P) (framed' : Framed A m i P')
    (alive : ∀ s, Inv A m s → P s → Alive i p s) (known' : ∀ s, Inv A m s → P' s → p < s.next)
    (fetching : ∀ s, P s → s.call i = some (.get name) ∧ s.taken i = s.held i)
    (taking : ∀ s, Inv A m s → P s → P' { s with
      heap.refs := Function.update s.heap.refs p (s.heap.refs p + 1)
      taken := Function.update s.taken i (p :: s.taken i) }) :
    (logic ι A m).Triple i P (inc p) fun closed s => closed = false ∧ P' s := by
  apply tested_spec framed alive
  have counting : (logic ι A m).Triple i (WithFmu i p P) (act (.incRefs p))
      fun _ => WithFmu i p P' := by
    apply det_spec (fun _ => ()) _ (fun _ _ => rfl)
    · exact fun s _ pre bad => bad pre.1
    · intro s _ inv pre _
      obtain ⟨call, taken⟩ := fetching s pre.2
      exact ⟨inv.incRefs i name p (inv.lt_of_alive (alive s inv pre.2)) call taken, pre.1,
        taking s inv pre.2⟩
    · exact fun _ => framed'.withFmu p
  exact Logic.Triple.bind counting fun _ => released_spec framed' known' false

/-- `cache` sets the flag. -/
theorem cache_spec (framed : Framed A m i P) (framed' : Framed A m i P')
    (alive : ∀ s, Inv A m s → P s → Alive i p s) (known' : ∀ s, Inv A m s → P' s → p < s.next)
    (locked : ∀ s, P s → s.mu = some i)
    (flagging : ∀ s, Inv A m s → P s →
      P' { s with heap.cached := Function.update s.heap.cached p true }) :
    (logic ι A m).Triple i P (cache p) fun closed s => closed = false ∧ P' s := by
  apply tested_spec framed alive
  have setting : (logic ι A m).Triple i (WithFmu i p P) (act (.setCached p true))
      fun _ => WithFmu i p P' := by
    apply det_spec (fun _ => ()) _ (fun _ _ => rfl)
    · exact fun s _ pre bad => bad ⟨pre.1, locked s pre.2, rfl⟩
    · exact fun s _ inv pre _ =>
        ⟨inv.setCached i p (inv.lt_of_alive (alive s inv pre.2)) (locked s pre.2), pre.1,
          flagging s inv pre.2⟩
    · exact fun _ => framed'.withFmu p
  exact Logic.Triple.bind setting fun _ => released_spec framed' known' false

/-- `Close` gives up a reference of its caller. The `sharedSocket` is cached, so its
`Socket` stays. -/
theorem close_spec (framed : Framed A m i P) (framed' : Framed A m i P')
    (taken : ∀ s, P s → p ∈ s.taken i)
    (closing : ∀ s, P s → s.call i = some (.close p) ∧ (s.taken i).erase p = s.held i)
    (cached : ∀ s, Inv A m s → P' s → s.heap.cached p = true)
    (giving : ∀ s, Inv A m s → P s → P' { s with
      heap.refs := Function.update s.heap.refs p (s.heap.refs p - 1)
      taken := Function.update s.taken i ((s.taken i).erase p) }) :
    (logic ι A m).Triple i P (close p) fun err s => err = none ∧ P' s := by
  have known : ∀ s, Inv A m s → P s → p < s.next := fun s inv pre =>
    inv.lt_of_alive (.inr (taken s pre))
  have known' : ∀ s, Inv A m s → P' s → p < s.next := fun s inv post =>
    inv.lt_of_cached (cached s inv post)
  have dropping : (logic ι A m).Triple i (WithFmu i p P) (act (.decRefs p))
      fun _ => WithFmu i p P' := by
    apply det_spec (fun _ => ()) _ (fun _ _ => rfl)
    · exact fun s _ pre bad => bad pre.1
    · intro s _ inv pre _
      obtain ⟨call, left⟩ := closing s pre.2
      exact ⟨inv.decRefs i p (taken s pre.2) call left, pre.1, giving s inv pre.2⟩
    · exact fun _ => framed'.withFmu p
  apply Logic.Triple.bind (lockFmu_spec p framed known)
  intro _
  apply Logic.Triple.bind (readOwnRefs_spec framed taken)
  intro refs
  apply Logic.Triple.assume fun _ _ h => h.1
  intro referenced
  rw [if_neg (by simpa using referenced)]
  apply Logic.Triple.bind (dropping.weaken (fun _ _ h => h.2) fun _ _ _ h => h)
  intro _
  apply Logic.Triple.bind (readRefs_spec framed')
  intro left
  have released := released_spec framed' known' (none : Option GoError)
  by_cases last : left = 0
  -- The last reference is gone, and the flag keeps the `Socket` open.
  · subst last
    exact Logic.Triple.bind_eq ((readSetFlag_spec framed' cached).weaken
      (fun _ _ h => h.1) fun _ _ _ h => h) released
  · rw [if_neg (by simpa using last)]
    exact released.weaken (fun _ _ h => h.1) fun _ _ _ h => h

end SharedSocket

end HostapdGrpc.Socket
