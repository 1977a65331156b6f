import HostapdGrpc.Socket.Locking
import Mathlib.Algebra.Order.BigOperators.Group.Finset

/-!
# Operations keep the invariant

One lemma for each kind of update, with what the goroutine that makes it must know.
-/

namespace HostapdGrpc.Socket

open Go Interaction

variable {ι : Type} [Fintype ι] {A : Assumptions} {m : Manager} {s : State ι}

/-- The mutex is `m.mu` or belongs to an allocated `sharedSocket`. -/
def Lock.Allocated (l : Lock) (s : State ι) : Prop :=
  match l with
  | .mu => True
  | .fmu p | .smu p => p < s.next

namespace Inv

/-! ### Locks -/

private theorem setFmu (inv : Inv A m s) (p : Ptr) (known : p < s.next) (h : Option ι) :
    Inv A m (s.setHolder (.fmu p) h) :=
  { inv with
    fresh := fun q unallocated => by
      have later : s.next ≤ q := unallocated
      have ne : q ≠ p := (lt_of_lt_of_le known later).ne'
      simpa only [State.setHolder, Function.update_of_ne ne] using inv.fresh q later
    quiet := fun free => { inv.quiet free with } }

theorem lock (inv : Inv A m s) (i : ι) (l : Lock) (free : s.holder l = none)
    (known : l.Allocated s) : Inv A m (s.setHolder l (some i)) := by
  cases l with
  | mu => exact { inv with quiet := fun h => by cases h }
  | fmu p => exact inv.setFmu p known (some i)
  | smu p =>
    have unlocked : s.heap.smu p = none := free
    have lt : p < s.next := known
    -- `live` and `ready` speak of free `smu`s, of which there is one less.
    exact { inv with
      fresh := fun q unallocated => by
        have later : s.next ≤ q := unallocated
        have ne : q ≠ p := (lt_of_lt_of_le lt later).ne'
        simpa only [State.setHolder, Function.update_of_ne ne] using inv.fresh q later
      quiet := fun free => { inv.quiet free with }
      live := fun reopens q lt free => by
        have ne : q ≠ p := by
          rintro rfl
          simp [State.setHolder] at free
        simp only [State.setHolder, Function.update_of_ne ne] at free
        exact inv.live reopens q lt free
      ready := fun replies c unused => by
        apply inv.ready replies c
        intro q stored
        by_cases same : q = p
        · rw [same]
          exact unlocked
        · simpa only [State.setHolder, Function.update_of_ne same] using unused q stored }

theorem unlockMu (inv : Inv A m s) (quiet : Quiet A m s) : Inv A m (s.setHolder .mu none) :=
  { inv with quiet := fun _ => { quiet with } }

theorem unlockFmu (inv : Inv A m s) (p : Ptr) (known : p < s.next) :
    Inv A m (s.setHolder (.fmu p) none) :=
  inv.setFmu p known none

theorem unlockSmu (inv : Inv A m s) (p : Ptr) (live : A.reopens → s.heap.s p ≠ none)
    (ready : A.replies → ∀ c, s.heap.s p = some c → (s.conn c).Ready) :
    Inv A m (s.setHolder (.smu p) none) :=
  { inv with
    fresh := fun q unallocated => by
      have before := inv.fresh q unallocated
      by_cases same : q = p
      · subst same
        exact ⟨before.1, before.2.1, before.2.2.1, by simp [State.setHolder]⟩
      · simpa only [State.setHolder, Function.update_of_ne same] using before
    quiet := fun free => { inv.quiet free with }
    live := fun reopens q lt free => by
      by_cases same : q = p
      · rw [same]
        exact live reopens
      · simp only [State.setHolder, Function.update_of_ne same] at free
        exact inv.live reopens q lt free
    ready := fun replies c unused => by
      -- Only the `Socket` of `p` may have been in use.
      by_cases stored : s.heap.s p = some c
      · exact ready replies c stored
      · apply inv.ready replies c
        intro q storedAt
        have ne : q ≠ p := by
          rintro rfl
          exact stored storedAt
        simpa only [State.setHolder, Function.update_of_ne ne] using unused q storedAt }

/-! ### References -/

theorem count_le_refs (inv : Inv A m s) (i : ι) (p : Ptr) :
    (s.taken i).count p ≤ s.heap.refs p := by
  rw [inv.refs p]
  exact Finset.single_le_sum (f := fun j => (s.taken j).count p) (fun _ _ => Nat.zero_le _)
    (Finset.mem_univ i)

theorem refs_pos (inv : Inv A m s) {i : ι} {p : Ptr} (taken : p ∈ s.taken i) :
    0 < s.heap.refs p :=
  lt_of_lt_of_le (List.count_pos_iff.mpr taken) (inv.count_le_refs i p)

section
variable [DecidableEq ι]

/-- The count at one address when one caller's references change. -/
private theorem sum_count_update (taken : ι → List Ptr) (i : ι) (ps : List Ptr) (q : Ptr) :
    (∑ j, (Function.update taken i ps j).count q) + (taken i).count q =
      (∑ j, (taken j).count q) + ps.count q := by
  have without : ∀ f : ι → List Ptr,
      ∑ j, (f j).count q = (f i).count q + ∑ j ∈ Finset.univ.erase i, (f j).count q := fun f =>
    (Finset.add_sum_erase Finset.univ (fun j => (f j).count q) (Finset.mem_univ i)).symm
  have rest : ∑ j ∈ Finset.univ.erase i, (Function.update taken i ps j).count q =
      ∑ j ∈ Finset.univ.erase i, (taken j).count q := by
    apply Finset.sum_congr rfl
    intro j member
    rw [Function.update_of_ne (Finset.ne_of_mem_erase member)]
  rw [without (Function.update taken i ps), without taken, rest, Function.update_self]
  omega

/-- Only the caller whose references change has to account for them. -/
private theorem handles_update (inv : Inv A m s) (i : ι) (ps : List Ptr) (s' : State ι)
    (call : s'.call = s.call) (held : s'.held = s.held)
    (taken : s'.taken = Function.update s.taken i ps) (mine : Accounted i s') (j : ι) :
    Accounted j s' := by
  by_cases same : j = i
  · exact same ▸ mine
  · have before := inv.handles j
    simpa only [Accounted, call, held, taken, Function.update_of_ne same] using before

theorem incRefs (inv : Inv A m s) (i : ι) (name : GoString) (p : Ptr) (known : p < s.next)
    (call : s.call i = some (.get name)) (taken : s.taken i = s.held i) :
    Inv A m { s with
      heap.refs := Function.update s.heap.refs p (s.heap.refs p + 1)
      taken := Function.update s.taken i (p :: s.taken i) } :=
  { inv with
    refs := fun q => by
      have counted := sum_count_update s.taken i (p :: s.taken i) q
      have before := inv.refs q
      by_cases same : q = p
      · subst same
        simp only [Function.update_self, List.count_cons_self] at counted ⊢
        omega
      · simp only [Function.update_of_ne same, List.count_cons_of_ne (Ne.symm same)] at counted ⊢
        omega
    handles := inv.handles_update i (p :: s.taken i) _ rfl rfl rfl (by
      simp only [Accounted, call, Function.update_self]
      exact .inr ⟨p, by rw [taken]⟩)
    fresh := fun q unallocated => by
      have later : s.next ≤ q := unallocated
      have ne : q ≠ p := (lt_of_lt_of_le known later).ne'
      simpa only [Function.update_of_ne ne] using inv.fresh q later
    quiet := fun free => { inv.quiet free with } }

theorem decRefs (inv : Inv A m s) (i : ι) (p : Ptr) (taken : p ∈ s.taken i)
    (call : s.call i = some (.close p)) (left : (s.taken i).erase p = s.held i) :
    Inv A m { s with
      heap.refs := Function.update s.heap.refs p (s.heap.refs p - 1)
      taken := Function.update s.taken i ((s.taken i).erase p) } :=
  { inv with
    refs := fun q => by
      have counted := sum_count_update s.taken i ((s.taken i).erase p) q
      have before := inv.refs q
      have pos := List.count_pos_iff.mpr taken
      by_cases same : q = p
      · subst same
        simp only [Function.update_self, List.count_erase_self] at counted ⊢
        omega
      · simp only [Function.update_of_ne same, List.count_erase_of_ne same] at counted ⊢
        omega
    handles := inv.handles_update i ((s.taken i).erase p) _ rfl rfl rfl (by
      simp only [Accounted, call, Function.update_self]
      exact .inl left)
    fresh := fun q unallocated => by
      have before := inv.fresh q unallocated
      by_cases same : q = p
      · subst same
        simpa [before.1] using before
      · simpa only [Function.update_of_ne same] using before
    quiet := fun free => { inv.quiet free with } }

end

/-! ### The map, the counter and the flags -/

omit [Fintype ι] in
/-- While `m.mu` is held, nothing is due that holds while it is free. -/
private theorem quiet_of_locked {s' : State ι} {i : ι} (locked : s.mu = some i)
    (free : s.mu = none) : Quiet A m s' := by
  rw [locked] at free
  cases free

theorem setCached (inv : Inv A m s) (i : ι) (p : Ptr) (known : p < s.next)
    (locked : s.mu = some i) :
    Inv A m { s with heap.cached := Function.update s.heap.cached p true } :=
  have keeps : ∀ q, s.heap.cached q = true → Function.update s.heap.cached p true q = true := by
    intro q flag
    by_cases same : q = p
    · rw [same, Function.update_self]
    · rwa [Function.update_of_ne same]
  { inv with
    fresh := fun q unallocated => by
      have later : s.next ≤ q := unallocated
      have ne : q ≠ p := (lt_of_lt_of_le known later).ne'
      simpa only [Function.update_of_ne ne] using inv.fresh q later
    known := fun i q member => keeps q (inv.known i q member)
    entry := fun k q found => ⟨keeps q (inv.entry k q found).1, (inv.entry k q found).2⟩
    quiet := fun free => quiet_of_locked locked free }

theorem insert (inv : Inv A m s) (i : ι) (name : GoString) (p : Ptr) (locked : s.mu = some i)
    (cached : s.heap.cached p = true) (named : s.heap.name p = name) :
    Inv A m { s with sockets := s.sockets.insert name p } :=
  { inv with
    entry := fun k q found => by
      have found' : (s.sockets.insert name p).lookup k = some q := found
      by_cases same : k = name
      · subst same
        rw [AList.lookup_insert] at found'
        cases found'
        exact ⟨cached, named⟩
      · rw [AList.lookup_insert_ne same] at found'
        exact inv.entry k q found'
    quiet := fun free => quiet_of_locked locked free }

theorem delete (inv : Inv A m s) (i : ι) (name : GoString) (locked : s.mu = some i) :
    Inv A m { s with sockets := s.sockets.erase name } :=
  { inv with
    entry := fun k q found => by
      have found' : (s.sockets.erase name).lookup k = some q := found
      by_cases same : k = name
      · subst same
        rw [AList.lookup_erase] at found'
        cases found'
      · rw [AList.lookup_erase_ne same] at found'
        exact inv.entry k q found'
    quiet := fun free => quiet_of_locked locked free }

theorem addCount (inv : Inv A m s) (i : ι) (z : Int) (locked : s.mu = some i) :
    Inv A m { s with cached := s.cached + z } :=
  { inv with
    quiet := fun free => quiet_of_locked locked free }

/-! ### Connections -/

private theorem unstored (inv : Inv A m s) {c : Conn} (home : (s.conn c).home = none) (q : Ptr) :
    s.heap.s q ≠ some c := by
  intro stored
  rw [inv.home q c stored] at home
  cases home

private theorem ne_of_unopened (inv : Inv A m s) {i : ι} {c d : Conn}
    (opener : (s.conn c).opener = some i) (unopened : s.nextConn ≤ d) : d ≠ c := by
  rintro rfl
  rw [(inv.freshConn d unopened).1] at opener
  cases opener

/-- A connection changes with its owner and its `sharedSocket` left as they are. -/
theorem setConn (inv : Inv A m s) (c : Conn) (k : Connection ι)
    (opener : k.opener = (s.conn c).opener) (home : k.home = (s.conn c).home)
    (closing : k.closed = false → (s.conn c).closed = false)
    (messages : ∀ d ∈ k.queue, d.origin = none → d.isMessage = true)
    (ready : A.replies → (∀ p, s.heap.s p = some c → s.heap.smu p = none) → k.Ready) :
    Inv A m (s.setConn c k) :=
  { inv with
    quiet := fun free => { inv.quiet free with }
    freshConn := fun d unopened => by
      have before := inv.freshConn d unopened
      by_cases same : d = c
      · subst same
        simpa [State.setConn, opener, home] using before
      · simpa only [State.setConn, Function.update_of_ne same] using before
    home := fun p d stored => by
      have before := inv.home p d stored
      by_cases same : d = c
      · subst same
        simpa [State.setConn, home] using before
      · simpa only [State.setConn, Function.update_of_ne same] using before
    homeLt := fun d p homed => by
      by_cases same : d = c
      · subst same
        simp only [State.setConn, Function.update_self, home] at homed
        exact inv.homeLt d p homed
      · simp only [State.setConn, Function.update_of_ne same] at homed
        exact inv.homeLt d p homed
    current := fun d p homed open' => by
      by_cases same : d = c
      · subst same
        simp only [State.setConn, Function.update_self, home] at homed open'
        exact inv.current d p homed (closing open')
      · simp only [State.setConn, Function.update_of_ne same] at homed open'
        exact inv.current d p homed open'
    messages := fun d => by
      by_cases same : d = c
      · subst same
        simpa [State.setConn] using messages
      · simpa only [State.setConn, Function.update_of_ne same] using inv.messages d
    ready := fun replies d unused => by
      by_cases same : d = c
      · subst same
        simpa [State.setConn] using ready replies unused
      · simpa only [State.setConn, Function.update_of_ne same] using inv.ready replies d unused }

theorem clearSock (inv : Inv A m s) (i : ι) (p : Ptr) (locked : s.heap.smu p = some i)
    (closed : ∀ c, s.heap.s p = some c → (s.conn c).closed = true)
    (ready : A.replies → ∀ c, s.heap.s p = some c → (s.conn c).Ready) :
    Inv A m { s with heap.s := Function.update s.heap.s p none } :=
  { inv with
    quiet := fun free => { inv.quiet free with }
    home := fun q c stored => by
      by_cases same : q = p
      · subst same
        simp at stored
      · simp only [Function.update_of_ne same] at stored
        exact inv.home q c stored
    current := fun c q homed open' => by
      -- The `Socket` taken out is closed, so it is not the one in question.
      have stored := inv.current c q homed open'
      have ne : q ≠ p := by
        rintro rfl
        have shut := closed c stored
        rw [open'] at shut
        cases shut
      simpa only [Function.update_of_ne ne] using stored
    live := fun reopens q lt free => by
      have ne : q ≠ p := by
        rintro rfl
        rw [locked] at free
        cases free
      simpa only [Function.update_of_ne ne] using inv.live reopens q lt free
    ready := fun replies c unused => by
      by_cases stored : s.heap.s p = some c
      · exact ready replies c stored
      · apply inv.ready replies c
        intro q storedAt
        have ne : q ≠ p := by
          rintro rfl
          exact stored storedAt
        apply unused q
        simpa only [Function.update_of_ne ne] using storedAt }

theorem storeSock (inv : Inv A m s) (i : ι) (p : Ptr) (c : Conn) (locked : s.heap.smu p = some i)
    (known : p < s.next) (empty : s.heap.s p = none) (opener : (s.conn c).opener = some i)
    (home : (s.conn c).home = none) :
    Inv A m { s with
      heap.s := Function.update s.heap.s p (some c)
      conn := Function.update s.conn c { s.conn c with home := some p } } := by
  have unstored := inv.unstored home
  exact { inv with
    quiet := fun free => { inv.quiet free with }
    freshConn := fun d unopened => by
      simpa only [Function.update_of_ne (inv.ne_of_unopened opener unopened)] using
        inv.freshConn d unopened
    home := fun q d stored => by
      by_cases same : q = p
      · subst same
        simp only [Function.update_self, Option.some.injEq] at stored
        simp [← stored]
      · simp only [Function.update_of_ne same] at stored
        have ne : d ≠ c := by
          rintro rfl
          exact unstored q stored
        simpa only [Function.update_of_ne ne] using inv.home q d stored
    homeLt := fun d q homed => by
      by_cases same : d = c
      · subst same
        simp only [Function.update_self, Option.some.injEq] at homed
        subst homed
        exact known
      · simp only [Function.update_of_ne same] at homed
        exact inv.homeLt d q homed
    current := fun d q homed open' => by
      by_cases same : d = c
      · subst same
        simp only [Function.update_self, Option.some.injEq] at homed
        subst homed
        exact Function.update_self ..
      · simp only [Function.update_of_ne same] at homed open'
        have stored := inv.current d q homed open'
        have ne : q ≠ p := by
          rintro rfl
          rw [empty] at stored
          cases stored
        simpa only [Function.update_of_ne ne] using stored
    live := fun reopens q lt free => by
      by_cases same : q = p
      · simp [same]
      · simpa only [Function.update_of_ne same] using inv.live reopens q lt free
    messages := fun d => by
      by_cases same : d = c
      · subst same
        simpa using inv.messages d
      · simpa only [Function.update_of_ne same] using inv.messages d
    ready := fun replies d unused => by
      by_cases same : d = c
      · subst same
        -- The stored connection is in use until `smu` is released.
        have free := unused p (by simp)
        rw [locked] at free
        cases free
      · simp only [Function.update_of_ne same]
        apply inv.ready replies d
        intro q stored
        apply unused q
        have ne : q ≠ p := by
          rintro rfl
          rw [empty] at stored
          cases stored
        simpa only [Function.update_of_ne ne] using stored }

theorem openSock (inv : Inv A m s) (i : ι) :
    Inv A m { s.setConn s.nextConn ⟨some i, none, false, 0, 0, [], []⟩ with
      nextConn := s.nextConn + 1 } := by
  have unstored : ∀ p c, s.heap.s p = some c → c ≠ s.nextConn := by
    rintro p c stored rfl
    exact inv.unstored (inv.freshConn s.nextConn le_rfl).2 p stored
  exact { inv with
    quiet := fun free => { inv.quiet free with }
    freshConn := fun d unopened => by
      have later : s.nextConn + 1 ≤ d := unopened
      have ne : d ≠ s.nextConn := (Nat.lt_of_succ_le later).ne'
      simpa only [State.setConn, Function.update_of_ne ne] using
        inv.freshConn d (Nat.le_of_succ_le later)
    home := fun p d stored => by
      simpa only [State.setConn, Function.update_of_ne (unstored p d stored)] using
        inv.home p d stored
    homeLt := fun d p homed => by
      by_cases same : d = s.nextConn
      · subst same
        simp [State.setConn] at homed
      · simp only [State.setConn, Function.update_of_ne same] at homed
        exact inv.homeLt d p homed
    current := fun d p homed open' => by
      by_cases same : d = s.nextConn
      · subst same
        simp [State.setConn] at homed
      · simp only [State.setConn, Function.update_of_ne same] at homed open'
        exact inv.current d p homed open'
    messages := fun d => by
      by_cases same : d = s.nextConn
      · subst same
        simp [State.setConn]
      · simpa only [State.setConn, Function.update_of_ne same] using inv.messages d
    ready := fun replies d unused => by
      by_cases same : d = s.nextConn
      · subst same
        simp only [State.setConn, Function.update_self]
        exact ⟨le_rfl, fun _ => rfl⟩
      · simpa only [State.setConn, Function.update_of_ne same] using inv.ready replies d unused }

section
variable [DecidableEq ι]

theorem new (inv : Inv A m s) (i : ι) (name : GoString) (c : Conn) (locked : s.mu = some i)
    (call : s.call i = some (.get name)) (taken : s.taken i = s.held i)
    (missing : A.evicts → ∀ q < s.next, s.heap.name q ≠ name)
    (opener : (s.conn c).opener = some i) (home : (s.conn c).home = none) (s' : State ι)
    (made : s.exec i (.new name (Path.join m.hostapdDir name) m.clientDir c) .go =
      some (s.next, s')) : Inv A m s' := by
  cases made
  have free := inv.fresh s.next le_rfl
  have unstored := inv.unstored home
  -- Whatever is held or in the map is cached, so the new address is none of these.
  have uncached : ∀ q, s.heap.cached q = true → q ≠ s.next := by
    rintro q flag rfl
    rw [free.2.1] at flag
    cases flag
  exact {
    refs := fun q => by
      have counted := sum_count_update s.taken i (s.next :: s.taken i) q
      have before := inv.refs q
      by_cases same : q = s.next
      · subst same
        simp only [Function.update_self, List.count_cons_self] at counted ⊢
        omega
      · simp only [Function.update_of_ne same, List.count_cons_of_ne (Ne.symm same)] at counted ⊢
        omega
    handles := inv.handles_update i (s.next :: s.taken i) _ rfl rfl rfl (by
      simp only [Accounted, call, Function.update_self]
      exact .inr ⟨s.next, by rw [taken]⟩)
    fresh := fun q unallocated => by
      have later : s.next + 1 ≤ q := unallocated
      have ne : q ≠ s.next := (Nat.lt_of_succ_le later).ne'
      simpa only [Function.update_of_ne ne] using inv.fresh q (Nat.le_of_succ_le later)
    known := fun j q member => by
      have flag := inv.known j q member
      simpa only [Function.update_of_ne (uncached q flag)] using flag
    entry := fun k q found => by
      have before := inv.entry k q found
      simpa only [Function.update_of_ne (uncached q before.1)] using before
    unique := fun evicts p ltp q ltq same => by
      have old : ∀ r : Ptr, r < s.next + 1 → r ≠ s.next → r < s.next := fun r lt ne =>
        lt_of_le_of_ne (Nat.lt_succ_iff.mp lt) ne
      have other : ∀ r : Ptr, r < s.next + 1 → r ≠ s.next →
          Function.update s.heap.name s.next name r ≠ name := by
        intro r lt ne
        rw [Function.update_of_ne ne]
        exact missing evicts r (old r lt ne)
      have same' : Function.update s.heap.name s.next name p =
        Function.update s.heap.name s.next name q := same
      -- One new and one old have different names, since the name was missing.
      by_cases isNew : p = s.next <;> by_cases isNew' : q = s.next
      · rw [isNew, isNew']
      · rw [isNew, Function.update_self] at same'
        exact absurd same'.symm (other q ltq isNew')
      · rw [isNew', Function.update_self] at same'
        exact absurd same' (other p ltp isNew)
      · rw [Function.update_of_ne isNew, Function.update_of_ne isNew'] at same'
        exact inv.unique evicts p (old p ltp isNew) q (old q ltq isNew') same'
    device := fun q lt => by
      have bound : q < s.next + 1 := lt
      by_cases same : q = s.next
      · subst same
        simp
      · have before := inv.device q (lt_of_le_of_ne (Nat.lt_succ_iff.mp bound) same)
        simpa only [Function.update_of_ne same] using before
    quiet := fun unlocked => quiet_of_locked locked unlocked
    freshConn := fun d unopened => by
      simpa only [Function.update_of_ne (inv.ne_of_unopened opener unopened)] using
        inv.freshConn d unopened
    home := fun q d stored => by
      by_cases same : q = s.next
      · subst same
        simp only [Function.update_self, Option.some.injEq] at stored
        simp [← stored]
      · simp only [Function.update_of_ne same] at stored
        have ne : d ≠ c := by
          rintro rfl
          exact unstored q stored
        simpa only [Function.update_of_ne ne] using inv.home q d stored
    homeLt := fun d q homed => by
      by_cases same : d = c
      · subst same
        simp only [Function.update_self, Option.some.injEq] at homed
        subst homed
        exact Nat.lt_succ_self _
      · simp only [Function.update_of_ne same] at homed
        exact lt_trans (inv.homeLt d q homed) (Nat.lt_succ_self _)
    current := fun d q homed open' => by
      by_cases same : d = c
      · subst same
        simp only [Function.update_self, Option.some.injEq] at homed
        subst homed
        exact Function.update_self ..
      · simp only [Function.update_of_ne same] at homed open'
        have ne : q ≠ s.next := (inv.homeLt d q homed).ne
        simpa only [Function.update_of_ne ne] using inv.current d q homed open'
    live := fun reopens q lt free => by
      have bound : q < s.next + 1 := lt
      by_cases same : q = s.next
      · simp [same]
      · simp only [Function.update_of_ne same] at free ⊢
        exact inv.live reopens q (lt_of_le_of_ne (Nat.lt_succ_iff.mp bound) same) free
    messages := fun d => by
      by_cases same : d = c
      · subst same
        simpa using inv.messages d
      · simpa only [Function.update_of_ne same] using inv.messages d
    ready := fun replies d unused => by
      by_cases same : d = c
      · subst same
        have before := inv.ready replies d (fun q stored => absurd stored (unstored q))
        simpa using ⟨before.1, before.2⟩
      · simp only [Function.update_of_ne same]
        apply inv.ready replies d
        intro q stored
        by_cases atNext : q = s.next
        · rw [atNext]
          exact free.2.2.2
        · have stored' : Function.update s.heap.s s.next (some c) q = some d := by
            rwa [Function.update_of_ne atNext]
          simpa only [Function.update_of_ne atNext] using unused q stored' }

end

end Inv

end HostapdGrpc.Socket
