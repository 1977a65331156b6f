import HostapdGrpc.Socket.Life

/-!
# The life cycle of a `sharedSocket`

What each method makes of the fields, and from it when the `Socket` is closed.
-/

namespace HostapdGrpc.Socket

open Go Interaction

/-! ### What the methods do to the two owners -/

namespace Cell

def inc (x : Cell) : Cell := if x.closed then x else { x with refs := x.refs + 1 }

def cache (x : Cell) : Cell := if x.closed then x else { x with cached := true }

/-- The `Socket` goes when neither owner is left. -/
def drop (x : Cell) : Cell := if x.closed then { x with s := none } else x

def uncache (x : Cell) : Cell := if x.cached then drop { x with cached := false } else x

def close (x : Cell) : Cell := if x.refs = 0 then x else drop { x with refs := x.refs - 1 }

/-- Between calls the locks are free, and the `Socket` is there as long as there is an owner. -/
structure Sound (x : Cell) : Prop where
  fmu : x.fmu = none
  smu : x.smu = none
  stored : x.s = none ↔ x.closed = true

theorem Sound.socket {x : Cell} (sound : x.Sound) (owned : x.closed = false) :
    ∃ c, x.s = some c :=
  Option.ne_none_iff_exists'.mp (mt sound.stored.mp (ne_true_of_eq_false owned))

/-- How often the `Socket` has been closed for good -/
def gone (x : Cell) : Nat := if x.closed then 1 else 0

theorem inc_frame (x : Cell) : x.inc.fmu = x.fmu ∧ x.inc.smu = x.smu ∧ x.inc.s = x.s ∧
    x.inc.closed = x.closed := by
  unfold inc
  cases ended : x.closed with
  | true => exact ⟨rfl, rfl, rfl, ended⟩
  | false => exact ⟨rfl, rfl, rfl, by simp [closed]⟩

theorem cache_frame (x : Cell) : x.cache.fmu = x.fmu ∧ x.cache.smu = x.smu ∧ x.cache.s = x.s ∧
    x.cache.closed = x.closed := by
  unfold cache
  cases ended : x.closed with
  | true => exact ⟨rfl, rfl, rfl, ended⟩
  | false => exact ⟨rfl, rfl, rfl, by simp [closed]⟩

theorem uncache_closed (x : Cell) : x.uncache.closed = (x.refs == 0) := by
  unfold uncache drop
  cases flag : x.cached with
  | false => simp [closed, flag]
  | true =>
    rw [if_pos rfl]
    split <;> simp [closed]

/-- A closed `sharedSocket` stays as it is. -/
theorem closed_stays {x : Cell} (ended : x.closed = true) :
    x.inc = x ∧ x.cache = x ∧ x.uncache = x ∧ x.close = x := by
  have none_left : x.cached = false ∧ x.refs = 0 := by simpa [closed] using ended
  simp [inc, cache, uncache, close, ended, none_left]

theorem drop_of_closed {x : Cell} (ended : x.closed = true) :
    x.drop = { x with s := none } ∧ x.drop.gone = 1 := by
  have dropped : x.drop = { x with s := none } := if_pos ended
  refine ⟨dropped, ?_⟩
  rw [dropped]
  exact if_pos ended

theorem drop_of_owned {x : Cell} (owned : x.closed = false) : x.drop = x ∧ x.gone = 0 :=
  ⟨if_neg (ne_true_of_eq_false owned), if_neg (ne_true_of_eq_false owned)⟩

theorem gone_congr {x y : Cell} (same : x.closed = y.closed) : x.gone = y.gone := by
  unfold gone
  rw [same]

/-- The last owner lets go of the `Socket` that it had. -/
theorem Sound.drop {x : Cell} (fmu : x.fmu = none) (smu : x.smu = none) (stored : x.s ≠ none) :
    x.drop.Sound := by
  unfold Cell.drop
  cases ended : x.closed with
  | true => exact ⟨fmu, smu, iff_of_true rfl ended⟩
  | false => exact ⟨fmu, smu, iff_of_false stored (by simp [ended])⟩

theorem Sound.congr {x y : Cell} (sound : x.Sound)
    (same : y.fmu = x.fmu ∧ y.smu = x.smu ∧ y.s = x.s ∧ y.closed = x.closed) : y.Sound := by
  obtain ⟨fmu, smu, sock, closed⟩ := same
  exact ⟨fmu.trans sound.fmu, smu.trans sound.smu, by rw [sock, closed]; exact sound.stored⟩

theorem Sound.uncache {x : Cell} (sound : x.Sound) : x.uncache.Sound := by
  unfold Cell.uncache
  cases flag : x.cached with
  | false => exact sound
  | true =>
    have owned : x.closed ≠ true := by simp [Cell.closed, flag]
    exact .drop sound.fmu sound.smu (mt sound.stored.mp owned)

theorem Sound.close {x : Cell} (sound : x.Sound) : x.close.Sound := by
  unfold Cell.close
  split
  · exact sound
  next referenced =>
    have owned : x.closed ≠ true := by simp [Cell.closed, referenced]
    exact .drop sound.fmu sound.smu (mt sound.stored.mp owned)

end Cell

/-! ### The methods -/

variable {p : Ptr} {f : Method} {e x : Cell} {n : Nat} {o : Option Conn}

namespace SharedSocket

theorem testClosed_life : lifeLogic.Triple () (During p f e n o x) (testClosed p) fun b s =>
    b = x.closed ∧ During p f e n o x s := by
  apply Logic.Triple.bind_eq readCached
  cases flag : x.cached with
  | true =>
    exact Logic.Triple.ret _ fun s _ h => ⟨by simp [Cell.closed, flag], h⟩
  | false =>
    apply Logic.Triple.bind_eq readRefs
    exact Logic.Triple.ret _ fun s _ h => ⟨by simp [Cell.closed, flag], h⟩

variable {smu : Option Unit} {refs : Nat} {cached : Bool} {sock : Option Conn}

/-- A method begins with `fmu` and the test. -/
private theorem tested_life {α : Type} {k : Bool → Act α} {Q : α → Life → Prop}
    (rest : lifeLogic.Triple () (During p f e n o ⟨some (), smu, refs, cached, sock⟩)
      (k (Cell.closed ⟨none, smu, refs, cached, sock⟩)) Q) :
    lifeLogic.Triple () (During p f e n o ⟨none, smu, refs, cached, sock⟩)
      (do
        act (.lock (.fmu p))
        let closed ← testClosed p
        k closed) Q :=
  Logic.Triple.bind_eq lockFmu (Logic.Triple.bind_eq testClosed_life rest)

/-- A method ends with the release of `fmu`. -/
private theorem released_life {α : Type} (a : α) :
    lifeLogic.Triple () (During p f e n o ⟨some (), smu, refs, cached, sock⟩)
      (do
        act (.unlock (.fmu p))
        pure a)
      fun b s => b = a ∧ During p f e n o ⟨none, smu, refs, cached, sock⟩ s :=
  Logic.Triple.bind_eq unlockFmu (Logic.Triple.ret _ fun _ _ h => ⟨rfl, h⟩)

theorem inc_life (sound : x.Sound) : lifeLogic.Triple () (During p f e n o x) (inc p) fun b s =>
    b = x.closed ∧ During p f e n o x.inc s := by
  obtain ⟨fmu, smu, refs, cached, sock⟩ := x
  obtain rfl : fmu = none := sound.fmu
  apply tested_life
  cases ended : Cell.closed ⟨none, smu, refs, cached, sock⟩ with
  | true =>
    rw [Cell.inc, if_pos ended]
    exact released_life true
  | false =>
    rw [Cell.inc, if_neg (ne_true_of_eq_false ended)]
    apply Logic.Triple.bind_eq incRefs
    exact released_life false

theorem cache_life (sound : x.Sound) : lifeLogic.Triple () (During p f e n o x) (cache p)
    fun b s => b = x.closed ∧ During p f e n o x.cache s := by
  obtain ⟨fmu, smu, refs, cached, sock⟩ := x
  obtain rfl : fmu = none := sound.fmu
  apply tested_life
  cases ended : Cell.closed ⟨none, smu, refs, cached, sock⟩ with
  | true =>
    rw [Cell.cache, if_pos ended]
    exact released_life true
  | false =>
    rw [Cell.cache, if_neg (ne_true_of_eq_false ended)]
    apply Logic.Triple.bind_eq (setCached true)
    exact released_life false

/-- The last owner has let go. -/
private theorem closeUnderlying_life {c : Conn}
    (releases : f.releases = true) (last : Cell.closed ⟨none, none, refs, cached, none⟩ = true)
    (owned : e.closed = false) (stored : some c = e.s) :
    lifeLogic.Triple () (During p f e 0 o ⟨some (), none, refs, cached, some c⟩)
      (closeUnderlying p) fun _ s => During p f e 1 none ⟨none, none, refs, cached, none⟩ s := by
  apply Logic.Triple.bind_eq lockSmu
  apply Logic.Triple.bind_eq readSock
  apply Logic.Triple.bind_eq (setSock none)
  have closing := closeSock (p := p) (f := f) (o := o)
    (x := ⟨some (), some (), refs, cached, none⟩) fun _ => ⟨last, owned, stored, rfl⟩
  rw [if_pos releases] at closing
  apply Logic.Triple.bind closing
  intro err
  apply Logic.Triple.bind_eq unlockSmu
  exact (released_life err).weaken (fun _ _ h => h) fun _ _ _ h => h.2

theorem close_life (releases : f.releases = true) (sound : e.Sound) :
    lifeLogic.Triple () (During p f e e.gone e.s e) (close p) fun err s =>
      (e.refs = 0 → err = some closedTwice) ∧ During p f e e.close.gone e.close.s e.close s := by
  obtain ⟨fmu, smu, refs, cached, sock⟩ := e
  obtain rfl : fmu = none := sound.fmu
  obtain rfl : smu = none := sound.smu
  apply Logic.Triple.bind_eq lockFmu
  apply Logic.Triple.bind_eq readRefs
  by_cases unreferenced : refs = 0
  · subst unreferenced
    rw [if_pos (beq_self_eq_true 0)]
    exact (released_life _).weaken (fun _ _ h => h) fun _ _ _ h => ⟨fun _ => h.1, h.2⟩
  · rw [if_neg (by simpa using unreferenced), Cell.close, if_neg unreferenced]
    have owned : Cell.closed ⟨none, none, refs, cached, sock⟩ = false := by
      simp [Cell.closed, unreferenced]
    obtain ⟨c, rfl⟩ : ∃ c, sock = some c := sound.socket owned
    rw [(Cell.drop_of_owned owned).2]
    apply Logic.Triple.bind_eq decRefs
    apply Logic.Triple.bind_eq readRefs
    -- The fields are those of `drop` before it, with `fmu` still held.
    cases ended : Cell.closed ⟨none, none, refs - 1, cached, some c⟩ with
    | true =>
      obtain ⟨rfl, last⟩ : cached = false ∧ refs - 1 = 0 := by simpa [Cell.closed] using ended
      obtain ⟨dropped, once⟩ := Cell.drop_of_closed ended
      rw [if_pos (by simpa using last), once, dropped]
      apply Logic.Triple.bind_eq readCached
      exact (closeUnderlying_life releases ended owned rfl).weaken (fun _ _ h => h)
        fun _ _ _ h => ⟨fun none_left => absurd none_left unreferenced, h⟩
    | false =>
      obtain ⟨kept, never⟩ := Cell.drop_of_owned ended
      rw [kept, never]
      have released : lifeLogic.Triple ()
          (During p f ⟨none, none, refs, cached, some c⟩ 0 (some c)
            ⟨some (), none, refs - 1, cached, some c⟩)
          (do
            act (.unlock (.fmu p))
            pure none)
          fun err s => (refs = 0 → err = some closedTwice) ∧
            During p f ⟨none, none, refs, cached, some c⟩ 0 (some c)
              ⟨none, none, refs - 1, cached, some c⟩ s :=
        (released_life none).weaken (fun _ _ h => h) fun _ _ _ h =>
          ⟨fun none_left => absurd none_left unreferenced, h.2⟩
      by_cases last : refs - 1 = 0
      -- The cache still owns it.
      · obtain rfl : cached = true := by simpa [Cell.closed, last] using ended
        rw [if_pos (by simpa using last)]
        exact Logic.Triple.bind_eq readCached released
      · rw [if_neg (by simpa using last)]
        exact released

theorem uncache_life (releases : f.releases = true) (sound : e.Sound) :
    lifeLogic.Triple () (During p f e e.gone e.s e) (uncache p) fun r s =>
      r.1 = (e.refs == 0) ∧ During p f e e.uncache.gone e.uncache.s e.uncache s := by
  obtain ⟨fmu, smu, refs, cached, sock⟩ := e
  obtain rfl : fmu = none := sound.fmu
  obtain rfl : smu = none := sound.smu
  apply Logic.Triple.bind_eq lockFmu
  apply Logic.Triple.bind_eq readCached
  cases cached with
  | false =>
    apply Logic.Triple.bind_eq readRefs
    exact (released_life _).weaken (fun _ _ h => h) fun _ _ _ h => ⟨congrArg Prod.fst h.1, h.2⟩
  | true =>
    rw [Cell.uncache, if_pos rfl]
    have owned : Cell.closed ⟨none, none, refs, true, sock⟩ = false := rfl
    obtain ⟨c, rfl⟩ : ∃ c, sock = some c := sound.socket owned
    rw [(Cell.drop_of_owned owned).2]
    apply Logic.Triple.bind_eq (setCached false)
    apply Logic.Triple.bind_eq readRefs
    cases ended : Cell.closed ⟨none, none, refs, false, some c⟩ with
    | true =>
      obtain rfl : refs = 0 := by simpa [Cell.closed] using ended
      obtain ⟨dropped, once⟩ := Cell.drop_of_closed ended
      rw [if_pos (beq_self_eq_true 0), once, dropped]
      apply Logic.Triple.bind (closeUnderlying_life releases ended owned rfl)
      exact fun err => Logic.Triple.ret _ fun _ _ h => ⟨rfl, h⟩
    | false =>
      have referenced : (refs == 0) = false := by simpa [Cell.closed] using ended
      obtain ⟨kept, never⟩ := Cell.drop_of_owned ended
      rw [if_neg (ne_true_of_eq_false referenced), kept, never, referenced]
      exact (released_life _).weaken (fun _ _ h => h) fun _ _ _ h => ⟨congrArg Prod.fst h.1, h.2⟩

/-! ### Requests -/

private theorem request_life {c : Conn} (text : GoString) :
    lifeLogic.Triple () (During p f e n (some c) x) (WpaCtrl.request (some c) text) fun r s =>
      r.2.2.text.length ≤ State.bufSize ∧ During p f e n (some c) x s := by
  apply Logic.Triple.bind (send text)
  intro sent
  cases sent with
  | error e => exact Logic.Triple.ret _ fun _ _ h => ⟨Nat.zero_le _, h⟩
  | ok id =>
    apply Logic.Triple.bind recv
    intro received
    cases received with
    | reply d => exact Logic.Triple.ret _ fun _ _ h => ⟨h.1 d rfl, h.2⟩
    | timeout => exact Logic.Triple.ret _ fun _ _ h => ⟨Nat.zero_le _, h.2⟩
    | failed e => exact Logic.Triple.ret _ fun _ _ h => ⟨Nat.zero_le _, h.2⟩

private theorem wpaSendRawCmd_life {c : Conn} (text : GoString) :
    lifeLogic.Triple () (During p f e n (some c) x) (WpaCtrl.sendRawCmd (some c) text)
      fun _ s => During p f e n (some c) x s := by
  apply Logic.Triple.bind (request_life text)
  rintro ⟨ret, err, reply⟩
  apply Logic.Triple.assume fun _ _ h => h.1
  intro fits
  by_cases failed : ret ≠ 0
  · simp only [if_pos failed]
    exact Logic.Triple.ret _ fun _ _ h => h.2
  · simp only [if_neg failed, if_neg (not_lt.mpr fits)]
    exact Logic.Triple.ret _ fun _ _ h => h.2

/-- The stored `Socket` is replaced by a new one. -/
private theorem reconnect_life {fmu : Option Unit} {c : Conn} (keeps : f.releases = false) :
    lifeLogic.Triple () (During p f e n o ⟨fmu, smu, refs, cached, some c⟩) (reconnect p)
      fun r s => r = none ∧
        ∃ c', During p f e n (some c') ⟨fmu, smu, refs, cached, some c'⟩ s := by
  have closing := closeSock (p := p) (f := f) (e := e) (n := n) (o := o) (c := c)
    (x := ⟨fmu, smu, refs, cached, some c⟩) fun releases => by cases keeps.symm.trans releases
  rw [if_neg (ne_true_of_eq_false keeps)] at closing
  apply Logic.Triple.bind_eq readSock
  apply Logic.Triple.bind closing
  intro _
  apply Logic.Triple.bind_eq (setSock none)
  apply Logic.Triple.bind readDevice
  rintro ⟨device, clientDir⟩
  apply Logic.Triple.bind (reopen device clientDir)
  intro opened
  apply Logic.Triple.exists
  intro c'
  apply Logic.Triple.assume fun _ _ h => h.1
  rintro rfl
  apply Logic.Triple.bind ((setSock (some c')).weaken (fun _ _ h => h.2) fun _ _ _ h => h.2)
  exact fun _ => Logic.Triple.ret _ fun _ _ h => ⟨rfl, c', h⟩

theorem sendRawCmd_life {c : Conn} (keeps : f.releases = false) (cmd : GoString) :
    lifeLogic.Triple () (During p f e n (some c) ⟨none, none, refs, cached, some c⟩)
      (sendRawCmd p cmd) fun _ s =>
        ∃ c', During p f e n (some c') ⟨none, none, refs, cached, some c'⟩ s := by
  have released : ∀ (r : Except GoError Reply) (c' : Conn), lifeLogic.Triple ()
      (During p f e n (some c') ⟨none, some (), refs, cached, some c'⟩)
      (do
        act (.unlock (.smu p))
        pure r)
      fun _ s => ∃ c', During p f e n (some c') ⟨none, none, refs, cached, some c'⟩ s :=
    fun r c' => Logic.Triple.bind_eq unlockSmu (Logic.Triple.ret _ fun _ _ h => ⟨c', h⟩)
  apply Logic.Triple.bind_eq lockSmu
  apply Logic.Triple.bind_eq readSock
  apply Logic.Triple.bind (wpaSendRawCmd_life cmd)
  intro r
  cases r with
  | ok reply => exact released _ c
  | error err =>
    by_cases dead : isSocketDead err = true
    -- One more request, on the new connection
    · simp only [dead, if_true]
      apply Logic.Triple.bind_eq (reconnect_life keeps)
      apply Logic.Triple.exists
      intro c'
      apply Logic.Triple.bind_eq readSock
      apply Logic.Triple.bind (wpaSendRawCmd_life cmd)
      exact fun r => released r c'
    · simp only [if_neg dead]
      exact released _ c

end SharedSocket

/-! ### Opening -/

/-- In `openShared`, before anything is opened -/
structure Opening (s : Life) : Prop where
  call : ∃ name device clientDir, s.call = some (.openShared name device clientDir)
  sh : s.sh = none
  closings : s.closings = 0

private theorem Opening.stable : lifeLogic.Stable () Opening := fun _ _ _ _ moved h =>
  { call := by
      obtain ⟨name, device, clientDir, call⟩ := h.call
      exact ⟨name, device, clientDir, (congrArg Life.call moved.rest).trans call⟩
    sh := (congrArg Life.sh moved.rest).trans h.sh
    closings := (congrArg Life.closings moved.rest).trans h.closings }

private theorem open_stable (c : Conn) :
    lifeLogic.Stable () fun s => (s.mem.conn c).closed = false :=
  fun _ _ _ _ moved h => (moved.closed c).trans h

/-- Fresh from `openShared`: one reference, not cached -/
def Fresh (p : Ptr) (s : Life) : Prop :=
  ∃ c, Cell.of s.mem.heap p = ⟨none, none, 1, false, some c⟩ ∧ (s.mem.conn c).closed = false

private theorem Fresh.stable (p : Ptr) : lifeLogic.Stable () (Fresh p) := by
  rintro s s' _ _ moved ⟨c, cell, live⟩
  exact ⟨c, (congrArg (fun s => Cell.of s.mem.heap p) moved.rest).trans cell,
    (moved.closed c).trans live⟩

theorem openShared_life (name device clientDir : GoString) :
    lifeLogic.Triple () Opening (openShared name device clientDir) fun r s =>
      Opening s ∧ ∀ p, r = .ok p → Fresh p s := by
  have opening : lifeLogic.Triple () Opening (act (.openSock device clientDir)) fun r s =>
      Opening s ∧ ∀ c, r = .ok c → (s.mem.conn c).closed = false := by
    apply Logic.Triple.perform
    · rintro s _ _ (stuck | ⟨t, same, _⟩)
      · cases stuck .go (reconnects_go _ s)
      · cases same
    · rintro s ch r s' _ h _ done
      obtain ⟨⟨a, t⟩, opened, same⟩ := Option.map_eq_some_iff.mp done
      cases same
      simp only [State.exec] at opened
      split at opened <;> (try split at opened) <;> cases opened
      · refine ⟨trivial, ⟨h.call, h.sh, h.closings⟩, ?_⟩
        rintro c ⟨⟩
        simp [State.setConn]
      · exact ⟨trivial, ⟨h.call, h.sh, h.closings⟩, by rintro _ ⟨⟩⟩
    · intro r s s' inv inv' moved h
      exact ⟨Opening.stable s s' inv inv' moved h.1,
        fun c same => open_stable c s s' inv inv' moved (h.2 c same)⟩
  apply Logic.Triple.bind opening
  intro r
  cases r with
  | error err => exact Logic.Triple.ret _ fun _ _ h => ⟨h.1, by rintro _ ⟨⟩⟩
  | ok c =>
    have new : lifeLogic.Triple () (fun s => Opening s ∧ ∀ d, Except.ok (ε := GoError) c = .ok d →
        (s.mem.conn d).closed = false) (act (.new name device clientDir c)) fun p s =>
          Opening s ∧ Fresh p s := by
      apply Logic.Triple.perform
      · rintro s _ _ (stuck | ⟨t, same, _⟩)
        · cases stuck .go (reconnects_go _ s)
        · cases same
      · rintro s ch p s' _ ⟨h, live⟩ _ done
        cases done
        refine ⟨trivial, ⟨h.call, h.sh, h.closings⟩, c, ?_, ?_⟩
        · simp [Cell.of]
        · simpa using live c rfl
      · exact fun p => Opening.stable.and (Fresh.stable p)
    apply Logic.Triple.bind new
    intro p
    apply Logic.Triple.ret
    rintro s _ ⟨h, fresh⟩
    refine ⟨h, ?_⟩
    rintro _ ⟨⟩
    exact fresh

/-! ### All calls -/

/-- What a call of `f` returns and makes of the fields -/
def Method.Leaves (f : Method) (x : Cell) (r : LifeRes) (y : Cell) : Prop :=
  match f with
  | .inc => r = .closed x.closed ∧ y = x.inc
  | .cache => r = .closed x.closed ∧ y = x.cache
  | .uncache => (∃ err, r = .uncached (x.refs == 0) err) ∧ y = x.uncache
  | .close => (∃ err, r = .done err ∧ (x.refs = 0 → err = some SharedSocket.closedTwice)) ∧
      y = x.close
  | .sendRawCmd _ => x.closed = false ∧ ∃ c, y = { x with s := some c }

/-- `SendRawCmd` is for an open `sharedSocket`. -/
def Method.Applies (f : Method) (x : Cell) : Prop := ∀ cmd, f = .sendRawCmd cmd → x.closed = false

theorem Method.Leaves.sound {r : LifeRes} {y : Cell} (leaves : f.Leaves x r y) (sound : x.Sound) :
    y.Sound := by
  cases f with
  | inc => exact leaves.2 ▸ sound.congr x.inc_frame
  | cache => exact leaves.2 ▸ sound.congr x.cache_frame
  | uncache => exact leaves.2 ▸ sound.uncache
  | close => exact leaves.2 ▸ sound.close
  | sendRawCmd cmd =>
    obtain ⟨owned, c, rfl⟩ := leaves
    exact ⟨sound.fmu, sound.smu, iff_of_false (Option.some_ne_none c) (ne_true_of_eq_false owned)⟩

theorem body_life (sound : x.Sound) (applies : f.Applies x) :
    lifeLogic.Triple () (During p f x x.gone x.s x) (f.body p) fun r s =>
      ∃ y, f.Leaves x r y ∧ During p f x y.gone y.s y s := by
  cases f with
  | inc =>
    apply Logic.Triple.map
    have frame := x.inc_frame
    rw [← Cell.gone_congr frame.2.2.2, ← frame.2.2.1]
    exact (SharedSocket.inc_life sound).weaken (fun _ _ h => h) fun b _ _ h =>
      ⟨_, ⟨congrArg LifeRes.closed h.1, rfl⟩, h.2⟩
  | cache =>
    apply Logic.Triple.map
    have frame := x.cache_frame
    rw [← Cell.gone_congr frame.2.2.2, ← frame.2.2.1]
    exact (SharedSocket.cache_life sound).weaken (fun _ _ h => h) fun b _ _ h =>
      ⟨_, ⟨congrArg LifeRes.closed h.1, rfl⟩, h.2⟩
  | uncache =>
    apply Logic.Triple.map
    exact (SharedSocket.uncache_life rfl sound).weaken (fun _ _ h => h) fun r _ _ h =>
      ⟨_, ⟨⟨r.2, congrArg (LifeRes.uncached · r.2) h.1⟩, rfl⟩, h.2⟩
  | close =>
    apply Logic.Triple.map
    exact (SharedSocket.close_life rfl sound).weaken (fun _ _ h => h) fun err _ _ h =>
      ⟨_, ⟨⟨err, rfl, h.1⟩, rfl⟩, h.2⟩
  | sendRawCmd cmd =>
    apply Logic.Triple.map
    have owned := applies cmd rfl
    obtain ⟨fmu, smu, refs, cached, sock⟩ := x
    obtain rfl : fmu = none := sound.fmu
    obtain rfl : smu = none := sound.smu
    obtain ⟨c, rfl⟩ : ∃ c, sock = some c := sound.socket owned
    apply (SharedSocket.sendRawCmd_life rfl cmd).weaken fun _ _ h => h
    rintro r s _ ⟨c', h⟩
    exact ⟨_, ⟨owned, c', rfl⟩, h⟩

/-- Between calls nothing is opened, or what is opened is sound. -/
def Between (s : Life) : Prop :=
  s.sh = none ∧ s.closings = 0 ∨ ∃ p x, x.Sound ∧ At p x.gone x.s x s

/-- The call of `f` began with the fields `x`. -/
def Begun (p : Ptr) (f : Method) (s : Life) : Prop :=
  ∃ x, x.Sound ∧ f.Applies x ∧ During p f x x.gone x.s x s

/-- The call of `f` comes to its end with `r`. -/
def Done (p : Ptr) (f : Method) (r : LifeRes) (s : Life) : Prop :=
  ∃ x y, x.Sound ∧ f.Leaves x r y ∧ During p f x y.gone y.s y s

/-- The sequences of calls verified -/
def lifeProof : Proof Unit Op Ans Life Choice LifeCall LifeRes where
  toLogic := lifeLogic
  idle _ := Between
  pre _ call s :=
    match call with
    | .openShared _ _ _ => Opening s
    | .method p f => Begun p f s
  post _ call res s :=
    match call with
    | .openShared _ _ _ => Opening s ∧ ∃ r, res = .opened r ∧ ∀ p, r = .ok p → Fresh p s
    | .method p f => Done p f res s
  idle_stable _ := by
    rintro s s' _ _ moved (⟨sh, closings⟩ | ⟨p, x, sound, h⟩)
    · exact .inl ⟨(congrArg Life.sh moved.rest).trans sh,
        (congrArg Life.closings moved.rest).trans closings⟩
    · exact .inr ⟨p, x, sound, h.peers moved⟩
  pre_stable _ call := by
    cases call with
    | openShared name device clientDir => exact Opening.stable
    | method p f =>
      rintro s s' inv inv' moved ⟨x, sound, applies, h⟩
      exact ⟨x, sound, applies, During.stable s s' inv inv' moved h⟩
  start_ok i call s s' _ idle ok started := by
    refine ⟨trivial, ?_, fun j ne => absurd (Subsingleton.elim j i) ne⟩
    have began : s.start call = some s' := started
    cases call with
    | openShared name device clientDir =>
      simp only [Life.start] at began
      split at began
      next unopened =>
        cases began
        rcases idle with ⟨sh, closings⟩ | ⟨p, x, _, h⟩
        · exact ⟨⟨name, device, clientDir, rfl⟩, sh, closings⟩
        · cases unopened.symm.trans h.sh
      · cases began
    | method p f =>
      simp only [Life.start] at began
      split at began
      next opened =>
        cases began
        rcases idle with ⟨sh, _⟩ | ⟨q, x, sound, h⟩
        · cases sh.symm.trans opened
        · obtain rfl : q = p := Option.some.inj (h.sh.symm.trans opened)
          refine ⟨x, sound, ?_, { h with call := rfl, entry := h.cell }⟩
          rintro cmd rfl
          have allowed : (!(Cell.of s.mem.heap q).closed) = true := ok
          rw [h.cell] at allowed
          simpa using allowed
      · cases began
  body_ok _ call := by
    cases call with
    | openShared name device clientDir =>
      apply Logic.Triple.map
      exact (openShared_life name device clientDir).weaken (fun _ _ h => h) fun r _ _ h =>
        ⟨h.1, r, rfl, h.2⟩
    | method p f =>
      apply Logic.Triple.exists
      intro x
      apply Logic.Triple.assume fun _ _ h => h.1
      intro sound
      apply Logic.Triple.assume fun _ _ h => h.2.1
      intro applies
      apply (body_life sound applies).weaken fun _ _ h => h.2.2
      rintro r s _ ⟨y, leaves, h⟩
      exact ⟨x, y, sound, leaves, h⟩
  finish_ok i call res s _ post := by
    refine ⟨trivial, ?_, fun j ne => absurd (Subsingleton.elim j i) ne⟩
    cases call with
    | openShared name device clientDir =>
      obtain ⟨h, r, rfl, fresh⟩ := post
      cases r with
      | error err => exact .inl ⟨h.sh, h.closings⟩
      | ok p =>
        obtain ⟨c, cell, live⟩ := fresh p rfl
        refine .inr ⟨p, ⟨none, none, 1, false, some c⟩, ⟨rfl, rfl, by simp [Cell.closed]⟩, rfl,
          h.closings, cell, ?_⟩
        rintro _ ⟨⟩
        exact live
    | method p f =>
      obtain ⟨x, y, sound, leaves, h⟩ := post
      exact .inr ⟨p, y, leaves.sound sound, { h.toAt with }⟩
  env_ok ch s s' _ moved := by
    obtain ⟨t, peer, rfl⟩ := Option.map_eq_some_iff.mp moved
    obtain ⟨c, k, move, rfl⟩ := peer_cases ch s.mem t peer
    have later : (s.mem.conn c).Later k := .single move
    refine ⟨trivial, fun _ => ⟨rfl, fun d => ?_⟩⟩
    by_cases same : d = c
    · subst same
      simpa [State.setConn] using later.fixed.2.2.1
    · simp [State.setConn, Function.update_of_ne same]

/-! ### Every reachable configuration -/

/-- Between calls the `Socket` is stored as long as there is an owner, and has been closed for good
once there is none. -/
structure Settled (p : Ptr) (s : Life) : Prop where
  stored : s.mem.heap.s p = none ↔ s.mem.heap.refs p = 0 ∧ s.mem.heap.cached p = false
  closings : s.closings = if s.mem.heap.closed p then 1 else 0

/-- What a method returns, and what it does to a closed `sharedSocket` -/
structure Returned (p : Ptr) (f : Method) (r : LifeRes) (s : Life) : Prop extends Settled p s where
  inc_cache : f = .inc ∨ f = .cache → r = .closed (s.mem.heap.closed p)
  uncache : f = .uncache → ∃ err, r = .uncached (s.mem.heap.closed p) err
  absorbing : s.entry.closed = true → Cell.of s.mem.heap p = s.entry ∧
    (f = .close → r = .done (some SharedSocket.closedTwice))

/-- The life cycle of a `sharedSocket` at any point of a sequence of calls -/
structure LifeCycle (c : Config Unit Op Ans Life LifeCall LifeRes) : Prop where
  settled : ∀ p, c.thread () = .idle → c.state.sh = some p → Settled p c.state
  returned : ∀ p f r, c.thread () = .running (.method p f) (.ret r) → Returned p f r c.state
  closing : ∀ p f t k, c.thread () = .running (.method p f) (.call (.closeSock t) k) →
    f.releases = true → LetGo t c.state
  runs : ∀ call op k, c.thread () = .running call (.call op k) →
    ∃ ch, reconnects () op ch c.state = true ∧ (c.state.exec op ch).isSome = true

theorem Cell.Sound.settled {p : Ptr} {x : Cell} {o : Option Conn} {s : Life} (sound : x.Sound)
    (h : At p x.gone o x s) : Settled p s where
  stored := by
    have stored := sound.stored
    rw [← h.cell] at stored
    simpa [Cell.of, Cell.closed, and_comm] using stored
  closings := by
    rw [h.closings, ← h.cell]
    rfl

theorem Done.returned {r : LifeRes} {s : Life} (done : Done p f r s) : Returned p f r s := by
  obtain ⟨x, y, sound, leaves, h⟩ := done
  have closed : s.mem.heap.closed p = y.closed := congrArg Cell.closed h.cell
  have settled := (leaves.sound sound).settled h.toAt
  refine { settled with inc_cache := ?_, uncache := ?_, absorbing := ?_ }
  · rintro (rfl | rfl)
    · rw [closed, leaves.2, x.inc_frame.2.2.2]
      exact leaves.1
    · rw [closed, leaves.2, x.cache_frame.2.2.2]
      exact leaves.1
  · rintro rfl
    rw [closed, leaves.2, x.uncache_closed]
    exact leaves.1
  · rw [h.entry, h.cell]
    intro ended
    obtain ⟨inc, cache, uncache, close⟩ := Cell.closed_stays ended
    cases f with
    | inc => exact ⟨leaves.2.trans inc, by rintro ⟨⟩⟩
    | cache => exact ⟨leaves.2.trans cache, by rintro ⟨⟩⟩
    | uncache => exact ⟨leaves.2.trans uncache, by rintro ⟨⟩⟩
    | close =>
      obtain ⟨err, rfl, refused⟩ := leaves.1
      have unreferenced : x.refs = 0 := by
        simp only [Cell.closed, Bool.and_eq_true, beq_iff_eq] at ended
        exact ended.2
      exact ⟨leaves.2.trans close, fun _ => congrArg LifeRes.done (refused unreferenced)⟩
    | sendRawCmd cmd => cases leaves.1.symm.trans ended

/-- The record says which call is under way. -/
theorem call_of_life {C : Condition Unit Op Life Choice LifeCall} {mem : State Unit} {entry : Cell}
    {c : Config Unit Op Ans Life LifeCall LifeRes} (run : Reach life C (unopened mem entry) c) :
    c.state.call = (c.thread ()).call := by
  induction run with
  | refl => rfl
  | @step c c' l _ _ next ih =>
    cases l with
    | start i call =>
      simp only [System.next] at next
      split at next
      · obtain ⟨s', started, rfl⟩ := Option.map_eq_some_iff.mp next
        have began : c.state.start call = some s' := started
        simp only [Function.update_self, Thread.call]
        cases call <;> simp only [Life.start] at began <;> split at began <;> cases began <;> rfl
      · cases next
    | step i ch =>
      simp only [System.next] at next
      split at next
      next call op k at_op =>
        obtain ⟨r, done, rfl⟩ := Option.map_eq_some_iff.mp next
        obtain ⟨_, _, rfl⟩ := Option.map_eq_some_iff.mp done
        simp only [ih, at_op, Function.update_self, Thread.call]
      · cases next
    | finish i =>
      simp only [System.next] at next
      split at next
      · cases next
        simp only [Function.update_self, Thread.call]
        show (Life.finish _ _ _).call = none
        unfold Life.finish
        split <;> rfl
      · cases next
    | env ch =>
      obtain ⟨s', moved, rfl⟩ := Option.map_eq_some_iff.mp next
      obtain ⟨t, _, rfl⟩ := Option.map_eq_some_iff.mp moved
      exact ih

/-- The `Socket` of a `sharedSocket` is closed once, by the call that lets the last owner go, and
nothing happens to it after that. -/
theorem life_cycle {mem : State Unit} {entry : Cell} {c : Config Unit Op Ans Life LifeCall LifeRes}
    (run : Reach life lifeCondition (unopened mem entry) c) : LifeCycle c := by
  have ok := lifeProof.sound (unopened mem entry) c ⟨trivial, fun _ => .inl ⟨rfl, rfl⟩⟩ run
  refine ⟨?_, ?_, ?_, ?_⟩
  · intro p idle opened
    have between := ok.2 ()
    rw [idle] at between
    rcases between with ⟨sh, _⟩ | ⟨q, x, sound, h⟩
    · cases sh.symm.trans opened
    · obtain rfl : q = p := Option.some.inj (h.sh.symm.trans opened)
      exact sound.settled h
  · intro p f r at_ret
    have done : Done p f r c.state := ok.post at_ret
    exact done.returned
  · intro p f t k at_close releases
    have call : c.state.call = some (.method p f) := by rw [call_of_life run, at_close]; rfl
    have releasing : c.state.releasing = true := by simp only [Life.releasing, call, releases]
    by_contra never
    exact ok.not_bad at_close (.inr ⟨t, rfl, releasing, never⟩)
  · intro call op k at_op
    by_contra stuck
    refine ok.not_bad at_op (.inl fun ch allowed => ?_)
    by_contra can
    exact stuck ⟨ch, allowed, Option.isSome_iff_ne_none.mpr can⟩

/-- The cache lets go last, after the only reference. -/
theorem life_cycle_cached :
    ∃ c, Reach life lifeCondition (unopened State.init ⟨none, none, 0, false, none⟩) c ∧
      c.state.mem.heap.s 0 = none ∧ c.state.closings = 1 ∧ LifeCycle c := by
  obtain ⟨c, run, last⟩ := exists_reach life (unopened State.init ⟨none, none, 0, false, none⟩)
    sendsWhileOpen reconnects
    (uninterrupted () (.openShared (lit "a") (lit "a") []) (List.replicate 2 .go) ++
      uninterrupted () (.method 0 .cache) (List.replicate 5 .go) ++
      uninterrupted () (.method 0 .close) (List.replicate 6 .go) ++
      uninterrupted () (.method 0 .uncache) (List.replicate 10 .go))
    (fun c => c.state.mem.heap.s 0 == none && c.state.closings == 1) (by decide +kernel)
  simp only [Bool.and_eq_true, beq_iff_eq] at last
  exact ⟨c, run, last.1, last.2, life_cycle run⟩

end HostapdGrpc.Socket
