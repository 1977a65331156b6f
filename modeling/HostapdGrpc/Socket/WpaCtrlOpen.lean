import HostapdGrpc.Go.Errors
import HostapdGrpc.Interaction.Program

/-!
# Opening a connection

`wpa_ctrl_open2` as it is built here (UNIX sockets, not Android), and `Open` above it. The
C side reports success by its pointer, the Go side judges it by `errno`.
-/

namespace HostapdGrpc.Socket

open Go Interaction

abbrev Fd := Nat

/-- `struct wpa_ctrl`: its descriptor and the client path it is bound to -/
structure WpaCtrl where
  s : Fd
  localPath : GoString
  deriving DecidableEq

/-! ### System calls -/

inductive SysOp where
  /-- `errno`, and its value set by the C library -/
  | errno
  | setErrno (e : Errno)
  | zalloc
  | socket
  /-- `counter++`, and a read of `counter` -/
  | incCounter
  | counter
  | getpid
  | bind (s : Fd) (path : GoString)
  | unlink (path : GoString)
  | connect (s : Fd) (path : GoString)
  | getFlags (s : Fd)
  | setFlags (s : Fd) (flags : Nat)
  | close (s : Fd)

/-- `false` and `none` are failures, which set `errno`. -/
abbrev SysAns : SysOp → Type
  | .errno => Errno
  | .socket => Option Fd
  | .getFlags _ => Option Nat
  | .zalloc | .bind _ _ | .unlink _ | .connect _ _ | .setFlags _ _ => Bool
  | .counter | .getpid => Int
  | .setErrno _ | .incCounter | .close _ => Unit

abbrev CAct (α : Type) := Prog SysOp SysAns α

def sys (op : SysOp) : CAct (SysAns op) := Prog.perform op

/-! ### Strings -/

/-- What C reads of the copy that `C.CString` makes -/
def cString (s : GoString) : GoString := s.takeWhile (· ≠ 0)

/-- `sizeof(sun_path)` -/
def sunPathSize : Nat := 108

def intMax : Nat := 0x7fffffff

/-- `EOVERFLOW` -/
def eoverflow : Errno := 75

/-- `O_NONBLOCK` -/
def nonblock : Nat := 2048

/-- `os_snprintf` into `sun_path` with the check of its result: `none` if the text does not
fit. That its length is no `int` is an error of the C library. -/
def snprintf (text : GoString) : CAct (Option GoString) := do
  if text.length > intMax then
    sys (.setErrno eoverflow)
    pure none
  else if text.length ≥ sunPathSize then
    pure none
  else
    pure (some text)

/-- The client path -/
def clientPath (cliPath : GoString) (pid counter : Int) : GoString :=
  (if cliPath.head? = some 47 then cliPath else lit "/tmp") ++
    lit "/wpa_ctrl_" ++ itoaInt pid ++ lit "-" ++ itoaInt counter

/-- `os_strlcpy` into `size` bytes: what is copied, and the length of the source -/
def strlcpy (src : GoString) (size : Nat) : GoString × Nat := (src.take (size - 1), src.length)

/-- The peer's path: a name after `@abstract:` is cut to its size, a path that does not fit
is refused. -/
def destPath (ctrlPath : GoString) : Option GoString :=
  if (lit "@abstract:").isPrefixOf ctrlPath then
    some (0 :: (strlcpy (ctrlPath.drop 10) (sunPathSize - 1)).1)
  else
    let (path, len) := strlcpy ctrlPath sunPathSize
    if len ≥ sunPathSize then none else some path

/-! ### `wpa_ctrl_open2` and `Open` -/

/-- From `try_again` to the end of the error branch of `bind`; `retries` is `2 - tries`
after the increment. -/
def tryBind (s : Fd) (cliPath : GoString) (retries : Nat) : CAct (Option GoString) := do
  let pid ← sys .getpid
  let counter ← sys .counter
  match ← snprintf (clientPath cliPath pid counter) with
  | none => pure none
  | some path =>
    if ← sys (.bind s path) then
      pure (some path)
    else
      let errno ← sys .errno
      match retries with
      | 0 => pure none
      -- The client path is in use: remove it and try again, once.
      | retries + 1 =>
        if errno = Errno.eaddrinuse then
          let _ ← sys (.unlink path)
          tryBind s cliPath retries
        else
          pure none

/-- Neither argument is `NULL`, since both come from `C.CString`. -/
def wpaCtrlOpen2 (ctrlPath cliPath : GoString) : CAct (Option WpaCtrl) := do
  if ← sys .zalloc then
    match ← sys .socket with
    | none => pure none
    | some s =>
      sys .incCounter
      match ← tryBind s cliPath 1 with
      | none =>
        sys (.close s)
        pure none
      | some localPath =>
        match destPath ctrlPath with
        | none =>
          sys (.close s)
          pure none
        | some dest =>
          if ← sys (.connect s dest) then
            match ← sys (.getFlags s) with
            | some flags =>
              -- The result of F_SETFL is only printed.
              let _ ← sys (.setFlags s (flags ||| nonblock))
              pure (some ⟨s, localPath⟩)
            | none => pure (some ⟨s, localPath⟩)
          else
            sys (.close s)
            let _ ← sys (.unlink localPath)
            pure none
  else
    pure none

/-- The two-result call of `wpa_ctrl_open2` from Go: `errno` is cleared before it. -/
def callOpen2 (device clientDir : GoString) : CAct (Option WpaCtrl × Errno) := do
  sys (.setErrno 0)
  let ctrl ← wpaCtrlOpen2 (cString device) (cString clientDir)
  let errno ← sys .errno
  pure (ctrl, errno)

/-- What `Open` makes of it; `ok none` is a `Socket` that wraps `NULL`. -/
def openResult (r : Option WpaCtrl × Errno) : Except GoError (Option WpaCtrl) :=
  if r.2 ≠ 0 then .error (.errno r.2) else .ok r.1

/-- `Open` -/
def openSocket (device clientDir : GoString) : CAct (Except GoError (Option WpaCtrl)) :=
  openResult <$> callOpen2 device clientDir

/-! ### Every outcome of the system calls -/

/-- An `errno` that a failing call sets -/
abbrev Failure := {e : Errno // e ≠ 0}

/-- The outcomes of the calls made by one `Open`; `none` is success. The `bind`s and
`unlink`s are numbered. -/
structure Outcomes where
  zalloc : Option Failure
  socket : Option Failure
  bind : Nat → Option Failure
  unlink : Nat → Option Failure
  connect : Option Failure
  getFlags : Option Failure
  setFlags : Option Failure
  fd : Fd
  flags : Nat
  pid : Int
  counter : Int

/-- The thread's `errno`, the descriptors one `Open` has open, the paths it has bound, and
how many calls it has made. -/
structure Footprint where
  errno : Errno
  fds : List Fd
  paths : List GoString
  binds : Nat
  unlinks : Nat

namespace Footprint

def empty : Footprint := ⟨0, [], [], 0, 0⟩

/-- A failing call sets `errno`; a succeeding one leaves it alone. -/
def after (w : Footprint) (failure : Option Failure) : Footprint :=
  match failure with
  | none => w
  | some e => { w with errno := e.val }

def bound (w : Footprint) (failure : Option Failure) (path : GoString) : Footprint :=
  match failure with
  | none => { w with paths := path :: w.paths, binds := w.binds + 1 }
  | some e => { w with errno := e.val, binds := w.binds + 1 }

def unlinked (w : Footprint) (failure : Option Failure) (path : GoString) : Footprint :=
  match failure with
  | none => { w with paths := w.paths.erase path, unlinks := w.unlinks + 1 }
  | some e => { w with errno := e.val, unlinks := w.unlinks + 1 }

end Footprint

def Outcomes.handle (o : Outcomes) (op : SysOp) (w : Footprint) : SysAns op × Footprint :=
  match op with
  | .errno => (w.errno, w)
  | .setErrno e => ((), { w with errno := e })
  | .zalloc => (o.zalloc.isNone, w.after o.zalloc)
  | .socket =>
    match o.socket with
    | none => (some o.fd, { w with fds := o.fd :: w.fds })
    | some e => (none, w.after (some e))
  | .incCounter => ((), w)
  | .counter => (o.counter, w)
  | .getpid => (o.pid, w)
  | .bind _ path => ((o.bind w.binds).isNone, w.bound (o.bind w.binds) path)
  | .unlink path => ((o.unlink w.unlinks).isNone, w.unlinked (o.unlink w.unlinks) path)
  | .connect _ _ => (o.connect.isNone, w.after o.connect)
  | .getFlags _ => (if o.getFlags.isNone then some o.flags else none, w.after o.getFlags)
  | .setFlags _ _ => (o.setFlags.isNone, w.after o.setFlags)
  | .close s => ((), { w with fds := w.fds.erase s })

/-- What one `Open` is to do: a nil error for a connection and nothing else, and after an
error no descriptor and no client path left. -/
structure OpensCleanly (ctrl : Option WpaCtrl) (r : Except GoError (Option WpaCtrl))
    (w : Footprint) : Prop where
  nilError : (∃ s, r = .ok s) ↔ ctrl ≠ none
  wraps : r ≠ .ok none
  clean : ∀ err, r = .error err → w.fds = [] ∧ w.paths = []

/-! ### When `Open` does what it is to do -/

namespace Outcomes

/-- `bind` fails for good: not with `EADDRINUSE`, or twice. -/
def BindFails (o : Outcomes) : Prop :=
  ∃ e, o.bind 0 = some e ∧ (e.val ≠ Errno.eaddrinuse ∨ o.bind 1 ≠ none)

/-- The `unlink` after a failing `connect` comes second if the one of the retry came first. -/
def lastUnlink (o : Outcomes) : Option Failure := o.unlink (if o.bind 0 = none then 0 else 1)

/-- No memory or socket; or a client path whose length is no `int`; or a client path that
fits, and then either no `bind`, or a device path that fits and either a failing `connect`
cleaned up after, or no failure at all, not even of a call made again. -/
def Fine (o : Outcomes) (device clientDir : GoString) : Prop :=
  let path := clientPath (cString clientDir) o.pid o.counter
  o.zalloc ≠ none ∨ o.socket ≠ none ∨ intMax < path.length ∨
    path.length < sunPathSize ∧
      (o.BindFails ∨ destPath (cString device) ≠ none ∧
        (o.connect ≠ none ∧ o.lastUnlink = none ∨
          o.bind 0 = none ∧ o.connect = none ∧ o.getFlags = none ∧ o.setFlags = none))

end Outcomes

section
variable (o : Outcomes) (s : Fd) (device cli : GoString) (w : Footprint)

private theorem snprintf_long {text : GoString} (long : sunPathSize ≤ text.length) :
    Prog.eval o.handle (snprintf text) w =
      (none, if intMax < text.length then { w with errno := eoverflow } else w) := by
  by_cases huge : intMax < text.length <;> simp [snprintf, sys, Outcomes.handle, huge, long]

private theorem snprintf_fits {text : GoString} (fits : text.length < sunPathSize) :
    Prog.eval o.handle (snprintf text) w = (some text, w) := by
  have small : ¬intMax < text.length := by
    simp only [sunPathSize, intMax] at *
    omega
  simp [snprintf, small, Nat.not_le.mpr fits]

private theorem tryBind_long (n : Nat)
    (long : sunPathSize ≤ (clientPath cli o.pid o.counter).length) :
    Prog.eval o.handle (tryBind s cli n) w =
      (none, if intMax < (clientPath cli o.pid o.counter).length then
        { w with errno := eoverflow } else w) := by
  unfold tryBind
  simp [sys, Outcomes.handle, snprintf_long o _ long]

/-- One turn of the loop with a path that fits -/
private theorem tryBind_fits (n : Nat)
    (fits : (clientPath cli o.pid o.counter).length < sunPathSize) :
    Prog.eval o.handle (tryBind s cli n) w =
      match o.bind w.binds, n with
      | none, _ => (some (clientPath cli o.pid o.counter),
          w.bound none (clientPath cli o.pid o.counter))
      | some e, 0 => (none, w.bound (some e) (clientPath cli o.pid o.counter))
      | some e, n + 1 =>
        if e.val = Errno.eaddrinuse then
          Prog.eval o.handle (tryBind s cli n)
            ((w.bound (some e) (clientPath cli o.pid o.counter)).unlinked (o.unlink w.unlinks)
              (clientPath cli o.pid o.counter))
        else (none, w.bound (some e) (clientPath cli o.pid o.counter)) := by
  rw [tryBind]
  cases bound : o.bind w.binds with
  | none => simp [sys, Outcomes.handle, snprintf_fits o _ fits, bound]
  | some e =>
    cases n with
    | zero => simp [sys, Outcomes.handle, snprintf_fits o _ fits, bound]
    | succ n =>
      by_cases inUse : e.val = Errno.eaddrinuse <;>
        simp [sys, Outcomes.handle, snprintf_fits o _ fits, bound, Footprint.bound, inUse]

/-- The footprint when `bind` is reached: `errno` is clear, and the descriptor is open. -/
private def opened : Footprint := ⟨0, [s], [], 0, 0⟩

/-- The footprint when the client path is free for the second `bind` -/
private def retried (e : Failure) : Footprint :=
  ((opened s).bound (some e) (clientPath cli o.pid o.counter)).unlinked (o.unlink 0)
    (clientPath cli o.pid o.counter)

private theorem retried_spec (e : Failure) :
    (retried o s cli e).errno ≠ 0 ∧ (retried o s cli e).fds = [s] ∧
      (retried o s cli e).paths = [] ∧ (retried o s cli e).binds = 1 ∧
      (retried o s cli e).unlinks = 1 := by
  cases removed : o.unlink 0 with
  | none => simp [retried, removed, opened, Footprint.bound, Footprint.unlinked, e.property]
  | some e' => simp [retried, removed, opened, Footprint.bound, Footprint.unlinked, e'.property]

private theorem tryBind_fails (fits : (clientPath cli o.pid o.counter).length < sunPathSize)
    (fails : o.BindFails) :
    ∃ w, Prog.eval o.handle (tryBind s cli 1) (opened s) = (none, w) ∧
      w.errno ≠ 0 ∧ w.fds = [s] ∧ w.paths = [] := by
  obtain ⟨e, first, why⟩ := fails
  rw [tryBind_fits o s cli _ 1 fits]
  simp only [opened, first]
  by_cases inUse : e.val = Errno.eaddrinuse
  · obtain ⟨e', second⟩ := Option.ne_none_iff_exists'.mp (why.resolve_left (not_not.mpr inUse))
    obtain ⟨_, fds, paths, binds, _⟩ := retried_spec o s cli e
    refine ⟨(retried o s cli e).bound (some e') (clientPath cli o.pid o.counter), ?_, e'.property,
      fds, paths⟩
    rw [if_pos inUse]
    -- The second turn starts where the first one and the `unlink` lead to.
    show Prog.eval o.handle (tryBind s cli 0) (retried o s cli e) = _
    rw [tryBind_fits o s cli _ 0 fits]
    simp only [binds, second]
  · rw [if_neg inUse]
    exact ⟨_, rfl, e.property, rfl, rfl⟩

private theorem tryBind_binds (fits : (clientPath cli o.pid o.counter).length < sunPathSize)
    (binds : ¬o.BindFails) :
    ∃ w, Prog.eval o.handle (tryBind s cli 1) (opened s) =
        (some (clientPath cli o.pid o.counter), w) ∧
      (w.errno = 0 ↔ o.bind 0 = none) ∧ w.fds = [s] ∧
      w.paths = [clientPath cli o.pid o.counter] ∧ o.unlink w.unlinks = o.lastUnlink := by
  rw [tryBind_fits o s cli _ 1 fits]
  cases first : o.bind 0 with
  | none =>
    refine ⟨(opened s).bound none (clientPath cli o.pid o.counter), ?_, ?_⟩
    · simp only [opened, first]
    · simp [opened, Footprint.bound, Outcomes.lastUnlink, first]
  | some e =>
    have inUse : e.val = Errno.eaddrinuse := by
      by_contra other
      exact binds ⟨e, first, .inl other⟩
    have second : o.bind 1 = none := by
      by_contra again
      exact binds ⟨e, first, .inr again⟩
    obtain ⟨errno, fds, paths, count, unlinks⟩ := retried_spec o s cli e
    refine ⟨(retried o s cli e).bound none (clientPath cli o.pid o.counter), ?_, ?_⟩
    · simp only [opened, first, inUse, if_true]
      show Prog.eval o.handle (tryBind s cli 0) (retried o s cli e) = _
      rw [tryBind_fits o s cli _ 0 fits]
      simp only [count, second]
    · simp [Footprint.bound, errno, fds, paths, unlinks, Outcomes.lastUnlink, first]

/-! ### The rest of `wpa_ctrl_open2` -/

private theorem opensCleanly_iff (ctrl : Option WpaCtrl) :
    OpensCleanly ctrl (openResult (ctrl, w.errno)) w ↔
      if w.errno = 0 then ctrl ≠ none else ctrl = none ∧ w.fds = [] ∧ w.paths = [] := by
  by_cases clear : w.errno = 0
  · simp only [openResult, clear, ne_eq, not_true_eq_false, if_false, if_true]
    constructor
    · exact fun h => h.nilError.mp ⟨ctrl, rfl⟩
    · exact fun present => ⟨⟨fun _ => present, fun _ => ⟨ctrl, rfl⟩⟩,
        fun same => present (Except.ok.inj same), fun err same => by cases same⟩
  · simp only [openResult, clear, ne_eq, not_false_eq_true, if_true, if_false]
    constructor
    · intro h
      refine ⟨?_, h.clean _ rfl⟩
      by_contra present
      obtain ⟨_, same⟩ := h.nilError.mpr present
      cases same
    · rintro ⟨rfl, clean⟩
      refine ⟨⟨?_, fun present => absurd rfl present⟩, ?_, fun _ _ => clean⟩
      · rintro ⟨_, same⟩
        cases same
      · exact fun same => by cases same

/-- Under these outcomes `Open` does what it is to do. -/
def Outcomes.Opens (o : Outcomes) (device clientDir : GoString) : Prop :=
  OpensCleanly (Prog.eval o.handle (callOpen2 device clientDir) .empty).1.1
    (Prog.eval o.handle (openSocket device clientDir) .empty).1
    (Prog.eval o.handle (openSocket device clientDir) .empty).2

private theorem opens_iff (r : Option WpaCtrl × Footprint)
    (ran : Prog.eval o.handle (wpaCtrlOpen2 (cString device) (cString cli)) .empty = r) :
    o.Opens device cli ↔
      if r.2.errno = 0 then r.1 ≠ none else r.1 = none ∧ r.2.fds = [] ∧ r.2.paths = [] := by
  simp only [Outcomes.Opens, openSocket, Prog.eval_map]
  have called : Prog.eval o.handle (callOpen2 device cli) .empty =
      ((r.1, r.2.errno), r.2) := by
    subst ran
    simp [callOpen2, sys, Outcomes.handle, Footprint.empty]
  rw [called]
  exact opensCleanly_iff _ _

private theorem open2_unopened (fails : o.zalloc ≠ none ∨ o.socket ≠ none) :
    ∃ w, Prog.eval o.handle (wpaCtrlOpen2 device cli) .empty = (none, w) ∧
      w.errno ≠ 0 ∧ w.fds = [] ∧ w.paths = [] := by
  cases memory : o.zalloc with
  | some e =>
    refine ⟨Footprint.empty.after (some e), ?_, e.property, rfl, rfl⟩
    simp [wpaCtrlOpen2, sys, Outcomes.handle, memory]
  | none =>
    obtain ⟨e, socket⟩ := Option.ne_none_iff_exists'.mp (fails.resolve_left (not_not.mpr memory))
    refine ⟨Footprint.empty.after (some e), ?_, e.property, rfl, rfl⟩
    simp [wpaCtrlOpen2, sys, Outcomes.handle, memory, socket, Footprint.after]

private theorem open2_unbound (memory : o.zalloc = none) (socket : o.socket = none)
    (binding : Prog.eval o.handle (tryBind o.fd cli 1) (opened o.fd) = (none, w)) :
    Prog.eval o.handle (wpaCtrlOpen2 device cli) .empty =
      (none, { w with fds := w.fds.erase o.fd }) := by
  have reached : (⟨0, [o.fd], [], 0, 0⟩ : Footprint) = opened o.fd := rfl
  simp [wpaCtrlOpen2, sys, Outcomes.handle, memory, socket, Footprint.after, Footprint.empty,
    reached, binding]

private theorem open2_bound (memory : o.zalloc = none) (socket : o.socket = none)
    (path : GoString)
    (binding : Prog.eval o.handle (tryBind o.fd cli 1) (opened o.fd) = (some path, w)) :
    Prog.eval o.handle (wpaCtrlOpen2 device cli) .empty =
      match destPath device, o.connect with
      | none, _ => (none, { w with fds := w.fds.erase o.fd })
      | some _, some e =>
        (none, { w.after (some e) with fds := w.fds.erase o.fd }.unlinked (o.unlink w.unlinks) path)
      | some _, none =>
        (some ⟨o.fd, path⟩,
          if o.getFlags = none then w.after o.setFlags else w.after o.getFlags) := by
  have reached : (⟨0, [o.fd], [], 0, 0⟩ : Footprint) = opened o.fd := rfl
  cases dest : destPath device with
  | none =>
    simp [wpaCtrlOpen2, sys, Outcomes.handle, memory, socket, Footprint.after, Footprint.empty,
      reached, binding, dest]
  | some dest' =>
    cases connected : o.connect with
    | some e =>
      simp [wpaCtrlOpen2, sys, Outcomes.handle, memory, socket, Footprint.after, Footprint.empty,
        reached, binding, dest, connected]
    | none =>
      cases flags : o.getFlags <;>
        simp [wpaCtrlOpen2, sys, Outcomes.handle, memory, socket, Footprint.after,
          Footprint.empty, reached, binding, dest, connected, flags]

/-- With a bound descriptor it is the rest that decides. -/
private theorem opens_bound_iff (memory : o.zalloc = none) (socket : o.socket = none)
    (path : GoString) (fds : w.fds = [o.fd]) (paths : w.paths = [path])
    (binding : Prog.eval o.handle (tryBind o.fd (cString cli) 1) (opened o.fd) = (some path, w)) :
    o.Opens device cli ↔ destPath (cString device) ≠ none ∧
      (o.connect ≠ none ∧ o.unlink w.unlinks = none ∨
        w.errno = 0 ∧ o.connect = none ∧ o.getFlags = none ∧ o.setFlags = none) := by
  rw [opens_iff o device cli _ (open2_bound o (cString device) (cString cli) w memory socket path
    binding)]
  cases dest : destPath (cString device) with
  | none => simp [paths]
  | some dest' =>
    cases connected : o.connect with
    | some e =>
      cases removed : o.unlink w.unlinks with
      | none => simp [Footprint.unlinked, Footprint.after, e.property, fds, paths]
      | some e' => simp [Footprint.unlinked, Footprint.after, e'.property, paths]
    | none =>
      cases flags : o.getFlags with
      | some e => simp [Footprint.after, e.property]
      | none =>
        cases set : o.setFlags with
        | some e => simp [Footprint.after, e.property]
        | none => simp [Footprint.after]

/-- The outcomes and paths for which `Open` does what it is to do -/
theorem opens_iff_fine : o.Opens device cli ↔ o.Fine device cli := by
  by_cases started : o.zalloc = none ∧ o.socket = none
  -- From here on it depends on the client path, then on `bind`, then on the rest.
  · obtain ⟨memory, socket⟩ := started
    simp only [Outcomes.Fine, memory, socket, ne_eq, not_true_eq_false, false_or]
    rcases Nat.lt_or_ge (clientPath (cString cli) o.pid o.counter).length sunPathSize with
      fits | long
    · have small : ¬intMax < (clientPath (cString cli) o.pid o.counter).length := by
        simp only [sunPathSize, intMax] at *
        omega
      by_cases fails : o.BindFails
      · obtain ⟨w, binding, errno, fds, paths⟩ := tryBind_fails o o.fd (cString cli) fits fails
        have ran := open2_unbound o (cString device) (cString cli) w memory socket binding
        rw [opens_iff o device cli _ ran]
        simp [errno, fds, paths, fits, fails]
      · obtain ⟨w, binding, errno, fds, paths, last⟩ :=
          tryBind_binds o o.fd (cString cli) fits fails
        rw [opens_bound_iff o device cli w memory socket _ fds paths binding, last, errno]
        simp [small, fits, fails]
    · have binding := tryBind_long o o.fd (cString cli) (opened o.fd) 1 long
      have ran := open2_unbound o (cString device) (cString cli) _ memory socket binding
      rw [opens_iff o device cli _ ran]
      by_cases huge : intMax < (clientPath (cString cli) o.pid o.counter).length
      · simp [huge, opened, eoverflow]
      · simp [huge, opened, Nat.not_lt.mpr long]
  · have fails : o.zalloc ≠ none ∨ o.socket ≠ none := not_and_or.mp started
    obtain ⟨w, ran, errno, fds, paths⟩ := open2_unopened o (cString device) (cString cli) fails
    have fine : o.Fine device cli := by
      rcases fails with memory | socket
      · exact .inl memory
      · exact .inr (.inl socket)
    rw [opens_iff o device cli _ ran]
    simp [errno, fds, paths, fine]

end

/-- The first `bind` fails with `EADDRINUSE`, and nothing else fails. -/
def retriedOnce : Outcomes where
  zalloc := none
  socket := none
  bind n := if n = 0 then some ⟨Errno.eaddrinuse, by decide⟩ else none
  unlink _ := none
  connect := none
  getFlags := none
  setFlags := none
  fd := 3
  flags := 0
  pid := 1
  counter := 1

/-- After a `bind` made again `Open` reports an error with the connection open, and for a
device path that is too long it returns a `Socket` without one. -/
theorem open_retried_or_long :
    ¬retriedOnce.Opens (lit "/var/run/hostapd/wlan0") (lit "/tmp") ∧
      ¬{ retriedOnce with bind := fun _ => none }.Opens (List.replicate 108 47) (lit "/tmp") := by
  constructor
  · intro h
    obtain ⟨s, ok⟩ := h.nilError.mpr (by decide +kernel)
    have failed : (Prog.eval retriedOnce.handle
        (openSocket (lit "/var/run/hostapd/wlan0") (lit "/tmp")) .empty).1 =
        .error (.errno Errno.eaddrinuse) := by decide +kernel
    rw [failed] at ok
    cases ok
  · exact fun h => h.wraps (by decide +kernel)

end HostapdGrpc.Socket
