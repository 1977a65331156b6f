import HostapdGrpc.Server.Calls

/-!
# References taken and given back

A `Get` that succeeds takes a reference to a connection and `Close` gives one back. `Ping`
gives back every reference it takes; `ListClients` gives back none.
-/

namespace HostapdGrpc.Server

open Go Interaction

/-- The socket that a call was given by `Get`. -/
def gotten : Sigma Ans → Option Sock
  | ⟨.get _, .ok sock⟩ => some sock
  | _ => none

/-- The socket that a call passed to `Close`. -/
def closed : Sigma Ans → Option Sock
  | ⟨.close sock, _⟩ => some sock
  | _ => none

/-- The sockets held after the calls `t`, each as often as references to it are held. To
close a socket that is not held is an error. -/
def heldAfter (held : List Sock) : List (Sigma Ans) → Option (List Sock)
  | [] => some held
  | e :: t =>
    match closed e with
    | some sock => if sock ∈ held then heldAfter (held.erase sock) t else none
    | none => heldAfter ((gotten e).toList ++ held) t

/-- Each socket that a `Get` returned was closed once for that `Get`, and nothing else was
closed. -/
def Released (t : List (Sigma Ans)) : Prop := heldAfter [] t = some []

instance (t : List (Sigma Ans)) : Decidable (Released t) :=
  inferInstanceAs (Decidable (heldAfter [] t = some []))

/-! ### What is held -/

theorem heldAfter_append (held : List Sock) (t u : List (Sigma Ans)) :
    heldAfter held (t ++ u) = (heldAfter held t).bind fun held => heldAfter held u := by
  induction t generalizing held with
  | nil => rfl
  | cons e t ih =>
    simp only [List.cons_append, heldAfter]
    cases closed e with
    | none => exact ih _
    | some sock =>
      by_cases member : sock ∈ held
      · simpa only [if_pos member] using ih _
      · simp only [if_neg member, Option.bind_none]

/-- A call that closes returns no socket. -/
private theorem gotten_of_closed {e : Sigma Ans} {sock : Sock} (close : closed e = some sock) :
    gotten e = none := by
  unfold closed at close
  split at close
  · rfl
  · cases close

/-- References held at the end and given back make up those held at the start and taken. -/
theorem count_heldAfter {held held' : List Sock} {t : List (Sigma Ans)} (sock : Sock)
    (after : heldAfter held t = some held') :
    held'.count sock + (t.filterMap closed).count sock
      = held.count sock + (t.filterMap gotten).count sock := by
  induction t generalizing held with
  | nil =>
    cases after
    rfl
  | cons e t ih =>
    simp only [heldAfter] at after
    -- A call closes a socket, gets one, or does neither.
    cases close : closed e with
    | none =>
      simp only [close] at after
      have run := ih after
      cases get : gotten e with
      | none =>
        simp only [get, Option.toList_none, List.nil_append] at run
        simpa [close, get] using run
      | some s =>
        simp only [get, Option.toList_some, List.cons_append, List.nil_append,
          List.count_cons] at run
        simp only [List.filterMap_cons, close, get, List.count_cons]
        omega
    | some s =>
      simp only [close] at after
      split at after
      · next member =>
        have run := ih after
        have positive : 0 < held.count s := List.count_pos_iff.mpr member
        simp only [List.filterMap_cons, close, gotten_of_closed close, List.count_cons]
        by_cases same : s = sock
        · subst same
          rw [List.count_erase_self] at run
          simp only [beq_self_eq_true, if_true]
          omega
        · rw [List.count_erase_of_ne (Ne.symm same)] at run
          simpa only [beq_iff_eq, same, if_false, Nat.add_zero] using run
      · cases after

/-- The reference counts are what they were: each socket was closed as often as it was got. -/
theorem Released.perm {t : List (Sigma Ans)} (released : Released t) :
    (t.filterMap closed).Perm (t.filterMap gotten) := by
  refine List.perm_iff_count.mpr fun sock => ?_
  simpa using count_heldAfter sock released

/-- Without a `Close`, what was got is held at the end. -/
theorem heldAfter_of_open {t : List (Sigma Ans)} (held : List Sock)
    (noClose : ∀ e ∈ t, closed e = none) :
    heldAfter held t = some ((t.filterMap gotten).reverse ++ held) := by
  induction t generalizing held with
  | nil => rfl
  | cons e t ih =>
    obtain ⟨here, rest⟩ := List.forall_mem_cons.mp noClose
    simp only [heldAfter, here, ih _ rest]
    cases get : gotten e <;> simp [get]

/-! ### `Ping` -/

def Op.isGet : Op → Bool
  | .get _ => true
  | _ => false

def Op.isClose : Op → Bool
  | .close _ => true
  | _ => false

theorem closed_of_op {e : Sigma Ans} (noClose : e.1.isClose = false) : closed e = none := by
  unfold closed
  split
  · cases noClose
  · rfl

theorem gotten_of_op {e : Sigma Ans} (noGet : e.1.isGet = false) : gotten e = none := by
  unfold gotten
  split
  · cases noGet
  · rfl

theorem Op.isClose_of_listing {op : Op} (calls : op.Listing) : op.isClose = false := by
  obtain ⟨listing⟩ := calls
  cases op <;> first | rfl | cases listing

/-- Calls that give no reference back -/
structure Op.Open (op : Op) : Prop where
  noClose : op.isClose = false

/-- Calls that take none either -/
structure Op.Neutral (op : Op) : Prop extends Op.Open op where
  noGet : op.isGet = false

theorem heldAfter_of_neutral {t : List (Sigma Ans)} (held : List Sock)
    (neutral : ∀ e ∈ t, e.1.Neutral) : heldAfter held t = some held := by
  rw [heldAfter_of_open held fun e member => closed_of_op (neutral e member).noClose]
  have none_got : t.filterMap gotten = [] :=
    List.filterMap_eq_nil_iff.mpr fun e member => gotten_of_op (neutral e member).noGet
  simp [none_got]

private theorem only_pingOpened (sock : Sock) (sockName : GoString) :
    (pingOpened sock sockName).Only Op.Neutral := by
  unfold pingOpened
  refine Prog.Only.bind (only_act ⟨⟨rfl⟩, rfl⟩) fun ans => ?_
  split
  · exact .ret _
  · exact Prog.Only.map (only_statusErr ⟨⟨rfl⟩, rfl⟩ _) _
  · split <;> exact .ret _

/-- `pingSocket` closes what it got on each of its ways out. -/
theorem pingSocket_held {sockName : GoString} {t : List (Sigma Ans)} {res : Except GoError Pong}
    (path : (pingSocket sockName).Path t res) (held : List Sock) :
    heldAfter held t = some held := by
  simp only [pingSocket, act, Prog.path_bind, Prog.path_perform] at path
  obtain ⟨_, rest, ans, rfl, rfl, path⟩ := path
  cases ans with
  | error err =>
    have only : (Except.error (α := Pong) <$> statusErr err).Only Op.Neutral :=
      .map (only_statusErr ⟨⟨rfl⟩, rfl⟩ err) _
    exact heldAfter_of_neutral (t := rest) held (only.path path)
  | ok sock =>
    -- What is sent in between neither takes nor gives, and then `sock` is closed.
    simp only [Prog.path_bind, Prog.path_perform, Prog.pure_eq, Prog.path_ret] at path
    obtain ⟨body, _, _, rfl, opened, _, _, _, rfl, rfl, rfl, _⟩ := path
    have neutral := (only_pingOpened sock sockName).path opened
    have kept : heldAfter (sock :: held) body = some (sock :: held) :=
      heldAfter_of_neutral _ neutral
    change heldAfter (sock :: held) (body ++ _) = some held
    rw [heldAfter_append, kept]
    simp [heldAfter, closed]

theorem pingLoop_held {sockets : List GoString} {sofar : PongResponse} {t : List (Sigma Ans)}
    {res : Except GoError PongResponse} (path : (pingLoop sockets sofar).Path t res)
    (held : List Sock) : heldAfter held t = some held := by
  induction sockets generalizing sofar t with
  | nil =>
    obtain ⟨rfl, _⟩ := (Prog.path_ret _ _ _).mp path
    rfl
  | cons sockName sockets ih =>
    obtain ⟨first, rest, pong, rfl, one, others⟩ := (Prog.path_bind _ _ _ _).mp path
    have kept : heldAfter held rest = some held := by
      cases pong with
      | error err =>
        obtain ⟨rfl, _⟩ := (Prog.path_ret _ _ _).mp others
        rfl
      | ok pong => exact ih others
    rw [heldAfter_append, pingSocket_held one held]
    exact kept

/-- The loop stops at the first error, with nothing held. -/
theorem ping_released {req : PingRequest} {t : List (Sigma Ans)}
    {res : Except GoError PongResponse} (path : (ping req).Path t res) : Released t := by
  obtain ⟨first, rest, sockets, rfl, names, others⟩ := (Prog.path_bind _ _ _ _).mp path
  have only : (getSockets req.socketName).Only Op.Neutral :=
    only_getSockets ⟨⟨rfl⟩, rfl⟩ ⟨⟨rfl⟩, rfl⟩ req.socketName
  have kept : heldAfter [] rest = some [] := by
    cases sockets with
    | error err =>
      obtain ⟨rfl, _⟩ := (Prog.path_ret _ _ _).mp others
      rfl
    | ok sockets => exact pingLoop_held others []
  unfold Released
  rw [heldAfter_append, heldAfter_of_neutral [] (only.path names)]
  exact kept

/-! ### Both -/

def Request.isPing : Request → Bool
  | .ping _ => true
  | .listClients _ => false


/-- Whatever the calls of a request are answered, what it got is given back exactly if it is
a `Ping`, or a `ListClients` that no `Get` gave a socket. -/
theorem released_iff {fuel : Nat} {req : Request} {t : List (Sigma Ans)}
    {res : Except GoError Response} (path : (serve fuel req).Path t res) :
    Released t ↔ req.isPing = true ∨ ∀ e ∈ t, gotten e = none := by
  cases req with
  | ping req =>
    obtain ⟨_, path, _⟩ := (Prog.path_map _ _ _ _).mp path
    simp only [Request.isPing, true_or, iff_true]
    exact ping_released path
  | listClients req =>
    obtain ⟨_, path, _⟩ := (Prog.path_map _ _ _ _).mp path
    -- Nothing is given back, so nothing may have been taken.
    have noClose : ∀ e ∈ t, closed e = none := fun e member =>
      closed_of_op (Op.isClose_of_listing ((only_listClients fuel req).path path e member))
    simp only [Request.isPing, Bool.false_eq_true, false_or]
    unfold Released
    rw [heldAfter_of_open [] noClose]
    simp

theorem released_iff_pong :
    (serve 0 (.ping ⟨[lit "wlan0"]⟩)).Path
        [⟨.get (lit "wlan0"), .ok 0⟩, ⟨.sendRawCmd 0 (lit "PING"), .ok (lit "PONG\n")⟩,
          ⟨.close 0, none⟩]
        (.ok (.ping ⟨[⟨lit "wlan0", none⟩]⟩)) ∧
      Released [⟨.get (lit "wlan0"), .ok 0⟩, ⟨.sendRawCmd 0 (lit "PING"), .ok (lit "PONG\n")⟩,
        ⟨.close 0, none⟩] := by
  have path : (serve 0 (.ping ⟨[lit "wlan0"]⟩)).Path
      [⟨.get (lit "wlan0"), .ok 0⟩, ⟨.sendRawCmd 0 (lit "PING"), .ok (lit "PONG\n")⟩,
        ⟨.close 0, none⟩]
      (.ok (.ping ⟨[⟨lit "wlan0", none⟩]⟩)) :=
    .call _ (.call _ (.call _ (.ret _)))
  exact ⟨path, (released_iff path).mpr (.inl rfl)⟩

/-- An access point without stations answers `STA-FIRST` with nothing. -/
theorem unreleased :
    (serve 0 (.listClients ⟨[lit "wlan0"]⟩)).Path
        [⟨.get (lit "wlan0"), .ok 0⟩, ⟨.sendRawCmd 0 (lit "STA-FIRST"), .ok []⟩]
        (.ok (.listClients ⟨[], []⟩)) ∧
      ¬ Released [⟨.get (lit "wlan0"), .ok 0⟩, ⟨.sendRawCmd 0 (lit "STA-FIRST"), .ok []⟩] :=
  ⟨.call _ (.call _ (.ret _)), by decide⟩

end HostapdGrpc.Server
