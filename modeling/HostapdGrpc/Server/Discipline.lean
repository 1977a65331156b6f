import HostapdGrpc.Server.Custody
import HostapdGrpc.Server.Main
import HostapdGrpc.Socket.Freed

/-!
# The service as the manager's caller

What the guarantees of the package `socket` ask of its callers, the methods of the service keep
to: every run of the program is one of the package in which goroutines use what they got and
have not closed.
-/

namespace HostapdGrpc.Server

open Go Interaction

/-! ### The records of a call -/

section
variable {ι : Type} [DecidableEq ι] {i j : ι} {s s' : Socket.State ι}

/-- The handles after the beginning of a call -/
def entered (call : Socket.Call) (held : List Sock) : List Sock :=
  match call with
  | .close sock => held.erase sock
  | _ => held

/-- The handles after its end -/
def left (call : Socket.Call) (res : Socket.Res) (held : List Sock) : List Sock :=
  match call, res with
  | .get _, .get (.ok sock) => sock :: held
  | _, _ => held

private theorem start_held {call : Socket.Call} (started : s.start i call = some s') :
    s'.held i = entered call (s.held i) := by
  cases call <;> simp only [Socket.State.start] at started <;> (try split at started) <;>
    cases started
  · rfl
  · rfl
  · exact Function.update_self ..

private theorem finish_held (call : Socket.Call) (res : Socket.Res) (s : Socket.State ι) :
    (s.finish i call res).held i = left call res (s.held i) := by
  cases call with
  | get name =>
    cases res with
    | get r =>
      cases r with
      | ok sock => exact Function.update_self ..
      | error err => rfl
    | _ => rfl
  | _ => rfl

private theorem start_rely {call : Socket.Call} (started : s.start i call = some s') (ne : j ≠ i) :
    Socket.Rely j s s' := by
  have calls : Function.update s.call i (some call) j = s.call j := Function.update_of_ne ne ..
  cases call <;> simp only [Socket.State.start] at started <;> (try split at started) <;>
    cases started
  · exact { Socket.Rely.refl j s with call := calls }
  · exact { Socket.Rely.refl j s with call := calls }
  · exact { Socket.Rely.refl j s with
      call := calls
      held := Function.update_of_ne ne ..
      spent := Function.update_of_ne ne .. }

private theorem finish_rely (call : Socket.Call) (res : Socket.Res) (s : Socket.State ι)
    (ne : j ≠ i) : Socket.Rely j s (s.finish i call res) := by
  have calls : Function.update s.call i none j = s.call j := Function.update_of_ne ne ..
  unfold Socket.State.finish
  split
  · exact { Socket.Rely.refl j s with
      call := calls
      held := Function.update_of_ne ne .. }
  · exact { Socket.Rely.refl j s with call := calls }

end

/-! ### The program over the package -/

/-- The task closes all sockets that it gets. -/
def Task.closesAll : Task → Bool
  | .listSockets | .request (.ping _) => true
  | _ => false

/-- Runs in which the goroutines of `tidy` make only requests that close all sockets they get,
and the steps of the package `socket` meet `A` -/
def mainCondition {ι : Type} [DecidableEq ι] (A : Socket.Assumptions) (m : Socket.Manager)
    (tidy : ι → Bool) : Condition ι MainOp (Main ι) MainChoice Task where
  start i task _ := tidy i = true → task.closesAll = true
  step i op ch s := ∀ op' ch', op = .socket op' → ch = .socket ch' →
    (A.condition m).step i op' ch' s.mem

/-- Any run -/
def unrestricted {ι : Type} : Condition ι MainOp (Main ι) MainChoice Task :=
  ⟨fun _ _ _ => True, fun _ _ _ _ => True⟩

/-- A schedule that can be taken to its end is a run. -/
theorem exists_main {ι : Type} [DecidableEq ι] (m : Socket.Manager) (fuel : Nat)
    (ls : List (Label ι MainChoice Task))
    (goal : Config ι MainOp MainAns (Main ι) Task TaskRes → Bool)
    (ran : ((main ι m fuel).run (fun _ _ _ => true) (fun _ _ _ _ => true) ls
      (starting ι)).any goal = true) :
    ∃ c, Reach (main ι m fuel) unrestricted (starting ι) c ∧ goal c = true := by
  obtain ⟨c, run, last⟩ := exists_reach _ _ _ _ ls goal ran
  refine ⟨c, ?_, last⟩
  exact Reach.weaken (C := .checked (fun _ _ _ => true) fun _ _ _ _ => true)
    (fun _ _ _ _ => trivial) (fun _ _ _ _ _ => trivial) run

/-- A step of the package that has no business with the shared state now or uses a connection
that was closed, or a call with a socket that the goroutine does not have -/
def MainBad {ι : Type} [DecidableEq ι] (A : Socket.Assumptions) (i : ι) (op : MainOp)
    (s : Main ι) : Prop :=
  match op with
  | .socket op => Socket.Bad A i op s.mem ∨ Socket.UsesFreed op s.mem
  | .enter call => Socket.usesOwnHandle i call s.mem = false
  | _ => False

variable {ι : Type} [DecidableEq ι]

variable [Fintype ι] {A : Socket.Assumptions} {m : Socket.Manager} {fuel : Nat} {i : ι}

private theorem main_guarantee {s s' : Main ι} {op : MainOp} {ch : MainChoice} {a : MainAns op}
    (inv : Socket.Inv A m s.mem) (safe : ¬MainBad A i op s) (done : s.exec i op ch = some (a, s'))
    (j : ι) (ne : j ≠ i) : Socket.Rely j s.mem s'.mem := by
  cases op with
  | service op =>
    rw [Main.serviceExec_mem done]
    exact .refl j s.mem
  | socket op =>
    obtain ⟨ch, mem, rfl, moved, rfl⟩ := Main.exec_socket done
    exact .of_exec A m i op ch s.mem mem a inv (fun bad => safe (.inl bad)) moved j ne
  | enter call =>
    obtain ⟨mem, started, same⟩ := Option.map_eq_some_iff.mp done
    cases same
    exact start_rely started ne
  | leave call res =>
    cases done
    exact finish_rely call res s.mem ne

/-- What the proofs about the package `socket` say of a caller -/
def KnownAbove {ι : Type} [DecidableEq ι] [Fintype ι] (A : Socket.Assumptions)
    (m : Socket.Manager) (i : ι) (u : Thread Socket.Op Socket.Ans Socket.Call Socket.Res)
    (t : Socket.State ι) : Prop :=
  (Socket.proof ι A m).Known i u t ∧
    ∀ call op k, u = .running call (.call op k) → ¬Socket.UsesFreed op t

/-- The program over the package `socket`: the memory is the same. -/
def mainCoupling (ι : Type) [DecidableEq ι] [Fintype ι] (A : Socket.Assumptions)
    (m : Socket.Manager) (fuel : Nat) (tidy : ι → Bool) :
    Coupling ι MainOp MainAns (Main ι) MainChoice Task TaskRes Socket.Op Socket.Ans
      (Socket.State ι) Socket.Choice Socket.Call Socket.Res where
  sys := main ι m fuel
  cond := mainCondition A m tidy
  inv s := Socket.Inv A m s.mem
  rely i s s' := Socket.Rely i s.mem s'.mem
  bad := MainBad A
  rely_refl i s := .refl i s.mem
  rely_trans _ _ _ _ := .trans
  guarantee _ _ _ _ _ _ inv safe done := main_guarantee inv safe done
  upper := Socket.system ι m
  allowed := A.condition m
  known := KnownAbove A m
  rel s t := s.mem = t

section
variable {tidy : ι → Bool}

/-- Between calls, with the handles `held` -/
private def Between (i : ι) (held : List Sock)
    (u : Thread Socket.Op Socket.Ans Socket.Call Socket.Res) (s : Main ι) : Prop :=
  u = .idle ∧ s.mem.held i = held

private theorem held_stable (held : List Sock) :
    (mainCoupling ι A m fuel tidy).Stable i (fun s => s.mem.held i = held) :=
  fun _ _ _ _ rely before => rely.held.trans before

/-- A step of the package is that step above. -/
private theorem steps_matches {α : Type} (held : List Sock) (p : Socket.Act α) :
    (mainCoupling ι A m fuel tidy).Matches i (fun s => s.mem.held i = held) (steps p) p
      fun a b s => a = b ∧ s.mem.held i = held := by
  refine .interpret (fun op => ?_) p
  refine .step (fun s t call k inv before same known => ?_)
    fun _ _ => (Logic.Stable.const _).and (held_stable held)
  obtain rfl : s.mem = t := same
  obtain ⟨good, keeps⟩ := known.1.at_op
  refine ⟨fun bad => bad.elim good (known.2 call op k rfl), fun ch a s' ok done => ?_⟩
  obtain ⟨ch, mem, rfl, moved, rfl⟩ := Main.exec_socket done
  have ok' : (A.condition m).step i op ch s.mem := ok op ch rfl rfl
  refine ⟨keeps ch a mem ok' moved, ch, a, mem, ok', moved, rfl, rfl, ?_⟩
  rw [← before]
  exact congrFun (Socket.exec_callers op ch s.mem mem a moved).2.1 i

/-- A call is one above, from its start to its return. -/
private theorem calling_sim {α : Type} {call : Socket.Call} {p : Socket.Act α}
    {res : α → Socket.Res} (program : Socket.body m call = res <$> p) {held : List Sock}
    (mine : ∀ s : Main ι, s.mem.held i = held → Socket.usesOwnHandle i call s.mem = true) :
    (mainCoupling ι A m fuel tidy).Sim i (Between i held) (calling call p res) fun a =>
      Between i (left call (res a) (entered call held)) := by
  have returning : Socket.body m call = p >>= fun a => .ret (res a) := program
  unfold calling
  refine Coupling.Sim.bind (R := fun _ u s => u = .running call (p >>= fun a => .ret (res a)) ∧
    s.mem.held i = entered call held) (.perform ?_ ?_) fun _ => ?_
  · rintro u s t inv ⟨rfl, before⟩ same known
    obtain rfl : s.mem = t := same
    have own := mine s before
    refine ⟨fun bad => ?_, fun ch a s' _ done => ?_⟩
    · have bad' : Socket.usesOwnHandle i call s.mem = false := bad
      rw [own] at bad'
      cases bad'
    · obtain ⟨mem, started, same⟩ := Option.map_eq_some_iff.mp done
      cases same
      obtain ⟨inv', -, -⟩ :=
        (Socket.proof ι A m).start_ok i call s.mem mem inv known.1.2 own started
      refine ⟨inv', mem, _, .single (.start call own started), rfl, ?_, ?_⟩
      · exact congrArg (Thread.running call) returning
      · exact before ▸ start_held started
  · exact fun _ _ => (Logic.Stable.const _).and (held_stable _)
  · refine (steps_matches (entered call held) p call fun a => .ret (res a)).bind fun a => ?_
    refine Coupling.Sim.bind (R := fun _ => Between i (left call (res a) (entered call held)))
      (.perform ?_ ?_) fun _ => .ret a fun _ _ _ last => last
    · rintro u s t inv ⟨b, rfl, rfl, before⟩ same known
      obtain rfl : s.mem = t := same
      refine ⟨id, fun ch _ s' _ done => ?_⟩
      cases done
      have post : Socket.Post A i call (res a) s.mem :=
        known.1.2 s.mem known.1.1 ((Socket.proof ι A m).rely_refl i s.mem)
      obtain ⟨inv', -, -⟩ := (Socket.proof ι A m).finish_ok i call (res a) s.mem inv post
      refine ⟨inv', _, _, .single .finish, rfl, rfl, ?_⟩
      rw [← before]
      exact finish_held call (res a) s.mem
    · exact fun _ _ => (Logic.Stable.const _).and (held_stable _)

/-- A call of the service leaves its goroutine with the handles that its custody says. -/
private theorem overManager_sim (op : Op) (held : List Sock) (allowed : custody.Allows op held) :
    (mainCoupling ι A m fuel tidy).Sim i (Between i held) (overManager m op) fun x =>
      Between i (custody.after op x held) := by
  have own {sock : Sock} (needed : custody.needs op = some sock) (s : Main ι)
      (before : s.mem.held i = held) : decide (sock ∈ s.mem.held i) = true := by
    rw [before]
    exact decide_eq_true (allowed sock needed)
  have service (apart : ∀ x, custody.after op x held = held) :
      (mainCoupling ι A m fuel tidy).Sim i (Between i held) (step (.service op)) fun x =>
        Between i (custody.after op x held) := by
    refine .perform ?_ fun _ _ => (Logic.Stable.const _).and (held_stable _)
    rintro u s t inv ⟨rfl, before⟩ same known
    obtain rfl : s.mem = t := same
    refine ⟨id, fun ch a s' _ done => ?_⟩
    have mem : s'.mem = s.mem := Main.serviceExec_mem done
    refine ⟨?_, s.mem, _, .refl, mem, rfl, ?_⟩
    · show Socket.Inv A m s'.mem
      rw [mem]
      exact inv
    · rw [apart, mem]
      exact before
  cases op with
  | get name =>
    refine (calling_sim rfl fun _ _ => rfl).weaken (fun _ _ _ pre => pre) ?_
    intro r u s _ post
    cases r <;> exact post
  | sendRawCmd sock cmd => exact .map _ (calling_sim rfl (own rfl))
  | close sock => exact calling_sim rfl (own rfl)
  | panic => exact service fun x => x.elim
  | stuck => exact service fun x => x.elim
  | _ => exact service fun _ => rfl

/-! ### Tasks -/

omit [DecidableEq ι] [Fintype ι] in
private theorem owns_goroutine (fuel : Nat) (task : Task) (held : List Sock) :
    Owns custody held (goroutine fuel task) fun _ l => task.closesAll = true → l = held := by
  have grows {α : Type} {task : Task} (listing : task.closesAll = false) :
      ∀ (_ : α) l, held <:+ l → task.closesAll = true → l = held := by
    intro _ _ _ closes
    rw [listing] at closes
    cases closes
  cases task with
  | listSockets => exact .map _ (owns_listSockets.mono fun _ _ same _ => same)
  | scrape => exact .map _ ((ConnectedClientsGauge.owns_scrape fuel).mono (grows rfl))
  | request req =>
    cases req with
    | ping req => exact .map _ (.map _ ((owns_ping req).mono fun _ _ same _ => same))
    | listClients req => exact .map _ (.map _ ((owns_listClients fuel req).mono (grows rfl)))

/-- The goroutines verified as callers of the package -/
def mainSimulation (ι : Type) [DecidableEq ι] [Fintype ι] (A : Socket.Assumptions)
    (m : Socket.Manager) (fuel : Nat) (tidy : ι → Bool) :
    Simulation ι MainOp MainAns (Main ι) MainChoice Task TaskRes Socket.Op Socket.Ans
      (Socket.State ι) Socket.Choice Socket.Call Socket.Res where
  toCoupling := mainCoupling ι A m fuel tidy
  idle i u s := u = .idle ∧ (tidy i = true → s.mem.held i = [])
  pre i task u s := (tidy i = true → task.closesAll = true) ∧ u = .idle ∧
    (tidy i = true → s.mem.held i = [])
  post i _ _ u s := u = .idle ∧ (tidy i = true → s.mem.held i = [])
  idle_stable i _ := (Logic.Stable.const _).and
    fun _ _ _ _ rely before isTidy => rely.held.trans (before isTidy)
  pre_stable i _ _ := (Logic.Stable.const _).and ((Logic.Stable.const _).and
    fun _ _ _ _ rely before isTidy => rely.held.trans (before isTidy))
  start_ok i task u s s' t inv idle same _ ok started := by
    cases started
    exact ⟨inv, fun j _ => .refl j s.mem, t, u, .refl, same, ok, idle⟩
  body_ok i task u s inv pre := by
    obtain ⟨closes, rfl, before⟩ := pre
    have sim := (owns_goroutine fuel task (s.mem.held i)).sim (i := i)
      (K := mainCoupling ι A m fuel tidy) overManager_sim
    refine Coupling.sim_mono ?_ _ _ s inv (sim .idle s inv ⟨rfl, rfl⟩)
    rintro a u s' _ ⟨l, kept, rfl, rfl⟩
    exact ⟨rfl, fun isTidy => (kept (closes isTidy)).trans (before isTidy)⟩
  finish_ok i task r u s t inv post same _ :=
    ⟨inv, fun j _ => .refl j s.mem, t, u, .refl, same, post⟩
  env_ok ch s s' t inv same moved := by
    obtain rfl : s.mem = t := same
    simp only [mainCoupling, main] at moved
    split at moved
    next ch =>
      obtain ⟨mem, moves, rfl⟩ := Option.map_eq_some_iff.mp moved
      obtain ⟨inv', others⟩ := (Socket.proof ι A m).env_ok ch s.mem mem inv moves
      exact ⟨inv', others, mem, .inr ⟨ch, moves⟩, rfl⟩
    · cases moved

end

/-! ### Every run is one of the package -/

private theorem known_above
    {d : Config ι Socket.Op Socket.Ans (Socket.State ι) Socket.Call Socket.Res}
    (run : Reach (Socket.system ι m) (A.condition m) (Socket.initial ι) d) (i : ι) :
    KnownAbove A m i (d.thread i) d.state :=
  ⟨Proof.Known.of_reach (Socket.reach_ok .refl) run i, fun _ _ _ at_op =>
    Socket.never_freed run at_op⟩

/-- Beside every run of the program, one of the package goes on. -/
theorem main_related {tidy : ι → Bool}
    {c : Config ι MainOp MainAns (Main ι) Task TaskRes}
    (run : Reach (main ι m fuel) (mainCondition A m tidy) (starting ι) c) :
    ∃ d, Reach (Socket.system ι m) (A.condition m) (Socket.initial ι) d ∧
      (mainSimulation ι A m fuel tidy).Related c d := by
  have related : (mainSimulation ι A m fuel tidy).Related (starting ι) (Socket.initial ι) :=
    { inv := (Socket.reach_ok (A := A) (m := m) .refl).1
      rel := rfl
      threads := fun _ => ⟨rfl, fun _ => rfl⟩ }
  exact (mainSimulation ι A m fuel tidy).sound (fun d above => known_above above) related run

/-- In every run of the program, the goroutines use the package `socket` as its guarantees ask:
only what they got and have not closed. A goroutine that only lists sockets and pings holds
nothing between its tasks. -/
theorem main_refines {tidy : ι → Bool} {c : Config ι MainOp MainAns (Main ι) Task TaskRes}
    (run : Reach (main ι m fuel) (mainCondition A m tidy) (starting ι) c) :
    ∃ d, Reach (Socket.system ι m) (A.condition m) (Socket.initial ι) d ∧
      d.state = c.state.mem ∧ ∀ i, c.thread i = .idle → d.thread i = .idle ∧
        (tidy i = true → c.state.mem.held i = []) := by
  obtain ⟨d, above, last⟩ := main_related run
  refine ⟨d, above, last.rel.symm, fun i between => ?_⟩
  have thread := last.threads i
  rw [between] at thread
  exact thread

/-- No goroutine comes to a step that it has no business with. -/
theorem main_good {tidy : ι → Bool} {c : Config ι MainOp MainAns (Main ι) Task TaskRes}
    (run : Reach (main ι m fuel) (mainCondition A m tidy) (starting ι) c) {task : Task}
    {op : MainOp} {k : MainAns op → MainAct TaskRes}
    (at_op : c.thread i = .running task (.call op k)) : ¬MainBad A i op c.state := by
  obtain ⟨d, above, last⟩ := main_related run
  have thread := last.threads i
  rw [at_op] at thread
  exact (thread c.state last.inv (.refl i c.state.mem) d.state last.rel (known_above above i)).1

omit [Fintype ι] in
/-- What is guaranteed without assumptions is guaranteed of every run. -/
theorem guaranteed {c : Config ι MainOp MainAns (Main ι) Task TaskRes}
    (run : Reach (main ι m fuel) unrestricted (starting ι) c) :
    Reach (main ι m fuel) (mainCondition ⟨False, False, False, False⟩ m fun _ => false)
      (starting ι) c :=
  Reach.weaken (C := unrestricted) (fun _ _ _ _ tidy => by cases tidy)
    (fun _ _ _ _ _ _ _ _ _ => ⟨False.elim, False.elim, False.elim, False.elim⟩) run

/-- However the requests and scrapes interleave: a goroutine sends commands to, and closes, only
sockets that it got and has not closed; and below, no connection is used, or closed again, after
it was closed. -/
theorem never_misused {c : Config ι MainOp MainAns (Main ι) Task TaskRes}
    (run : Reach (main ι m fuel) unrestricted (starting ι) c) :
    (∀ i task call k, c.thread i = .running task (.call (.enter call) k) →
      Socket.usesOwnHandle i call c.state.mem = true) ∧
    ∀ i task op k, c.thread i = .running task (.call (.socket op) k) →
      ¬Socket.UsesFreed op c.state.mem := by
  have run' := guaranteed run
  refine ⟨fun i task call k at_op => ?_, fun i task op k at_op used => ?_⟩
  · by_contra not_own
    exact main_good run' at_op (Bool.eq_false_iff.mpr not_own)
  · exact main_good run' at_op (.inr used)

/-- If all goroutines are between tasks that close what they get, no reference is left. -/
theorem all_closed {c : Config ι MainOp MainAns (Main ι) Task TaskRes}
    (run : Reach (main ι m fuel) (mainCondition A m fun _ => true) (starting ι) c)
    (between : ∀ i, c.thread i = .idle) (p : Socket.Ptr) : c.state.mem.heap.refs p = 0 := by
  obtain ⟨d, above, last⟩ := main_related run
  have known := Socket.reach_ok above
  have same : c.state.mem = d.state := last.rel
  rw [same, known.1.refs p]
  refine Finset.sum_eq_zero fun i _ => ?_
  have thread := last.threads i
  rw [between i] at thread
  obtain ⟨idle, none_held⟩ := thread
  have taken : d.state.taken i = d.state.held i := by
    have thread := known.2 i
    rw [idle] at thread
    exact thread
  rw [taken, ← same, none_held rfl, List.count_nil]

/-- A `Ping` of the socket `a`, which opens it -/
def pingTask : List (Label Unit MainChoice Task) :=
  .start () (.request (.ping ⟨[lit "a"]⟩)) ::
    (List.replicate 19 (.step () (.socket .go)) ++
      .env (.socket (.answer 0 0 (lit "PONG\n"))) ::
        (List.replicate 11 (.step () (.socket .go)) ++ [.finish ()]))

private theorem pinged : ∃ c : Config Unit MainOp MainAns (Main Unit) Task TaskRes,
    Reach (main Unit ⟨[], [], 0⟩ 0)
      (mainCondition ⟨False, False, False, False⟩ ⟨[], [], 0⟩ fun _ => true) (starting Unit) c ∧
    (∀ i, c.thread i = .idle) ∧ c.state.mem.next = 1 := by
  obtain ⟨c, run, last⟩ := exists_reach (main Unit ⟨[], [], 0⟩ 0) (starting Unit)
    (fun _ task _ => task.closesAll) (fun _ _ _ _ => true) pingTask
    (fun c => (c.thread ()).call.isNone && c.state.mem.next == 1) (by decide +kernel)
  obtain ⟨none, next⟩ := Bool.and_eq_true_iff.mp last
  refine ⟨c, ?_, fun i => ?_, eq_of_beq next⟩
  · refine Reach.weaken (C := .checked (fun _ task _ => task.closesAll) fun _ _ _ _ => true)
      (fun _ task _ closes _ => ?_) (fun _ _ _ _ _ _ _ _ _ => ?_) run
    · exact closes
    · exact ⟨False.elim, False.elim, False.elim, False.elim⟩
  · obtain rfl : i = () := rfl
    cases thread : c.thread () with
    | idle => rfl
    | running task p =>
      rw [thread] at none
      cases none

/-- The connection whose reply the goroutine awaits -/
private def awaits : Thread MainOp MainAns Task TaskRes → Option Socket.Conn
  | .running _ (.call (.socket (.recv c)) _) => some c
  | _ => none

/-- While the reply to that is awaited -/
theorem never_misused_ping : ∃ c : Config Unit MainOp MainAns (Main Unit) Task TaskRes,
    Reach (main Unit ⟨[], [], 0⟩ 0) unrestricted (starting Unit) c ∧
      (∃ task k, c.thread () = .running task (.call (.socket (.recv 0)) k)) ∧
      (c.state.mem.conn 0).closed = false := by
  obtain ⟨c, run, last⟩ := exists_main ⟨[], [], 0⟩ 0 (pingTask.take 20)
    (fun c => awaits (c.thread ()) == some 0) (by decide +kernel)
  have awaited : awaits (c.thread ()) = some 0 := eq_of_beq last
  unfold awaits at awaited
  split at awaited
  next at_op =>
    cases awaited
    exact ⟨c, run, ⟨_, _, at_op⟩, Bool.eq_false_iff.mpr ((never_misused run).2 () _ _ _ at_op)⟩
  · cases awaited

theorem main_refines_ping :
    ∃ (c : Config Unit MainOp MainAns (Main Unit) Task TaskRes)
      (d : Config Unit Socket.Op Socket.Ans (Socket.State Unit) Socket.Call Socket.Res),
      Reach (main Unit ⟨[], [], 0⟩ 0)
        (mainCondition ⟨False, False, False, False⟩ ⟨[], [], 0⟩ fun _ => true) (starting Unit) c ∧
      c.state.mem.next = 1 ∧
      Reach (Socket.system Unit ⟨[], [], 0⟩)
        ((⟨False, False, False, False⟩ : Socket.Assumptions).condition ⟨[], [], 0⟩)
        (Socket.initial Unit) d ∧
      d.state = c.state.mem ∧ d.thread () = .idle ∧ c.state.mem.held () = [] := by
  obtain ⟨c, run, idle, next⟩ := pinged
  obtain ⟨d, above, same, threads⟩ := main_refines run
  obtain ⟨between, nothing⟩ := threads () (idle ())
  exact ⟨c, d, run, next, above, same, between, nothing rfl⟩

theorem all_closed_ping : ∃ c : Config Unit MainOp MainAns (Main Unit) Task TaskRes,
    Reach (main Unit ⟨[], [], 0⟩ 0)
        (mainCondition ⟨False, False, False, False⟩ ⟨[], [], 0⟩ fun _ => true) (starting Unit) c ∧
      (∀ i, c.thread i = .idle) ∧ c.state.mem.next = 1 ∧ c.state.mem.heap.refs 0 = 0 := by
  obtain ⟨c, run, idle, next⟩ := pinged
  exact ⟨c, run, idle, next, all_closed run idle 0⟩

end HostapdGrpc.Server
