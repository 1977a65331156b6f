import HostapdGrpc.Interaction.Trace
import HostapdGrpc.Socket.Soundness

/-!
# Exchanges

What `SendRawCmd` can rely on after earlier calls failed: that the `sharedSocket` has a
`Socket`, and that the reply it reads is the one to its own command.
-/

namespace HostapdGrpc.Socket

open Go Interaction

/-- A call of a method on a nil `Socket` -/
def Op.callsNil : Op → Bool
  | .send none _ | .closeSock none => true
  | _ => false

variable {ι : Type} {m : Manager}

/-! ### The `Socket` of an open `sharedSocket` -/

/-- An open `sharedSocket` that nobody is using has a `Socket`, and no goroutine is about
to call a nil one. -/
structure SocketPresent (c : Config ι Op Ans (State ι) Call Res) : Prop where
  present : ∀ p, c.state.heap.closed p = false → c.state.heap.smu p = none →
    c.state.heap.s p ≠ none
  calls : ∀ i call op k, c.thread i = .running call (.call op k) → op.callsNil = false

/-- If no `Open` of `reconnect` fails, `Socket`s are never nil. -/
theorem socket_present [Fintype ι] [DecidableEq ι] {c : Config ι Op Ans (State ι) Call Res}
    (run : Reach (system ι m) (disciplinedAnd reopenSucceeds) (initial ι) c) :
    SocketPresent c := by
  have ok : (proof ι ⟨False, True, False, False⟩ m).ConfigOk c := by
    apply reach_ok
    exact Reach.weaken (C := disciplinedAnd reopenSucceeds) (fun _ _ _ h => h)
      (fun _ _ _ _ h => ⟨False.elim, fun _ => h, False.elim, False.elim⟩) run
  refine ⟨fun p open' free => ?_, fun i call op k at_op => ?_⟩
  · exact ok.1.live trivial p (ok.1.lt_of_open open') free
  -- A call on a nil `Socket` is bad where reopening succeeds.
  · have safe := ok.not_bad at_op
    cases op with
    | send s cmd =>
      cases s with
      | none => exact absurd trivial safe
      | some d => rfl
    | closeSock s =>
      cases s with
      | none => exact absurd trivial safe
      | some d => rfl
    | _ => rfl

/-- The first request fails as on a dead `Socket`, and the one after the reopening succeeds. -/
theorem socket_present_recovered :
    ∃ c, Reach (system (Fin 1) ⟨[], [], 0⟩) (disciplinedAnd reopenSucceeds) (initial (Fin 1)) c ∧
      c.state.heap.s 0 = some 1 ∧ SocketPresent c := by
  obtain ⟨c, run, last⟩ := exists_run (ι := Fin 1) ⟨[], [], 0⟩ reopenSucceeds
    (uninterrupted 0 (.get (lit "a")) (List.replicate 13 .go) ++
      [.start 0 (.sendRawCmd 0 (lit "PING"))] ++
      [.go, .go, .fail 111, .go, .go, .go, .go, .go, .go, .go, .go].map (.step 0) ++
      [.env (.answer 1 0 (lit "PONG\n")), .step 0 .go, .step 0 .go, .finish 0])
    (fun c => c.state.heap.s 0 == some 1) (by decide +kernel)
  exact ⟨c, run, eq_of_beq last, socket_present run⟩

/-- The operation a thread has come to -/
def nextOp : Thread Op Ans Call Res → Option Op
  | .running _ (.call op _) => some op
  | _ => none

private theorem nextOp_eq {t : Thread Op Ans Call Res} {op : Op} (next : nextOp t = some op) :
    ∃ call k, t = .running call (.call op k) := by
  unfold nextOp at next
  split at next
  · cases next
    exact ⟨_, _, rfl⟩
  · cases next

/-- A failing reopening leaves a cached `sharedSocket` without a `Socket`, and the next
request calls it. -/
theorem socket_nil :
    (∃ c, Reach (system (Fin 1) ⟨[], [], 0⟩) disciplined (initial (Fin 1)) c ∧
      c.state.heap.closed 0 = false ∧ c.state.heap.smu 0 = none ∧ c.state.heap.s 0 = none) ∧
    ∃ c, Reach (system (Fin 1) ⟨[], [], 0⟩) disciplined (initial (Fin 1)) c ∧
      ∃ call op k, c.thread 0 = .running call (.call op k) ∧ op.callsNil = true := by
  constructor
  -- The send fails with `ECONNREFUSED`, and the opening with `ENOENT`.
  · obtain ⟨c, run, last⟩ := exists_run (ι := Fin 1) ⟨[], [], 0⟩ (fun _ _ _ _ => true)
      (uninterrupted 0 (.get (lit "a")) (List.replicate 13 .go) ++
        uninterrupted 0 (.sendRawCmd 0 (lit "PING"))
          [.go, .go, .fail 111, .go, .go, .go, .go, .fail 2, .go, .go])
      (fun c => !c.state.heap.closed 0 && c.state.heap.smu 0 == none && c.state.heap.s 0 == none)
      (by decide +kernel)
    simp only [Bool.and_eq_true, beq_iff_eq, Bool.not_eq_true'] at last
    exact ⟨c, run, last.1.1, last.1.2, last.2⟩
  · obtain ⟨c, run, last⟩ := exists_run (ι := Fin 1) ⟨[], [], 0⟩ (fun _ _ _ _ => true)
      (uninterrupted 0 (.get (lit "a")) (List.replicate 13 .go) ++
        uninterrupted 0 (.sendRawCmd 0 (lit "PING"))
          [.go, .go, .fail 111, .go, .go, .go, .go, .fail 2, .go, .go] ++
        [.start 0 (.sendRawCmd 0 (lit "PING")), .step 0 .go, .step 0 .go])
      (fun c => (nextOp (c.thread 0)).any Op.callsNil) (by decide +kernel)
    obtain ⟨op, next, onNil⟩ := (Option.any_eq_true _ _).mp last
    obtain ⟨call, k, at_op⟩ := nextOp_eq next
    exact ⟨c, run, call, op, k, at_op, onNil⟩

/-! ### The reply to the command -/

/-- At the end of `t`, `cmd` was sent with the number that `reply` has for it, what `reply` says
was read on the same connection, and `smu` was unlocked. -/
def Exchanged (p : Ptr) (cmd : GoString) (reply : Reply) (t : List (Sigma Ans)) : Prop :=
  ∃ u c, t = u ++ [⟨.send (some c) cmd, .ok reply.command⟩,
    ⟨.recv c, .reply ⟨reply.text, reply.origin⟩⟩, ⟨.unlock (.smu p), ()⟩]

section
variable {p : Ptr} {cmd : GoString} {reply : Reply} {t : List (Sigma Ans)}

theorem Exchanged.after (exchanged : Exchanged p cmd reply t) (u : List (Sigma Ans)) :
    Exchanged p cmd reply (u ++ t) := by
  obtain ⟨v, c, rfl⟩ := exchanged
  exact ⟨u ++ v, c, (List.append_assoc ..).symm⟩

/-- A request that gets a reply is one `send` and one wait. -/
private theorem wpaSendRawCmd_ok {s : Option Conn}
    (path : (WpaCtrl.sendRawCmd s cmd).Path t (.ok reply)) :
    ∃ c, t = [⟨.send (some c) cmd, .ok reply.command⟩,
      ⟨.recv c, .reply ⟨reply.text, reply.origin⟩⟩] := by
  obtain ⟨first, _, answer, rfl, requested, judged⟩ := (Prog.path_bind _ _ _ _).mp path
  obtain ⟨ret, errno, reply'⟩ := answer
  simp only at judged
  split at judged
  · obtain ⟨_, same⟩ := (Prog.path_ret _ _ _).mp judged
    cases same
  next zero =>
    split at judged
    · obtain ⟨x, _⟩ := (Prog.path_call _ _ _ _).mp judged
      exact x.elim
    · obtain ⟨rfl, same⟩ := (Prog.path_ret _ _ _).mp judged
      cases same
      unfold WpaCtrl.request at requested
      obtain ⟨sent, _, rfl, received⟩ := (Prog.path_perform_bind _ _ _ _).mp requested
      -- Only a reply has the code 0.
      split at received
      · obtain ⟨answer, _, rfl, ended⟩ := (Prog.path_perform_bind _ _ _ _).mp received
        cases answer with
        | reply d =>
          obtain ⟨rfl, same⟩ := (Prog.path_ret _ _ _).mp ended
          cases same
          exact ⟨_, rfl⟩
        | timeout =>
          obtain ⟨_, same⟩ := (Prog.path_ret _ _ _).mp ended
          cases same
          exact absurd (by decide) zero
        | failed e =>
          obtain ⟨_, same⟩ := (Prog.path_ret _ _ _).mp ended
          cases same
          exact absurd (by decide) zero
      · obtain ⟨_, same⟩ := (Prog.path_ret _ _ _).mp received
        cases same
        exact absurd (by decide) zero
      · obtain ⟨_, same⟩ := (Prog.path_ret _ _ _).mp received
        cases same
        exact absurd (by decide) zero

theorem sendRawCmd_exchanged (path : (SharedSocket.sendRawCmd p cmd).Path t (.ok reply)) :
    Exchanged p cmd reply t := by
  obtain ⟨_, _, rfl, locked⟩ := (Prog.path_perform_bind _ _ _ _).mp path
  obtain ⟨s, _, rfl, reads⟩ := (Prog.path_perform_bind _ _ _ _).mp locked
  obtain ⟨first, _, out, rfl, requested, judged⟩ := (Prog.path_bind _ _ _ _).mp reads
  cases out with
  | ok reply' =>
    obtain ⟨_, _, rfl, ends⟩ := (Prog.path_perform_bind _ _ _ _).mp judged
    obtain ⟨rfl, same⟩ := (Prog.path_ret _ _ _).mp ends
    cases same
    obtain ⟨c, rfl⟩ := wpaSendRawCmd_ok requested
    exact ⟨[_, _], c, rfl⟩
  | error err =>
    simp only at judged
    split at judged
    · obtain ⟨again, _, reconnected, rfl, reconnects, goes_on⟩ :=
        (Prog.path_bind _ _ _ _).mp judged
      cases reconnected with
      | some err' =>
        obtain ⟨_, _, rfl, ends⟩ := (Prog.path_perform_bind _ _ _ _).mp goes_on
        obtain ⟨_, same⟩ := (Prog.path_ret _ _ _).mp ends
        cases same
      -- The reply is that to the second request.
      | none =>
        obtain ⟨s', _, rfl, again_on⟩ := (Prog.path_perform_bind _ _ _ _).mp goes_on
        obtain ⟨second, _, out, rfl, requests, returns⟩ := (Prog.path_bind _ _ _ _).mp again_on
        obtain ⟨_, _, rfl, ends⟩ := (Prog.path_perform_bind _ _ _ _).mp returns
        obtain ⟨rfl, rfl⟩ := (Prog.path_ret _ _ _).mp ends
        obtain ⟨c, rfl⟩ := wpaSendRawCmd_ok requests
        have last : Exchanged p cmd reply [⟨.send (some c) cmd, .ok reply.command⟩,
            ⟨.recv c, .reply ⟨reply.text, reply.origin⟩⟩, ⟨.unlock (.smu p), ()⟩] := ⟨[], c, rfl⟩
        exact (((last.after [_]).after again).after first).after [_, _]
    · obtain ⟨_, _, rfl, ends⟩ := (Prog.path_perform_bind _ _ _ _).mp judged
      obtain ⟨_, same⟩ := (Prog.path_ret _ _ _).mp ends
      cases same

end

/-- If every command is sent on a connection whose earlier requests all got a reply, the
reply that `SendRawCmd` returns answers its own command: the number that it has for it is that of
the `send` of `cmd` by this call, on the connection on which the reply was read. -/
theorem own_reply [Fintype ι] [DecidableEq ι] {c : Config ι Op Ans (State ι) Call Res}
    (run : Reach (system ι m) (disciplinedAnd sendsAfterReplies) (initial ι) c) (i : ι) (p : Ptr)
    (cmd : GoString) (reply : Reply)
    (returns : c.thread i = .running (.sendRawCmd p cmd) (.ret (.sendRawCmd (.ok reply)))) :
    reply.origin = some reply.command ∧
      ∀ t, Traced (system ι m) (disciplinedAnd sendsAfterReplies) (initial ι) t c →
        Exchanged p cmd reply (performed i t) := by
  have ok : (proof ι ⟨False, False, False, True⟩ m).ConfigOk c := by
    apply reach_ok
    exact Reach.weaken (C := disciplinedAnd sendsAfterReplies) (fun _ _ _ h => h)
      (fun _ _ _ _ h => ⟨False.elim, False.elim, False.elim, fun _ => h⟩) run
  have post : c.state.taken i = c.state.held i ∧ Replied _ (.ok reply) := ok.post returns
  refine ⟨post.2 reply rfl trivial, fun t traced => ?_⟩
  obtain ⟨before, u, split, leads⟩ := traced.leads (fun _ => rfl) returns
  obtain ⟨r, path, same⟩ := (Prog.path_map _ _ _ _).mp leads.path
  cases same
  rw [split]
  exact (sendRawCmd_exchanged path).after before

/-- The reply that a thread returns -/
def returned : Thread Op Ans Call Res → Option Reply
  | .running (.sendRawCmd _ _) (.ret (.sendRawCmd (.ok reply))) => some reply
  | _ => none

private theorem returned_eq {t : Thread Op Ans Call Res} {reply : Reply}
    (ret : returned t = some reply) :
    ∃ p cmd, t = .running (.sendRawCmd p cmd) (.ret (.sendRawCmd (.ok reply))) := by
  unfold returned at ret
  split at ret
  · cases ret
    exact ⟨_, _, rfl⟩
  · cases ret

theorem own_reply_pong :
    ∃ c, Reach (system (Fin 1) ⟨[], [], 0⟩) (disciplinedAnd sendsAfterReplies)
        (initial (Fin 1)) c ∧
      ∃ p cmd reply, c.thread 0 = .running (.sendRawCmd p cmd) (.ret (.sendRawCmd (.ok reply))) ∧
        reply.text = lit "PONG\n" ∧ reply.origin = some reply.command ∧
        ∃ t, Traced (system (Fin 1) ⟨[], [], 0⟩) (disciplinedAnd sendsAfterReplies)
          (initial (Fin 1)) t c ∧ Exchanged p cmd reply (performed 0 t) := by
  obtain ⟨c, run, last⟩ := exists_run (ι := Fin 1) ⟨[], [], 0⟩ sendsAfterReplies
    (uninterrupted 0 (.get (lit "a")) (List.replicate 13 .go) ++
      [.start 0 (.sendRawCmd 0 (lit "PING")), .step 0 .go, .step 0 .go, .step 0 .go,
        .env (.answer 0 0 (lit "PONG\n")), .step 0 .go, .step 0 .go])
    (fun c => (returned (c.thread 0)).any fun reply => reply.text == lit "PONG\n")
    (by decide +kernel)
  obtain ⟨reply, ret, text⟩ := (Option.any_eq_true _ _).mp last
  obtain ⟨p, cmd, returns⟩ := returned_eq ret
  obtain ⟨own, exchanged⟩ := own_reply run 0 p cmd reply returns
  obtain ⟨t, traced⟩ := run.exists_traced
  exact ⟨c, run, p, cmd, reply, returns, eq_of_beq text, own, t, traced, exchanged t traced⟩

/-- A reply that comes after the timeout answers the next command. -/
theorem late_reply :
    ∃ c, Reach (system (Fin 1) ⟨[], [], 0⟩) disciplined (initial (Fin 1)) c ∧
      ∃ p cmd reply, c.thread 0 = .running (.sendRawCmd p cmd) (.ret (.sendRawCmd (.ok reply))) ∧
        reply.origin ≠ some reply.command := by
  obtain ⟨c, run, last⟩ := exists_run (ι := Fin 1) ⟨[], [], 0⟩ (fun _ _ _ _ => true)
    (uninterrupted 0 (.get (lit "a")) (List.replicate 13 .go) ++
      uninterrupted 0 (.sendRawCmd 0 (lit "PING")) [.go, .go, .go, .timeout, .go] ++
      [.env (.answer 0 0 (lit "PONG\n")), .start 0 (.sendRawCmd 0 (lit "STA-FIRST"))] ++
      [.go, .go, .go, .go, .go].map (.step 0))
    (fun c => (returned (c.thread 0)).any fun reply => reply.origin != some reply.command)
    (by decide +kernel)
  obtain ⟨reply, ret, differs⟩ := (Option.any_eq_true _ _).mp last
  obtain ⟨p, cmd, returns⟩ := returned_eq ret
  exact ⟨c, run, p, cmd, reply, returns, by simpa using differs⟩

end HostapdGrpc.Socket
