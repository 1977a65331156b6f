import HostapdGrpc.Server.Err
import HostapdGrpc.Socket.Manager

/-!
# Two encodings of an error

A `RequestError` becomes a `SocketError` of a response, or a status of which a `SocketError` can
be made. Only the first way is prepared for an error without `Errno`.
-/

namespace HostapdGrpc.Server

open Go Interaction

/-- The errors that `wpaCtrl.SendRawCmd` can return: an `Errno` that is not a `syscall.Errno` is
nil. -/
structure Returnable (rErr : RequestError) : Prop where
  code : rErr.code ≠ 0
  errno : rErr.errno = none ∨ ∃ e, rErr.errno = some (.errno e)

/-- The error is encoded by way of a status, like without one. -/
def Agrees (rErr : RequestError) : Prop :=
  ∃ st, errToStatus (.request rErr) = some st ∧
    (statusToHostapdErr st).code = (reqErrToHostapdErr rErr).code ∧
      (statusToHostapdErr st).msg = (reqErrToHostapdErr rErr).msg

/-- No other error comes out of `wpaCtrl.SendRawCmd`. -/
theorem returnable_of_path {s : Option Socket.Conn} {cmd : GoString}
    {t : List (Sigma Socket.Ans)} {err : GoError}
    (path : (Socket.WpaCtrl.sendRawCmd s cmd).Path t (.error err)) :
    ∃ rErr, err = .request rErr ∧ Returnable rErr := by
  obtain ⟨_, rest, ⟨ret, errno, reply⟩, rfl, _, judged⟩ := (Prog.path_bind _ _ _ _).mp path
  simp only at judged
  split at judged
  next failed =>
    obtain ⟨_, same⟩ := (Prog.path_ret _ _ _).mp judged
    refine ⟨⟨Socket.WpaCtrl.cgoError errno, ret⟩, Except.error.inj same, failed, ?_⟩
    unfold Socket.WpaCtrl.cgoError
    split
    · exact .inl rfl
    · exact .inr ⟨errno, rfl⟩
  · split at judged
    · obtain ⟨x, _⟩ := (Prog.path_call _ _ _ _).mp judged
      exact x.elim
    · obtain ⟨_, same⟩ := (Prog.path_ret _ _ _).mp judged
      cases same

/-- The codes agree, whatever the error. -/
private theorem code_agrees (rErr : RequestError) (message : GoString) :
    (statusToHostapdErr ⟨grpcCodeFromRequestError rErr, message⟩).code =
      (reqErrToHostapdErr rErr).code := by
  unfold statusToHostapdErr grpcCodeFromRequestError reqErrToHostapdErr
  split <;> rfl

/-- The two encodings agree just on the errors that have an `Errno`; without one there is no
status. -/
theorem encodings_agree_iff {rErr : RequestError} (returnable : Returnable rErr) :
    Agrees rErr ↔ rErr.errno ≠ none := by
  obtain ⟨errno, code⟩ := rErr
  obtain ⟨_, rfl | ⟨e, rfl⟩⟩ := returnable
  · simp [Agrees, errToStatus]
  · refine iff_of_true ⟨_, rfl, code_agrees _ _, rfl⟩ (by simp)

/-- The connection is refused. -/
theorem encodings_agree_iff_refused : Agrees ⟨some (.errno 111), internal⟩ :=
  (encodings_agree_iff ⟨by decide, .inr ⟨111, rfl⟩⟩).mpr (by simp)

/-- A request that times out returns an error of which `errToStatus` cannot make a status. -/
theorem timeout_not_encoded : ∃ t rErr,
    (Socket.WpaCtrl.sendRawCmd (some 0) (lit "PING")).Path t (.error (.request rErr)) ∧
      rErr = ⟨none, deadlineExceeded⟩ ∧ errToStatus (.request rErr) = none ∧ ¬ Agrees rErr := by
  refine ⟨[⟨.send (some 0) (lit "PING"), .ok 0⟩, ⟨.recv 0, .timeout⟩], _,
    .call _ (.call _ (.ret _)), rfl, rfl, ?_⟩
  rintro ⟨st, encoded, _⟩
  cases encoded

end HostapdGrpc.Server
