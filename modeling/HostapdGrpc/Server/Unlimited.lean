import HostapdGrpc.Interaction.Contracts
import HostapdGrpc.Server.Discipline
import HostapdGrpc.Socket.Counting
import HostapdGrpc.Socket.Devices
import HostapdGrpc.Socket.Unlimited

/-!
# The program without a limit

`main.go` leaves `Limit` at 0. Then the program has no two connections for one name, which is
what the manager is for; and the names of files, as they are listed, have a device each.
-/

namespace HostapdGrpc.Server

open Go Interaction

/-! ### No entry is deleted -/

/-- The operation deletes no entry of `m.sockets`. -/
def MainOp.Keeps (op : MainOp) : Prop := ∀ name, op ≠ .socket (.delete name)

section
variable {m : Socket.Manager}

private theorem keeps_steps {α : Type} {p : Socket.Act α} (only : p.Only Socket.Op.Keeps) :
    (steps p).Only MainOp.Keeps := by
  refine only.interpret _ fun op keeps => ?_
  refine .perform (P := MainOp.Keeps) fun name same => ?_
  cases same
  exact keeps name rfl

private theorem keeps_calling {α : Type} {call : Socket.Call} {p : Socket.Act α}
    {res : α → Socket.Res} (only : p.Only Socket.Op.Keeps) :
    (calling call p res).Only MainOp.Keeps := by
  have enter : (step (.enter call)).Only MainOp.Keeps := .perform fun _ => nofun
  have leave (a : α) : (step (.leave call (res a))).Only MainOp.Keeps := .perform fun _ => nofun
  exact enter.bind fun _ => (keeps_steps only).bind fun a => (leave a).bind fun _ => .ret a

private theorem keeps_overManager (unlimited : m.limit = 0) (op : Op) :
    (overManager m op).Only MainOp.Keeps := by
  cases op with
  | get name => exact keeps_calling (Socket.keeps_get unlimited name)
  | sendRawCmd sock cmd => exact (keeps_calling (Socket.keeps_sendRawCmd sock cmd)).map _
  | close sock => exact keeps_calling (Socket.keeps_close sock)
  | _ => exact .perform fun _ => nofun

end

/-! ### No redundant connections -/

variable {ι : Type} [DecidableEq ι] [Fintype ι] {m : Socket.Manager} {fuel : Nat}
  {c : Config ι MainOp MainAns (Main ι) Task TaskRes}

omit [Fintype ι] in
private theorem evicts (unlimited : m.limit = 0)
    (run : Reach (main ι m fuel) unrestricted (starting ι) c) :
    Reach (main ι m fuel) (mainCondition ⟨True, False, False, False⟩ m fun _ => false)
      (starting ι) c := by
  have keeps := Reach.under (P := MainOp.Keeps) (fun _ _ _ _ _ run at_op => Reach.only
    (fun task => (Prog.Only.any _).interpret _ fun op _ => keeps_overManager unlimited op)
    (fun _ => rfl) run at_op) run
  refine Reach.weaken (C := ⟨fun _ _ _ => True, fun _ op _ _ => True ∧ MainOp.Keeps op⟩)
    (fun _ _ _ _ tidy => by cases tidy) (fun i op ch s ok => ?_) keeps
  rintro op' ch' rfl rfl
  refine ⟨fun _ => ?_, False.elim, False.elim, False.elim⟩
  cases op' with
  | delete name => exact absurd rfl (ok.2 name)
  | _ => rfl

end HostapdGrpc.Server
