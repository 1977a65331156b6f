import HostapdGrpc.Socket.Calls

/-!
# A manager without a limit

If `Limit` is 0, nothing is ever evicted: no step of the package deletes an entry of the map.
-/

namespace HostapdGrpc.Socket

open Go Interaction

/-- The operation deletes no entry of `m.sockets`. -/
def Op.Keeps (op : Op) : Prop := ∀ name, op ≠ .delete name

private theorem keeps_of_books {op : Op} (books : op.books = true) : op.Keeps := by
  rintro name rfl
  cases books

/-! ### `sharedSocket` -/

section
variable (sh : Ptr)

private theorem keeps_request (c : Option Conn) (cmd : GoString) :
    (WpaCtrl.request c cmd).Only Op.Keeps := by
  refine only_then (fun _ => nofun) fun sent => ?_
  split
  · refine only_then (fun _ => nofun) fun received => ?_
    split <;> exact .ret _
  · exact .ret _
  · exact .ret _

private theorem keeps_wpaCtrl (c : Option Conn) (cmd : GoString) :
    (WpaCtrl.sendRawCmd c cmd).Only Op.Keeps := by
  refine (keeps_request c cmd).bind fun answer => ?_
  split
  split
  · exact .ret _
  · split
    · exact only_panic fun _ => nofun
    · exact .ret _

private theorem keeps_reconnect : (SharedSocket.reconnect sh).Only Op.Keeps := by
  refine only_then (fun _ => nofun) fun s => only_then (fun _ => nofun) fun _ => ?_
  refine only_then (fun _ => nofun) fun _ => only_then (fun _ => nofun) fun dirs => ?_
  refine only_then (fun _ => nofun) fun opened => ?_
  split <;> exact only_last fun _ => nofun

theorem keeps_sendRawCmd (cmd : GoString) : (SharedSocket.sendRawCmd sh cmd).Only Op.Keeps := by
  refine only_then (fun _ => nofun) fun _ => only_then (fun _ => nofun) fun s => ?_
  refine (keeps_wpaCtrl s cmd).bind fun first => ?_
  split
  · exact only_last fun _ => nofun
  · split
    · refine (keeps_reconnect sh).bind fun failed => ?_
      split
      · exact only_last fun _ => nofun
      · refine only_then (fun _ => nofun) fun s => (keeps_wpaCtrl s cmd).bind fun second => ?_
        exact only_last fun _ => nofun
    · exact only_last fun _ => nofun

private theorem keeps_closeUnderlying : (SharedSocket.closeUnderlying sh).Only Op.Keeps := by
  refine only_then (fun _ => nofun) fun _ => only_then (fun _ => nofun) fun s => ?_
  refine only_then (fun _ => nofun) fun _ => only_then (fun _ => nofun) fun err => ?_
  exact only_then (fun _ => nofun) fun _ => only_last fun _ => nofun

theorem keeps_close : (SharedSocket.close sh).Only Op.Keeps := by
  refine only_then (fun _ => nofun) fun _ => only_then (fun _ => nofun) fun refs => ?_
  split
  · exact only_last fun _ => nofun
  · refine only_then (fun _ => nofun) fun _ => only_then (fun _ => nofun) fun refs => ?_
    split
    · refine only_then (fun _ => nofun) fun cached => ?_
      split
      · exact keeps_closeUnderlying sh
      · exact only_last fun _ => nofun
    · exact only_last fun _ => nofun

end

/-! ### `Manager` -/

variable {m : Manager}

/-- Only `evict` deletes, and `store` calls it only if there is a limit. -/
theorem keeps_get (unlimited : m.limit = 0) (name : GoString) : (m.get name).Only Op.Keeps := by
  have keeps_store (s : Ptr) : (m.store name s).Only Op.Keeps := by
    unfold Manager.store
    rw [if_neg (not_not.mpr unlimited)]
    exact (only_storeEntry name s).mono fun _ => keeps_of_books
  refine only_then (fun _ => nofun) fun _ => ?_
  refine ((only_reuse name).mono fun _ => keeps_of_books).bind fun found => ?_
  split
  · exact (keeps_store _).bind fun _ => only_last fun _ => nofun
  · refine Prog.Only.bind ?_ fun opened => ?_
    · refine only_then (fun _ => nofun) fun opened => ?_
      split
      · exact .ret _
      · exact only_then (fun _ => nofun) fun _ => .ret _
    · split
      · exact only_last fun _ => nofun
      · exact (keeps_store _).bind fun _ => only_last fun _ => nofun

end HostapdGrpc.Socket
