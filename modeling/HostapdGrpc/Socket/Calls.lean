import HostapdGrpc.Socket.Manager

/-!
# The operations of the functions

Which operations the functions of `manager.go` can come to, whatever these are answered. Most of
them only keep the books: the references, the cache flags and the map.
-/

namespace HostapdGrpc.Socket

open Go Interaction

/-- The operation reads or writes the books, and deletes no entry of the map. -/
def Op.books : Op → Bool
  | .lock (.smu _) | .unlock (.smu _) => false
  | .lock _ | .unlock _ | .refs _ | .incRefs _ | .decRefs _ | .cached _ | .setCached _ _ => true
  | .lookup _ | .insert _ _ | .size | .range | .count | .addCount _ | .panic => true
  | _ => false

section
variable {α : Type} {P : Op → Prop}

/-- An operation before the rest of a program -/
theorem only_then {op : Op} {f : Ans op → Act α} (here : P op) (rest : ∀ x, (f x).Only P) :
    (act op >>= f).Only P :=
  .call here rest

theorem only_panic (here : P .panic) : (panic : Act α).Only P :=
  .call here fun x => x.elim

/-- The last operation before a return -/
theorem only_last {op : Op} {a : α} (here : P op) :
    (do
      let _ ← act op
      pure a : Act α).Only P :=
  only_then here fun _ => .ret a

end

/-! ### `sharedSocket` -/

section
variable (sh : Ptr)

theorem only_testClosed : (SharedSocket.testClosed sh).Only fun op => op.books = true := by
  refine only_then rfl fun cached => ?_
  split
  · exact only_then rfl fun _ => .ret _
  · exact .ret _

theorem only_inc : (SharedSocket.inc sh).Only fun op => op.books = true := by
  refine only_then rfl fun _ => (only_testClosed sh).bind fun closed => ?_
  split
  · exact only_last rfl
  · exact only_then rfl fun _ => only_last rfl

theorem only_cache : (SharedSocket.cache sh).Only fun op => op.books = true := by
  refine only_then rfl fun _ => (only_testClosed sh).bind fun closed => ?_
  split
  · exact only_then rfl fun _ => only_last rfl
  · exact only_last rfl

theorem only_isOpen : (SharedSocket.isOpen sh).Only fun op => op.books = true :=
  only_then rfl fun _ => (only_testClosed sh).bind fun _ => only_last rfl

end

/-! ### `Manager` -/

theorem only_reuse (name : GoString) : (Manager.reuse name).Only fun op => op.books = true := by
  refine only_then rfl fun entry => ?_
  split
  · refine (only_inc _).bind fun closed => ?_
    split <;> exact .ret _
  · exact .ret _

theorem only_storeEntry (name : GoString) (s : Ptr) :
    (Manager.storeEntry name s).Only fun op => op.books = true := by
  refine only_then rfl fun cached => ?_
  split
  · refine (only_cache s).bind fun closed => ?_
    split
    · exact only_panic rfl
    · exact only_then rfl fun _ => .perform rfl
  · exact .perform rfl

end HostapdGrpc.Socket
