import HostapdGrpc.Socket.Preservation

/-!
# Rules for the operations

The rely-guarantee logic of the package, and a rule for each kind of operation.
-/

namespace HostapdGrpc.Socket

open Go Interaction

/-! ### Moves of the peer -/

namespace Connection

variable {ι : Type} {k k' : Connection ι}

theorem Moved.pending_perm (move : Moved k k') : k'.pending.Perm k.pending := by
  cases move with
  | answer n id text sent =>
    obtain ⟨bound, at_n⟩ := List.getElem?_eq_some_iff.mp sent
    have taken : (id :: k.outstanding.eraseIdx n).Perm k.outstanding := by
      rw [← at_n]
      exact List.getElem_cons_eraseIdx_perm bound
    simp only [pending, List.filterMap_append, List.filterMap_cons, List.filterMap_nil]
    calc k.outstanding.eraseIdx n ++ (k.queue.filterMap Datagram.origin ++ [id])
      _ = (k.outstanding.eraseIdx n ++ k.queue.filterMap Datagram.origin) ++ [id] :=
        (List.append_assoc _ _ _).symm
      _ |>.Perm (id :: (k.outstanding.eraseIdx n ++ k.queue.filterMap Datagram.origin)) :=
        List.perm_append_singleton _ _
      _ |>.Perm (k.outstanding ++ k.queue.filterMap Datagram.origin) :=
        taken.append_right _
  | message text isMessage =>
    simp [pending]

theorem Later.pending_perm (later : Later k k') : k'.pending.Perm k.pending := by
  induction later with
  | refl => exact .refl _
  | tail _ move ih => exact move.pending_perm.trans ih

theorem Ready.later (ready : k.Ready) (later : Later k k') : k'.Ready := by
  obtain ⟨-, -, -, sent, replied⟩ := later.fixed
  refine ⟨by rw [sent, replied]; exact ready.replied_le, fun all => ?_⟩
  rw [sent, replied] at all
  have none_left := later.pending_perm
  -- The peer can only answer what is outstanding, so the pending commands stay the same.
  rw [ready.pending_nil all] at none_left
  exact none_left.eq_nil

end Connection

variable {ι : Type}

/-- What a move of the environment is. -/
theorem peer_cases (ch : Choice) (s s' : State ι) (moved : s.peer ch = some s') :
    ∃ c k, (s.conn c).Moved k ∧ s' = s.setConn c k := by
  cases ch with
  | answer c n text =>
    simp only [State.peer] at moved
    split at moved
    next id sent =>
      split at moved
      · cases moved
      · cases moved
        exact ⟨c, _, .answer n id text sent, rfl⟩
    · cases moved
  | message c text =>
    simp only [State.peer] at moved
    split at moved
    · cases moved
    next open_ =>
      cases moved
      exact ⟨c, _, .message text (not_not.mp (not_or.mp open_).2), rfl⟩
  | go => cases moved
  | order entries => cases moved
  | fail e => cases moved
  | timeout => cases moved

theorem peer_rely (c : Conn) (k : Connection ι) (s : State ι) (moved : (s.conn c).Moved k) (i : ι) :
    Rely i s (s.setConn c k) := by
  have later : ∀ d, (s.conn d).Later ((s.setConn c k).conn d) := by
    intro d
    by_cases same : d = c
    · subst same
      simpa [State.setConn] using Relation.ReflTransGen.single moved
    · simpa only [State.setConn, Function.update_of_ne same] using Relation.ReflTransGen.refl
  exact { Rely.refl i s with
    conn := fun d _ _ _ => later d
    opened := fun d _ _ => later d }

section
variable [Fintype ι] {A : Assumptions} {m : Manager}

theorem peer_inv (c : Conn) (k : Connection ι) (s : State ι) (moved : (s.conn c).Moved k)
    (inv : Inv A m s) : Inv A m (s.setConn c k) := by
  have later : (s.conn c).Later k := .single moved
  obtain ⟨opener, home, closed, -, -⟩ := later.fixed
  refine inv.setConn c k opener home (closed ▸ id) ?_ fun replies unused =>
    (inv.ready replies c unused).later later
  -- An answer has an origin, and a message looks like one.
  intro d member unsolicited
  have before := inv.messages c
  cases moved with
  | answer n id text sent =>
    rcases List.mem_append.mp member with old | new
    · exact before d old unsolicited
    · rw [List.mem_singleton.mp new] at unsolicited
      cases unsolicited
  | message text isMessage =>
    rcases List.mem_append.mp member with old | new
    · exact before d old unsolicited
    · rw [List.mem_singleton.mp new]
      exact isMessage

end

/-! ### The logic -/

variable [DecidableEq ι] [Fintype ι]

/-- Rely-guarantee logic for the callers of a `Manager`, in runs that meet `A`. -/
def logic (ι : Type) [DecidableEq ι] [Fintype ι] (A : Assumptions) (m : Manager) :
    Logic ι Op Ans (State ι) Choice Call Res where
  sys := system ι m
  cond := A.condition m
  inv := Inv A m
  rely := Rely
  bad := Bad A
  rely_refl := Rely.refl
  rely_trans _ _ _ _ := Rely.trans
  guarantee i op ch s a s' inv safe done := Rely.of_exec A m i op ch s s' a inv safe done

variable {A : Assumptions} {m : Manager} {i : ι} {P Q : State ι → Prop}

/-- An operation whose answer and effect are functions of the state. -/
theorem det_spec {op : Op} {Q : Ans op → State ι → Prop} (v : State ι → Ans op)
    (f : State ι → State ι) (exec_eq : ∀ s ch, s.exec i op ch = some (v s, f s))
    (safe : ∀ s, Inv A m s → P s → ¬Bad A i op s)
    (effect : ∀ s ch, Inv A m s → P s → (A.condition m).step i op ch s →
      Inv A m (f s) ∧ Q (v s) (f s))
    (stable : ∀ a, (logic ι A m).Stable i (Q a)) : (logic ι A m).Triple i P (act op) Q := by
  apply Logic.Triple.perform safe ?_ stable
  intro s ch a s' inv pre ok done
  have done' : s.exec i op ch = some (a, s') := done
  rw [exec_eq s ch] at done'
  cases done'
  exact effect s ch inv pre ok

/-- A read. -/
theorem read_spec {op : Op} {Q : Ans op → State ι → Prop} (v : State ι → Ans op)
    (exec_eq : ∀ s ch, s.exec i op ch = some (v s, s))
    (safe : ∀ s, Inv A m s → P s → ¬Bad A i op s)
    (gives : ∀ s, Inv A m s → P s → Q (v s) s)
    (stable : ∀ a, (logic ι A m).Stable i (Q a)) : (logic ι A m).Triple i P (act op) Q :=
  det_spec v id exec_eq safe (fun s _ inv pre _ => ⟨inv, gives s inv pre⟩) stable

theorem lock_spec (l : Lock) (known : ∀ s, Inv A m s → P s → l.Allocated s)
    (gives : ∀ s, Inv A m s → P s → s.holder l = none → Q (s.setHolder l (some i)))
    (stable : (logic ι A m).Stable i Q) :
    (logic ι A m).Triple i P (act (.lock l)) fun _ => Q := by
  apply Logic.Triple.perform (fun _ _ _ bad => bad) ?_ fun _ => stable
  intro s ch a s' inv pre _ done
  have done' : s.exec i (.lock l) ch = some (a, s') := done
  simp only [State.exec] at done'
  split at done'
  next free =>
    cases done'
    exact ⟨inv.lock i l free (known s inv pre), gives s inv pre free⟩
  · cases done'

/-! ### Assertions that a lock of the reference counts does not concern -/

/-- `P` is stable and does not speak of who holds `fmu`. -/
structure Framed (A : Assumptions) (m : Manager) (i : ι) (P : State ι → Prop) : Prop where
  stable : (logic ι A m).Stable i P
  fmu : ∀ s p h, P s → P (s.setHolder (.fmu p) h)

/-- Goroutine `i` holds `fmu` of `p`, and `P`. -/
def WithFmu (i : ι) (p : Ptr) (P : State ι → Prop) (s : State ι) : Prop :=
  s.heap.fmu p = some i ∧ P s

theorem Framed.withFmu (framed : Framed A m i P) (p : Ptr) :
    (logic ι A m).Stable i (WithFmu i p P) :=
  fun s s' inv inv' rely h => ⟨(rely.fmu p).mpr h.1, framed.stable s s' inv inv' rely h.2⟩

theorem lockFmu_spec (p : Ptr) (framed : Framed A m i P)
    (known : ∀ s, Inv A m s → P s → p < s.next) :
    (logic ι A m).Triple i P (act (.lock (.fmu p))) fun _ => WithFmu i p P :=
  lock_spec (.fmu p) known
    (fun s _ pre _ => ⟨by simp [State.setHolder], framed.fmu s p (some i) pre⟩) (framed.withFmu p)

theorem unlockFmu_spec (p : Ptr) (framed : Framed A m i P)
    (known : ∀ s, Inv A m s → P s → p < s.next) :
    (logic ι A m).Triple i (WithFmu i p P) (act (.unlock (.fmu p))) fun _ => P :=
  det_spec (fun _ => ()) (fun s => s.setHolder (.fmu p) none) (fun _ _ => rfl)
    (fun _ _ pre bad => bad pre.1)
    (fun s _ inv pre _ =>
      ⟨inv.unlockFmu p (known s inv pre.2), framed.fmu s p none pre.2⟩)
    (fun _ => framed.stable)

end HostapdGrpc.Socket
