import HostapdGrpc.Interaction.Interpret
import Mathlib.Logic.Relation
import Mathlib.Logic.IsEmpty.Basic

/-!
# Lock ordering

Locks have ranks. A caller that acquires a lock only above all locks it holds, releases only
what it holds, and holds nothing between calls, is never part of a cycle of callers that wait
for each other. Nothing is assumed of the other operations: they may be answered anything.
-/

namespace Interaction

variable {ι Op : Type} {Ans : Op → Type} {L Call Res α β : Type}

/-- What an operation does to the locks -/
inductive LockUse (L : Type) where
  | acquire (l : L)
  | release (l : L)
  | none

/-- The locks of a part among all locks -/
def LockUse.map {L' : Type} (f : L → L') : LockUse L → LockUse L'
  | .acquire l => .acquire (f l)
  | .release l => .release (f l)
  | .none => .none

/-- A caller waits if the lock it is about to acquire is held; any other operation takes the
answer that is chosen for it. -/
def lockSystem [DecidableEq ι] [DecidableEq L] (use : Op → LockUse L)
    (body : Call → Prog Op Ans Res) :
    System ι Op Ans (L → Option ι) ((op : Op) → Option (Ans op)) Call Res where
  exec i op choice s :=
    match use op with
    | .acquire l =>
      if s l = none then (choice op).map fun a => (a, Function.update s l (some i)) else none
    | .release l => (choice op).map fun a => (a, Function.update s l none)
    | .none => (choice op).map fun a => (a, s)
  body := body
  start _ _ s := some s
  finish _ _ _ s := s
  env _ _ := none

/-- All locks free, no caller in a call -/
def unlocked : Config ι Op Ans (L → Option ι) Call Res := ⟨fun _ => none, fun _ => .idle⟩

/-! ### Waiting -/

section
variable (use : Op → LockUse L) (c : Config ι Op Ans (L → Option ι) Call Res)

/-- The lock that `i` is about to acquire -/
def Wants (i : ι) (l : L) : Prop :=
  ∃ call op k, c.thread i = .running call (.call op k) ∧ use op = .acquire l

def WaitsFor (i j : ι) : Prop := ∃ l, Wants use c i l ∧ c.state l = some j

/-- The next operation has no answer, so that nothing comes after it. -/
def Halts (i : ι) : Prop :=
  ∃ call op k, c.thread i = .running call (.call op k) ∧ IsEmpty (Ans op)

end

def CanStep {σ Choice : Type} [DecidableEq ι] (S : System ι Op Ans σ Choice Call Res)
    (c : Config ι Op Ans σ Call Res) (i : ι) : Prop :=
  (∃ choice c', S.next (.step i choice) c = some c') ∨ ∃ c', S.next (.finish i) c = some c'

/-! ### Programs that respect the order -/

section
variable (use : Op → LockUse L) (rank : L → Nat) [DecidableEq L]

/-- With the locks `held`, `p` acquires a lock only above all it holds, releases only what it
holds, and ends with the locks `after`. -/
def Ordered (held : List L) (p : Prog Op Ans α) (after : List L) : Prop :=
  match p with
  | .ret _ => held = after
  | .call op k =>
    match use op with
    | .acquire l => (∀ h ∈ held, rank h < rank l) ∧ ∀ x, Ordered (l :: held) (k x) after
    | .release l => l ∈ held ∧ ∀ x, Ordered (held.filter (· ≠ l)) (k x) after
    | .none => ∀ x, Ordered held (k x) after

variable {use rank} {held mid after : List L}

namespace Ordered

theorem ret (a : α) : Ordered use rank held (.ret a : Prog Op Ans α) held := rfl

theorem bind {p : Prog Op Ans α} {f : α → Prog Op Ans β} (first : Ordered use rank held p mid)
    (second : ∀ a, Ordered use rank mid (f a) after) : Ordered use rank held (p >>= f) after := by
  -- Every operation changes what is held in the rest, so the start is general.
  induction p generalizing held with
  | ret a =>
    cases first
    exact second a
  | call op k ih =>
    simp only [Prog.call_bind, Ordered] at first ⊢
    cases op_use : use op with
    | acquire l =>
      simp only [op_use] at first ⊢
      exact ⟨first.1, fun x => ih x (first.2 x)⟩
    | release l =>
      simp only [op_use] at first ⊢
      exact ⟨first.1, fun x => ih x (first.2 x)⟩
    | none =>
      simp only [op_use] at first ⊢
      exact fun x => ih x (first x)

theorem map {p : Prog Op Ans α} (first : Ordered use rank held p after) (f : α → β) :
    Ordered use rank held (f <$> p) after :=
  first.bind fun a => .ret (f a)

theorem acquire {op : Op} {l : L} (op_use : use op = .acquire l)
    (above : ∀ h ∈ held, rank h < rank l) :
    Ordered use rank held (Prog.perform op : Prog Op Ans (Ans op)) (l :: held) := by
  simp only [Prog.perform, Ordered, op_use]
  exact ⟨above, fun _ => trivial⟩

theorem release {op : Op} {l : L} (op_use : use op = .release l) (once : l ∉ held) :
    Ordered use rank (l :: held) (Prog.perform op : Prog Op Ans (Ans op)) held := by
  have rest : (l :: held).filter (· ≠ l) = held := by
    rw [List.filter_cons_of_neg (by simp), List.filter_eq_self]
    intro h member
    simpa using fun same : h = l => once (same ▸ member)
  simp only [Prog.perform, Ordered, op_use]
  exact ⟨List.mem_cons_self, fun _ => rest⟩

theorem of_only {p : Prog Op Ans α} (only : p.Only fun op => use op = .none) :
    Ordered use rank held p held := by
  induction only with
  | ret a => exact .ret a
  | call here _ ih =>
    simp only [Ordered, here]
    exact ih

theorem other {op : Op} (op_use : use op = .none) :
    Ordered use rank held (Prog.perform op : Prog Op Ans (Ans op)) held :=
  of_only (.perform op_use)

end Ordered

end

/-! ### The proof about the pool -/

variable [DecidableEq ι] [DecidableEq L]

/-- The locks that `i` holds are those of the list. -/
def Exactly (i : ι) (held : List L) (s : L → Option ι) : Prop := ∀ l, s l = some i ↔ l ∈ held

/-- To acquire a lock not above those held, or to release one not held, is bad. -/
def lockLogic (use : Op → LockUse L) (rank : L → Nat) (body : Call → Prog Op Ans Res) :
    Logic ι Op Ans (L → Option ι) ((op : Op) → Option (Ans op)) Call Res where
  sys := lockSystem use body
  cond := ⟨fun _ _ _ => True, fun _ _ _ _ => True⟩
  inv _ := True
  rely i s s' := ∀ l, s l = some i ↔ s' l = some i
  bad i op s :=
    match use op with
    | .acquire l => ∃ h, s h = some i ∧ rank l ≤ rank h
    | .release l => s l ≠ some i
    | .none => False
  rely_refl _ _ _ := Iff.rfl
  rely_trans _ _ _ _ first second l := (first l).trans (second l)
  guarantee i op choice s a s' _ safe done j other l := by
    simp only [lockSystem] at done
    cases op_use : use op with
    | acquire l' =>
      simp only [op_use] at done
      split at done
      next free =>
        obtain ⟨_, _, ⟨⟩⟩ := Option.map_eq_some_iff.mp done
        -- A free lock is nobody's, and becomes the lock of `i`.
        by_cases same : l = l'
        · subst same
          simp [free, Ne.symm other]
        · simp [Function.update_of_ne same]
      · cases done
    | release l' =>
      simp only [op_use] at done safe
      obtain ⟨_, _, ⟨⟩⟩ := Option.map_eq_some_iff.mp done
      -- Not bad: the lock that is released is the lock of `i`.
      by_cases same : l = l'
      · subst same
        simp [not_not.mp safe, Ne.symm other]
      · simp [Function.update_of_ne same]
    | none =>
      simp only [op_use] at done
      obtain ⟨_, _, ⟨⟩⟩ := Option.map_eq_some_iff.mp done
      rfl

section
variable {use : Op → LockUse L} {rank : L → Nat} {body : Call → Prog Op Ans Res}
  {held after : List L}

theorem Exactly.stable (i : ι) (held : List L) :
    (lockLogic use rank body).Stable i (Exactly i held) :=
  fun _ _ _ _ rely exact_held l => (rely l).symm.trans (exact_held l)

/-- Programs that respect the order are verified. -/
theorem Ordered.triple {p : Prog Op Ans α} (ordered : Ordered use rank held p after) (i : ι) :
    (lockLogic use rank body).Triple i (Exactly i held) p fun _ => Exactly i after := by
  induction p generalizing held with
  | ret a =>
    cases ordered
    exact fun _ _ pre => pre
  | call op k ih =>
    intro s _ pre
    -- Whatever is held after the operation is held until the next one.
    have onward : ∀ next a s', Exactly i next s' → Ordered use rank next (k a) after →
        True ∧ ∀ s'', True → (∀ l, s' l = some i ↔ s'' l = some i) →
          (lockLogic use rank body).wp i (k a) (fun _ => Exactly i after) s'' :=
      fun next a s' now rest => ⟨trivial, fun s'' _ rely =>
        ih a rest s'' trivial fun l => (rely l).symm.trans (now l)⟩
    simp only [Ordered] at ordered
    cases op_use : use op with
    | acquire l =>
      simp only [op_use] at ordered
      refine ⟨?_, fun choice a s' _ done => ?_⟩
      · simp only [lockLogic, op_use, not_exists, not_and, Nat.not_le]
        exact fun h mine => ordered.1 h ((pre h).mp mine)
      · simp only [lockLogic, lockSystem, op_use] at done
        split at done
        next free =>
          obtain ⟨_, _, ⟨⟩⟩ := Option.map_eq_some_iff.mp done
          refine onward (l :: held) a _ (fun l' => ?_) (ordered.2 a)
          by_cases same : l' = l
          · subst same
            simp
          · simpa [Function.update_of_ne same, same] using pre l'
        · cases done
    | release l =>
      simp only [op_use] at ordered
      refine ⟨?_, fun choice a s' _ done => ?_⟩
      · simp only [lockLogic, op_use, ne_eq, not_not]
        exact (pre l).mpr ordered.1
      · simp only [lockLogic, lockSystem, op_use] at done
        obtain ⟨_, _, ⟨⟩⟩ := Option.map_eq_some_iff.mp done
        refine onward (held.filter (· ≠ l)) a _ (fun l' => ?_) (ordered.2 a)
        by_cases same : l' = l
        · subst same
          simp
        · simpa [Function.update_of_ne same, same] using pre l'
    | none =>
      simp only [op_use] at ordered
      refine ⟨?_, fun choice a s' _ done => ?_⟩
      · simp [lockLogic, op_use]
      · simp only [lockLogic, lockSystem, op_use] at done
        obtain ⟨_, _, ⟨⟩⟩ := Option.map_eq_some_iff.mp done
        exact onward held a _ pre (ordered a)

def lockProof (ordered : ∀ call, Ordered use rank [] (body call) []) :
    Proof ι Op Ans (L → Option ι) ((op : Op) → Option (Ans op)) Call Res where
  toLogic := lockLogic use rank body
  idle i := Exactly i []
  pre i _ := Exactly i []
  post i _ _ := Exactly i []
  idle_stable i := Exactly.stable i []
  pre_stable i _ := Exactly.stable i []
  start_ok i call s s' _ free _ started := by
    cases started
    exact ⟨trivial, free, fun _ _ _ => Iff.rfl⟩
  body_ok i call := (ordered call).triple i
  finish_ok i call r s _ free := ⟨trivial, free, fun _ _ _ => Iff.rfl⟩
  env_ok _ _ _ _ moved := by cases moved

/-- What is known in every configuration of a run -/
theorem lockProof_ok (ordered : ∀ call, Ordered use rank [] (body call) [])
    {c : Config ι Op Ans (L → Option ι) Call Res}
    (run : Reach (lockSystem use body) ⟨fun _ _ _ => True, fun _ _ _ _ => True⟩ unlocked c) :
    (lockProof ordered).ConfigOk c :=
  (lockProof ordered).sound unlocked c ⟨trivial, fun i l => by simp [unlocked]⟩ run

/-! ### No cycle, and always a step -/

variable {c : Config ι Op Ans (L → Option ι) Call Res}

/-- Whoever is waited for waits only for a lock of a higher rank. -/
theorem rank_lt (ordered : ∀ call, Ordered use rank [] (body call) [])
    (run : Reach (lockSystem use body) ⟨fun _ _ _ => True, fun _ _ _ _ => True⟩ unlocked c)
    {j : ι} {l l' : L} (holds : c.state l = some j) (wants : Wants use c j l') :
    rank l < rank l' := by
  obtain ⟨call, op, k, at_op, op_use⟩ := wants
  have safe := (lockProof_ok ordered run).not_bad at_op
  by_contra not_above
  refine safe ?_
  simp only [lockProof, lockLogic, op_use]
  exact ⟨l, holds, Nat.le_of_not_lt not_above⟩

omit [DecidableEq ι] [DecidableEq L] in
theorem Wants.unique {i : ι} {l l' : L} (wants : Wants use c i l) (wants' : Wants use c i l') :
    l = l' := by
  obtain ⟨call, op, k, at_op, op_use⟩ := wants
  obtain ⟨call', op', k', at_op', op_use'⟩ := wants'
  rw [at_op] at at_op'
  cases at_op'
  exact LockUse.acquire.inj (op_use.symm.trans op_use')

/-- No callers wait for each other in a cycle. -/
theorem no_wait_cycle (ordered : ∀ call, Ordered use rank [] (body call) [])
    (run : Reach (lockSystem use body) ⟨fun _ _ _ => True, fun _ _ _ _ => True⟩ unlocked c)
    (i : ι) : ¬ Relation.TransGen (WaitsFor use c) i i := by
  -- Along a chain of waiting callers, the lock that the last one wants has the highest rank.
  have chain : ∀ j, Relation.TransGen (WaitsFor use c) i j → ∀ l', Wants use c j l' →
      ∃ l, Wants use c i l ∧ rank l < rank l' := by
    intro j waits
    induction waits with
    | single waits =>
      obtain ⟨l, wants, holds⟩ := waits
      exact fun l' wants' => ⟨l, wants, rank_lt ordered run holds wants'⟩
    | tail _ waits ih =>
      obtain ⟨l, wants, holds⟩ := waits
      intro l' wants'
      obtain ⟨first, wants_first, lt⟩ := ih l wants
      exact ⟨first, wants_first, Nat.lt_trans lt (rank_lt ordered run holds wants')⟩
  intro cycle
  obtain ⟨_, ⟨l, wants, _⟩, _⟩ := Relation.TransGen.head'_iff.mp cycle
  obtain ⟨l', wants', lt⟩ := chain i cycle l wants
  cases wants.unique wants'
  exact Nat.lt_irrefl _ lt

omit [DecidableEq ι] [DecidableEq L] in
/-- A choice that answers `op` with `a`, and no other operation -/
theorem exists_answer (op : Op) (a : Ans op) :
    ∃ choice : (op : Op) → Option (Ans op), choice op = some a := by
  classical
  exact ⟨fun op' => if same : op = op' then some (same ▸ a) else none, by simp⟩

/-- A caller that does not wait takes its step, unless nothing can come after it. -/
theorem canStep_or_halts {i : ι} {call : Call} {op : Op} {k : Ans op → Prog Op Ans Res}
    (at_op : c.thread i = .running call (.call op k))
    (free : ∀ l, use op = .acquire l → c.state l = none) :
    CanStep (lockSystem use body) c i ∨ Halts c i := by
  by_cases answer : Nonempty (Ans op)
  · obtain ⟨a⟩ := answer
    obtain ⟨choice, chosen⟩ := exists_answer op a
    refine .inl (.inl ⟨choice, ?_⟩)
    simp only [System.next, at_op, Option.map_eq_some_iff]
    cases op_use : use op with
    | acquire l => simp [lockSystem, op_use, free l op_use, chosen]
    | release l => simp [lockSystem, op_use, chosen]
    | none => simp [lockSystem, op_use, chosen]
  · exact .inr ⟨call, op, k, at_op, not_nonempty_iff.mp answer⟩

/-- The caller is in a call, and not about to acquire a lock that is held. -/
def Unblocked (use : Op → LockUse L) (c : Config ι Op Ans (L → Option ι) Call Res) (j : ι) : Prop :=
  ∃ call p, c.thread j = .running call p ∧
    ∀ op k l, p = .call op k → use op = .acquire l → c.state l = none

/-- While a caller is in a call, some caller does not wait. -/
theorem exists_unblocked (ordered : ∀ call, Ordered use rank [] (body call) [])
    {bound : Nat} (bounded : ∀ l, rank l < bound)
    (run : Reach (lockSystem use body) ⟨fun _ _ _ => True, fun _ _ _ _ => True⟩ unlocked c)
    {i : ι} (busy : c.thread i ≠ .idle) : ∃ j, Unblocked use c j := by
  by_cases waits : ∃ l, Wants use c i l
  · obtain ⟨l, wants⟩ := waits
    -- From a holder that waits on to the holder of a lock of a higher rank
    generalize distance : bound - rank l = n
    induction n using Nat.strongRecOn generalizing i l with
    | ind n ih =>
      cases holder : c.state l with
      -- The lock is free: its caller need not wait.
      | none =>
        obtain ⟨call, op, k, at_op, op_use⟩ := wants
        refine ⟨i, call, _, at_op, fun op' k' l' same op_use' => ?_⟩
        cases same
        cases op_use.symm.trans op_use'
        exact holder
      | some j =>
        have known := (lockProof_ok ordered run).2 j
        cases thread : c.thread j with
        -- Between calls a caller holds no lock.
        | idle =>
          rw [thread] at known
          exact absurd ((known l).mp holder) (by simp)
        | running call p =>
          by_cases waits : ∃ l', Wants use c j l'
          · -- The holder wants a lock above, and the ranks are bounded.
            obtain ⟨l', wants'⟩ := waits
            have above := rank_lt ordered run holder wants'
            have below := bounded l'
            have next_busy : c.thread j ≠ .idle := fun idle => by
              rw [idle] at thread
              cases thread
            exact ih (bound - rank l') (by omega) next_busy l' wants' rfl
          · refine ⟨j, call, p, thread, fun op k l' same op_use => ?_⟩
            exact absurd ⟨l', call, op, k, same ▸ thread, op_use⟩ waits
  · cases thread : c.thread i with
    | idle => exact absurd thread busy
    | running call p =>
      refine ⟨i, call, p, thread, fun op k l same op_use => ?_⟩
      exact absurd ⟨l, call, op, k, same ▸ thread, op_use⟩ waits

/-- While a caller waits, some caller can take a step. -/
theorem exists_canStep (ordered : ∀ call, Ordered use rank [] (body call) [])
    {bound : Nat} (bounded : ∀ l, rank l < bound)
    (run : Reach (lockSystem use body) ⟨fun _ _ _ => True, fun _ _ _ _ => True⟩ unlocked c)
    {i : ι} {l : L} (wants : Wants use c i l) :
    ∃ j, CanStep (lockSystem use body) c j ∨ Halts c j := by
  have busy : c.thread i ≠ .idle := fun idle => by
    obtain ⟨call, op, k, at_op, _⟩ := wants
    rw [idle] at at_op
    cases at_op
  obtain ⟨j, call, p, thread, free⟩ := exists_unblocked ordered bounded run busy
  cases p with
  | ret r => exact ⟨j, .inl (.inr (by simp [System.next, thread]))⟩
  | call op k => exact ⟨j, canStep_or_halts thread fun l => free op k l rfl⟩

end

/-! ### Programs over programs -/

section
variable {Op' L' : Type} {Ans' : Op' → Type} {use : Op → LockUse L} {rank : L → Nat}
  {use' : Op' → LockUse L'} {rank' : L' → Nat} [DecidableEq L']
  {handle : (op : Op) → Prog Op' Ans' (Ans op)}

omit [DecidableEq ι] [DecidableEq L] in
/-- A lock that is held, and not only as the last one -/
theorem Ordered.drop {op : Op'} {l : L'} {held : List L'} (op_use : use' op = .release l)
    (member : l ∈ held) : Ordered use' rank' held
      (Prog.perform op : Prog Op' Ans' (Ans' op)) (held.filter (· ≠ l)) := by
  simp only [Prog.perform, Ordered, op_use]
  exact ⟨member, fun _ => trivial⟩

end

end Interaction
