import HostapdGrpc.Interaction.RelyGuarantee

/-!
# Programs over programs

The operations of one signature are carried out by programs over another. Where each of them
always gives the same answer, a program over the first signature has one outcome, whatever
other callers do between the steps of the second; and a caller that is not waiting for another
can run to it.
-/

namespace Interaction

variable {Op Op' : Type} {Ans : Op → Type} {Ans' : Op' → Type} {α β : Type}

namespace Prog

/-- Each operation of `p` is carried out by its program. -/
def interpret (handle : (op : Op) → Prog Op' Ans' (Ans op)) (p : Prog Op Ans α) :
    Prog Op' Ans' α :=
  match p with
  | ret a => ret a
  | call op k => handle op >>= fun x => interpret handle (k x)

/-- What `p` returns where each operation has one answer, or none -/
def outcome (world : (op : Op) → Option (Ans op)) (p : Prog Op Ans α) : Option α :=
  match p with
  | ret a => some a
  | call op k => (world op).bind fun x => outcome world (k x)

section
variable (handle : (op : Op) → Prog Op' Ans' (Ans op))

theorem interpret_bind (p : Prog Op Ans α) (f : α → Prog Op Ans β) :
    (p >>= f).interpret handle = p.interpret handle >>= fun a => (f a).interpret handle := by
  induction p with
  | ret a => rfl
  | call op k ih =>
    simp only [call_bind, interpret, ih, bind_assoc]

theorem interpret_perform (op : Op) : (perform op).interpret handle = handle op :=
  bind_ret (handle op)

theorem interpret_map (f : α → β) (p : Prog Op Ans α) :
    (f <$> p).interpret handle = f <$> p.interpret handle :=
  interpret_bind handle p fun a => .ret (f a)

/-- If every operation of `p` is carried out with operations that satisfy `P`, then so is `p`. -/
theorem Only.interpret {P : Op' → Prop} {R : Op → Prop} {p : Prog Op Ans α} (only : p.Only R)
    (handled : ∀ op, R op → Only P (handle op)) : Only P (p.interpret handle) := by
  induction only with
  | ret a => exact .ret a
  | @call op k here _ ih => exact (handled op here).bind ih

/-- The operations of `w` are carried out by `t`, one after the other. -/
inductive Carried : List (Sigma Ans) → List (Sigma Ans') → Prop where
  | nil : Carried [] []
  | cons {e : Sigma Ans} {u : List (Sigma Ans')} {w : List (Sigma Ans)} {t : List (Sigma Ans')}
      (first : (handle e.1).Path u e.2) (rest : Carried w t) : Carried (e :: w) (u ++ t)

/-- A path below carries out a path above. -/
theorem path_interpret {p : Prog Op Ans α} {t : List (Sigma Ans')} {a : α}
    (path : (p.interpret handle).Path t a) : ∃ w, p.Path w a ∧ Carried handle w t := by
  induction p generalizing t with
  | ret b =>
    obtain ⟨rfl, rfl⟩ := (path_ret _ _ _).mp path
    exact ⟨[], .ret _, .nil⟩
  | call op k ih =>
    obtain ⟨u, t', x, rfl, first, rest⟩ := (path_bind _ _ _ _).mp path
    obtain ⟨w, above, carried⟩ := ih x rest
    exact ⟨⟨op, x⟩ :: w, .call x above, .cons (e := ⟨op, x⟩) first carried⟩

/-- Programs over programs over programs -/
theorem interpret_interpret {Op'' : Type} {Ans'' : Op'' → Type}
    (handle' : (op : Op') → Prog Op'' Ans'' (Ans' op)) (p : Prog Op Ans α) :
    (p.interpret handle).interpret handle' =
      p.interpret fun op => (handle op).interpret handle' := by
  induction p with
  | ret a => rfl
  | call op k ih => simp only [Prog.interpret, interpret_bind, ih]

end

end Prog

/-! ### The outcome under interleaving -/

section
variable {ι σ Choice Call Res : Type} {L : Logic ι Op' Ans' σ Choice Call Res} {i : ι}
  {P : σ → Prop} {world : (op : Op) → Option (Ans op)}

/-- If every operation gets its answer in the world, the program gets its outcome there. -/
theorem Logic.Triple.interpret {handle : (op : Op) → Prog Op' Ans' (Ans op)}
    (handled : ∀ op, L.Triple i P (handle op) fun x s => P s ∧ world op = some x)
    (p : Prog Op Ans α) :
    L.Triple i P (p.interpret handle) fun a s => P s ∧ p.outcome world = some a := by
  induction p with
  | ret a => exact .ret a fun s _ pre => ⟨pre, rfl⟩
  | call op k ih =>
    refine (handled op).bind fun x => ?_
    refine .assume (fun s _ mid => mid.2) fun answer => ?_
    refine (ih x).weaken (fun s _ mid => mid.1) fun a s _ post => ⟨post.1, ?_⟩
    simp only [Prog.outcome, answer, Option.bind_some]
    exact post.2

/-- If what is known after operations is known by their answers, then what is known after the
program is known by one of its paths. -/
theorem Logic.Triple.interpret_path {handle : (op : Op) → Prog Op' Ans' (Ans op)}
    {known : List (Sigma Ans) → σ → Prop} {R : Op → Prop}
    (handled : ∀ op t, R op → L.Triple i (known t) (handle op) fun x => known (t ++ [⟨op, x⟩]))
    {p : Prog Op Ans α} (only : p.Only R) (t : List (Sigma Ans)) :
    L.Triple i (known t) (p.interpret handle) fun a s => ∃ u, p.Path u a ∧ known (t ++ u) s := by
  induction only generalizing t with
  | ret a => exact .ret a fun s _ pre => ⟨[], .ret a, by rwa [List.append_nil]⟩
  | @call op k here _ ih =>
    refine (handled op t here).bind fun x => (ih x _).weaken (fun _ _ mid => mid) ?_
    rintro a s _ ⟨u, path, post⟩
    exact ⟨⟨op, x⟩ :: u, .call x path, by rwa [List.append_assoc] at post⟩

/-- What every operation keeps, the program keeps. -/
theorem Logic.Triple.interpret_kept {handle : (op : Op) → Prog Op' Ans' (Ans op)}
    (handled : ∀ op, L.Triple i P (handle op) fun _ => P) (p : Prog Op Ans α) :
    L.Triple i P (p.interpret handle) fun _ => P := by
  induction p with
  | ret a => exact .ret a fun _ _ pre => pre
  | call op k ih => exact (handled op).bind ih

end

/-! ### Running alone -/

section
variable {ι σ Choice Call Res : Type} [DecidableEq ι] {S : System ι Op' Ans' σ Choice Call Res}
  {C : Condition ι Op' σ Choice Call} {i : ι} {P P' : σ → Prop}

/-- From every state with `P`, the caller `i` can be run through `p` to a return with `Q`. -/
def Runs (S : System ι Op' Ans' σ Choice Call Res) (C : Condition ι Op' σ Choice Call) (i : ι)
    (P : σ → Prop) (p : Prog Op' Ans' α) (Q : α → σ → Prop) : Prop :=
  ∀ c call (f : α → Prog Op' Ans' Res), P c.state → c.thread i = .running call (p >>= f) →
    ∃ c' a, Reach S C c c' ∧ Q a c'.state ∧ c'.thread i = .running call (f a)

namespace Runs

theorem ret {Q : α → σ → Prop} (a : α) (post : ∀ s, P s → Q a s) : Runs S C i P (.ret a) Q :=
  fun c _ _ pre thread => ⟨c, a, .refl, post _ pre, thread⟩

theorem bind {R : α → σ → Prop} {Q : β → σ → Prop} {p : Prog Op' Ans' α}
    {g : α → Prog Op' Ans' β} (first : Runs S C i P p R)
    (second : ∀ a, Runs S C i (R a) (g a) Q) : Runs S C i P (p >>= g) Q := by
  intro c call f pre thread
  rw [bind_assoc] at thread
  obtain ⟨c₁, a, run₁, mid, thread₁⟩ := first c call _ pre thread
  obtain ⟨c₂, b, run₂, post, thread₂⟩ := second a c₁ call f mid thread₁
  exact ⟨c₂, b, run₁.trans run₂, post, thread₂⟩

theorem map {Q : β → σ → Prop} {p : Prog Op' Ans' α} (f : α → β)
    (first : Runs S C i P p fun a => Q (f a)) : Runs S C i P (f <$> p) Q :=
  first.bind fun a => .ret (f a) fun _ post => post

/-- What the precondition implies of things outside the state may be assumed. -/
theorem assume {A : Prop} {Q : α → σ → Prop} {p : Prog Op' Ans' α} (known : ∀ s, P s → A)
    (h : A → Runs S C i P p Q) : Runs S C i P p Q :=
  fun c call f pre thread => h (known _ pre) c call f pre thread

theorem weaken {Q Q' : α → σ → Prop} {p : Prog Op' Ans' α} (h : Runs S C i P p Q)
    (pre : ∀ s, P' s → P s) (post : ∀ a s, Q a s → Q' a s) : Runs S C i P' p Q' := by
  intro c call f holds thread
  obtain ⟨c', a, run, last, thread'⟩ := h c call f (pre _ holds) thread
  exact ⟨c', a, run, post a _ last, thread'⟩

theorem perform {op : Op'} {Q : Ans' op → σ → Prop} (step : ∀ s, P s → ∃ choice a s',
    C.step i op choice s ∧ S.exec i op choice s = some (a, s') ∧ Q a s') :
    Runs S C i P (Prog.perform op) Q := by
  intro c call f pre thread
  obtain ⟨choice, a, s', ok, done, post⟩ := step c.state pre
  refine ⟨⟨s', Function.update c.thread i (.running call (f a))⟩, a, ?_, post, by simp⟩
  refine .step (.step i choice) .refl (fun call' op' k at_op => ?_) ?_
  · rw [thread] at at_op
    cases at_op
    exact ok
  · simp only [System.next, thread, Prog.perform, Prog.call_bind, Prog.ret_bind, done,
      Option.map_some]

/-- The environment moves before the caller goes on. -/
theorem after_env {Q : α → σ → Prop} {p : Prog Op' Ans' α}
    (moves : ∀ s, P s → ∃ choice s', S.env choice s = some s' ∧ P' s')
    (rest : Runs S C i P' p Q) : Runs S C i P p Q := by
  intro c call f pre thread
  obtain ⟨choice, s', moved, mid⟩ := moves c.state pre
  obtain ⟨c', a, run, post, thread'⟩ := rest ⟨s', c.thread⟩ call f mid thread
  have first : Reach S C c ⟨s', c.thread⟩ :=
    .step (.env choice) .refl trivial (by simp only [System.next, moved, Option.map_some])
  exact ⟨c', a, first.trans run, post, thread'⟩

/-- If every operation can be run to its answer in the world, the program can be run to its
outcome there. -/
theorem interpret {world : (op : Op) → Option (Ans op)}
    {handle : (op : Op) → Prog Op' Ans' (Ans op)}
    (handled : ∀ op x, world op = some x → Runs S C i P (handle op) fun y s => P s ∧ y = x)
    {p : Prog Op Ans α} {a : α} (returns : p.outcome world = some a) :
    Runs S C i P (p.interpret handle) fun b s => P s ∧ b = a := by
  induction p with
  | ret b =>
    cases returns
    exact .ret _ fun s pre => ⟨pre, rfl⟩
  | call op k ih =>
    -- The operation is run to its answer, and the program goes on as in the world.
    obtain ⟨x, answer, rest⟩ := Option.bind_eq_some_iff.mp returns
    refine (handled op x answer).bind fun y => .assume (fun _ mid => mid.2) ?_
    rintro rfl
    exact (ih y rest).weaken (fun _ mid => mid.1) fun _ _ post => post

end Runs

end

end Interaction
