import HostapdGrpc.Interaction.Simulation

/-!
# More about a verified pool

A verified pool runs beside itself. What its proof says of a caller is known then, so a further
invariant, or a further operation that must not be attempted, only needs what is new.
-/

namespace Interaction

variable {ι Op : Type} {Ans : Op → Type} {σ Choice Call Res α β : Type}

namespace Proof

variable (V : Proof ι Op Ans σ Choice Call Res) (J : σ → Prop) (B : ι → Op → σ → Prop)

/-- The pool beside itself, with an invariant and bad operations besides those of its proof -/
def beside : Coupling ι Op Ans σ Choice Call Res Op Ans σ Choice Call Res where
  sys := V.sys
  cond := V.cond
  inv s := V.inv s ∧ J s
  rely := V.rely
  bad i op s := V.bad i op s ∨ B i op s
  rely_refl := V.rely_refl
  rely_trans := V.rely_trans
  guarantee i op ch s a s' inv safe done :=
    V.guarantee i op ch s a s' inv.1 (fun bad => safe (.inl bad)) done
  upper := V.sys
  allowed := V.cond
  known := V.Known
  rel := Eq

/-- From states with `P`, `p` keeps the invariant, comes to none of the bad operations, and
returns only in states with `Q`. -/
def Keeps (i : ι) (P : σ → Prop) (p : Prog Op Ans α) (Q : α → σ → Prop) : Prop :=
  (V.beside J B).Matches i P p p fun a b s => a = b ∧ Q a s

variable {V J B} {i : ι} {P P' : σ → Prop}

namespace Keeps

theorem ret {Q : α → σ → Prop} (a : α) (h : ∀ s, V.inv s → J s → P s → Q a s) :
    V.Keeps J B i P (.ret a) Q :=
  Coupling.Matches.ret a a fun s inv pre => ⟨rfl, h s inv.1 inv.2 pre⟩

theorem bind {Q : α → σ → Prop} {R : β → σ → Prop} {p : Prog Op Ans α} {f : α → Prog Op Ans β}
    (first : V.Keeps J B i P p Q) (second : ∀ a, V.Keeps J B i (Q a) (f a) R) :
    V.Keeps J B i P (p >>= f) R := by
  refine Coupling.Matches.bind first fun a b => .assume (fun _ _ mid => mid.1) ?_
  rintro rfl
  exact (second a).weaken (fun _ _ mid => mid.2) fun _ _ _ _ post => post

theorem map {Q : β → σ → Prop} {p : Prog Op Ans α} (f : α → β)
    (h : V.Keeps J B i P p fun a => Q (f a)) : V.Keeps J B i P (f <$> p) Q :=
  bind h fun a => ret (f a) fun _ _ _ post => post

theorem weaken {Q Q' : α → σ → Prop} {p : Prog Op Ans α} (h : V.Keeps J B i P p Q)
    (pre : ∀ s, P' s → P s) (post : ∀ a s, Q a s → Q' a s) : V.Keeps J B i P' p Q' :=
  Coupling.Matches.weaken h (fun s _ => pre s) fun a _ s _ holds => ⟨holds.1, post a s holds.2⟩

/-- What the precondition implies of things outside the state may be assumed. -/
theorem assume {A : Prop} {Q : α → σ → Prop} {p : Prog Op Ans α} (known : ∀ s, P s → A)
    (h : A → V.Keeps J B i P p Q) : V.Keeps J B i P p Q :=
  Coupling.Matches.assume (fun s _ => known s) h

theorem of_exists {γ : Type} {P : γ → σ → Prop} {Q : α → σ → Prop} {p : Prog Op Ans α}
    (h : ∀ x, V.Keeps J B i (P x) p Q) : V.Keeps J B i (fun s => ∃ x, P x s) p Q := by
  rintro call f u s inv ⟨at_p, x, pre⟩
  exact h x call f u s inv ⟨at_p, pre⟩

/-- One operation; that it is not bad in the proof, and keeps its invariant, is known. -/
theorem op {op : Op} {Q : Ans op → σ → Prop}
    (safe : ∀ s, V.inv s → J s → ¬V.bad i op s → P s → ¬B i op s)
    (effect : ∀ s ch a s', V.inv s → J s → ¬V.bad i op s → P s → V.cond.step i op ch s →
      V.sys.exec i op ch s = some (a, s') → V.inv s' → J s' ∧ Q a s')
    (stable : ∀ a s s', V.inv s → V.rely i s s' → Q a s → Q a s') :
    V.Keeps J B i P (Prog.perform op) Q := by
  refine .step (fun s t call k inv pre same known => ?_) fun a b =>
    (Logic.Stable.const _).and fun s s' inv _ rely => stable a s s' inv.1 rely
  obtain rfl : s = t := same
  obtain ⟨good, keeps⟩ := known.at_op
  refine ⟨fun bad => bad.elim good (safe s inv.1 inv.2 good pre), fun ch a s' ok done => ?_⟩
  have inv' := keeps ch a s' ok done
  obtain ⟨holds, post⟩ := effect s ch a s' inv.1 inv.2 good pre ok done inv'
  exact ⟨⟨inv', holds⟩, ch, a, s', ok, done, rfl, rfl, post⟩

/-- Operations that the invariant does not notice -/
theorem of_only {Quiet : Op → Prop} {p : Prog Op Ans α} (only : p.Only Quiet)
    (quiet : ∀ op, Quiet op → ∀ s, V.inv s → J s → ¬V.bad i op s → ¬B i op s ∧
      ∀ ch a s', V.sys.exec i op ch s = some (a, s') → J s') :
    V.Keeps J B i (fun _ => True) p fun _ _ => True := by
  induction only with
  | ret a => exact ret a fun _ _ _ _ => trivial
  | @call op' k here _ ih =>
    refine bind (f := k) (op (Q := fun _ _ => True) ?_ ?_ fun _ _ _ _ _ _ => trivial) ih
    · exact fun s inv holds good _ => (quiet op' here s inv holds good).1
    · exact fun s ch a s' inv holds good _ _ done _ =>
        ⟨(quiet op' here s inv holds good).2 ch a s' done, trivial⟩

end Keeps

section
variable [DecidableEq ι]

/-- If the calls keep the invariant as well, then it holds in every configuration of a run, and
no caller comes to one of the bad operations. -/
theorem strengthened {c₀ c : Config ι Op Ans σ Call Res}
    (body : ∀ i call, V.Keeps J B i (fun _ => True) (V.sys.body call) fun _ _ => True)
    (start : ∀ i call s s', J s → V.sys.start i call s = some s' → J s')
    (finish : ∀ i call r s, J s → J (V.sys.finish i call r s))
    (env : ∀ ch s s', V.inv s → J s → V.sys.env ch s = some s' → J s')
    (ok : V.ConfigOk c₀) (holds : J c₀.state) (idle : ∀ i, c₀.thread i = .idle)
    (run : Reach V.sys V.cond c₀ c) :
    J c.state ∧ ∀ i call op k, c.thread i = .running call (.call op k) → ¬B i op c.state := by
  let K : Simulation ι Op Ans σ Choice Call Res Op Ans σ Choice Call Res :=
    { V.beside J B with
      idle := fun _ u _ => u = .idle
      pre := fun _ call u _ => u = .running call (V.sys.body call)
      post := fun _ call r u _ => u = .running call (.ret r)
      idle_stable := fun _ _ => .const _
      pre_stable := fun _ _ _ => .const _
      start_ok := by
        rintro i call _ s s' t inv rfl rfl known allowed started
        obtain ⟨inv', _, others⟩ := V.start_ok i call s s' inv.1 known.2 allowed started
        exact ⟨⟨inv', start i call s s' inv.2 started⟩, others, s', _,
          .single (.start call allowed started), rfl, rfl⟩
      body_ok := fun i call => by
        refine Coupling.Sim.weaken (body i call call .ret) ?_ ?_
        · rintro u s _ rfl
          exact ⟨congrArg (Thread.running call) (Prog.bind_ret _).symm, trivial⟩
        · rintro a u s _ ⟨b, rfl, rfl, _⟩
          rfl
      finish_ok := by
        rintro i call r _ s t inv rfl rfl known
        have post : V.post i call r s := known.2 s known.1 (V.rely_refl i s)
        obtain ⟨inv', _, others⟩ := V.finish_ok i call r s inv.1 post
        exact ⟨⟨inv', finish i call r s inv.2⟩, others, _, _, .single .finish, rfl, rfl⟩
      env_ok := by
        rintro ch s s' t inv rfl moved
        obtain ⟨inv', others⟩ := V.env_ok ch s s' inv.1 moved
        exact ⟨⟨inv', env ch s s' inv.1 inv.2 moved⟩, others, s', .inr ⟨ch, moved⟩, rfl⟩ }
  have related : K.Related c₀ c₀ := ⟨⟨ok.1, holds⟩, rfl, fun i => by
    rw [idle i]
    rfl⟩
  obtain ⟨d, above, last⟩ := K.sound (fun d above => Known.of_reach ok above) related run
  refine ⟨last.inv.2, fun i call op k at_op bad => ?_⟩
  have thread := last.threads i
  rw [at_op] at thread
  exact (thread c.state last.inv (V.rely_refl i c.state) d.state last.rel
    (Known.of_reach ok above i)).1 (.inr bad)

end

end Proof

end Interaction
