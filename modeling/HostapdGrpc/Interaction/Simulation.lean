import HostapdGrpc.Interaction.Interpret

/-!
# Forward simulation

A pool is compared with an upper one, which takes larger steps or none where the lower one
takes many. The programs of the lower pool are verified one by one against callers of the
upper pool: whatever a step does to the lower state, the same caller can do some steps above
that lead to a related state. Every run of the lower pool then has one above it.
-/

namespace Interaction

variable {ι Op Op' : Type} {Ans : Op → Type} {Ans' : Op' → Type}
  {σ τ Choice Choice' Call Call' Res Res' α β γ δ : Type}

/-! ### What one caller does above -/

section
variable (U : System ι Op' Ans' τ Choice' Call' Res') (D : Condition ι Op' τ Choice' Call')

/-- One step of caller `i` of the pool, from a state and a place in its program to the next -/
inductive Move (i : ι) :
    τ × Thread Op' Ans' Call' Res' → τ × Thread Op' Ans' Call' Res' → Prop where
  | start {t t' : τ} (call : Call') (ok : D.start i call t) (started : U.start i call t = some t') :
      Move i (t, .idle) (t', .running call (U.body call))
  | step {t t' : τ} {call : Call'} {op : Op'} {k : Ans' op → Prog Op' Ans' Res'} (ch : Choice')
      (a : Ans' op) (ok : D.step i op ch t) (done : U.exec i op ch t = some (a, t')) :
      Move i (t, .running call (.call op k)) (t', .running call (k a))
  | finish {t : τ} {call : Call'} {r : Res'} :
      Move i (t, .running call (.ret r)) (U.finish i call r t, .idle)

abbrev Moves (i : ι) : τ × Thread Op' Ans' Call' Res' → τ × Thread Op' Ans' Call' Res' → Prop :=
  Relation.ReflTransGen (Move U D i)

end

section
variable {U : System ι Op' Ans' τ Choice' Call' Res'} {D : Condition ι Op' τ Choice' Call'}
  [DecidableEq ι] {i : ι}

/-- Steps of one caller are steps of the pool. -/
theorem Moves.reach {d : Config ι Op' Ans' τ Call' Res'}
    {x : τ × Thread Op' Ans' Call' Res'} (moves : Moves U D i (d.state, d.thread i) x) :
    Reach U D d ⟨x.1, Function.update d.thread i x.2⟩ := by
  induction moves with
  | refl =>
    rw [Function.update_eq_self]
    exact .refl
  | @tail y z _ move ih =>
    have here : Function.update d.thread i y.2 i = y.2 := Function.update_self ..
    cases move with
    | start call ok started =>
      refine .step (.start i call) ih ok ?_
      simp only [System.next, here, started, Option.map_some, Function.update_idem]
    | step ch a ok done =>
      refine .step (.step i ch) ih (fun call op k at_op => ?_) ?_
      · cases here.symm.trans at_op
        exact ok
      · simp only [System.next, here, done, Option.map_some, Function.update_idem]
    | finish =>
      refine .step (.finish i) ih trivial ?_
      simp only [System.next, here, Function.update_idem]

end

/-! ### What a proof about the upper pool says of one caller -/

namespace Proof

variable (V : Proof ι Op' Ans' τ Choice' Call' Res')

/-- The invariant, and what is known of caller `i` at `u` -/
def Known (i : ι) (u : Thread Op' Ans' Call' Res') (t : τ) : Prop := V.inv t ∧ V.ThreadOk i t u

variable {V}

/-- Before an operation: it is not bad and keeps the invariant. -/
theorem Known.at_op {i : ι} {t : τ} {call : Call'} {op : Op'} {k : Ans' op → Prog Op' Ans' Res'}
    (known : V.Known i (.running call (.call op k)) t) : ¬V.bad i op t ∧
      ∀ ch a t', V.cond.step i op ch t → V.sys.exec i op ch t = some (a, t') → V.inv t' := by
  obtain ⟨safe, effect⟩ := known.2 t known.1 (V.rely_refl i t)
  exact ⟨safe, fun ch a t' ok done => (effect ch a t' ok done).1⟩

theorem Known.of_reach [DecidableEq ι] {d₀ d : Config ι Op' Ans' τ Call' Res'}
    (initial : V.ConfigOk d₀) (run : Reach V.sys V.cond d₀ d) (i : ι) :
    V.Known i (d.thread i) d.state := by
  obtain ⟨inv, threads⟩ := V.sound d₀ d initial run
  exact ⟨inv, threads i⟩

end Proof

/-! ### Coupled pools -/

/-- A logic for the lower pool, the upper pool with what is known of its callers, and the
relation of the states -/
structure Coupling (ι Op : Type) (Ans : Op → Type) (σ Choice Call Res : Type) (Op' : Type)
    (Ans' : Op' → Type) (τ Choice' Call' Res' : Type) extends
    Logic ι Op Ans σ Choice Call Res where
  upper : System ι Op' Ans' τ Choice' Call' Res'
  allowed : Condition ι Op' τ Choice' Call'
  known : ι → Thread Op' Ans' Call' Res' → τ → Prop
  rel : σ → τ → Prop

namespace Coupling

variable (K : Coupling ι Op Ans σ Choice Call Res Op' Ans' τ Choice' Call' Res')

/-- From `s`, with the same caller at `u` above: `p` run by `i` attempts no bad operation, keeps
the invariant, each of its operations is made up for by steps above, and it returns only in
states with `Q`, whatever the others do in between. -/
def sim (i : ι) (p : Prog Op Ans α) (Q : α → Thread Op' Ans' Call' Res' → σ → Prop)
    (u : Thread Op' Ans' Call' Res') (s : σ) : Prop :=
  match p with
  | .ret a => Q a u s
  | .call op k => ∀ t, K.rel s t → K.known i u t → ¬K.bad i op s ∧
      ∀ ch a s', K.cond.step i op ch s → K.sys.exec i op ch s = some (a, s') →
        K.inv s' ∧ ∃ t' u', Moves K.upper K.allowed i (t, u) (t', u') ∧ K.rel s' t' ∧
          ∀ s'', K.inv s'' → K.rely i s' s'' → sim i (k a) Q u' s''

def Sim (i : ι) (P : Thread Op' Ans' Call' Res' → σ → Prop) (p : Prog Op Ans α)
    (Q : α → Thread Op' Ans' Call' Res' → σ → Prop) : Prop :=
  ∀ u s, K.inv s → P u s → K.sim i p Q u s

variable {K} {i : ι} {P P' : Thread Op' Ans' Call' Res' → σ → Prop}

/-! ### Rules for programs -/

theorem sim_mono {Q R : α → Thread Op' Ans' Call' Res' → σ → Prop}
    (weaker : ∀ a u s, K.inv s → Q a u s → R a u s) (p : Prog Op Ans α)
    (u : Thread Op' Ans' Call' Res') (s : σ) (inv : K.inv s) (h : K.sim i p Q u s) :
    K.sim i p R u s := by
  induction p generalizing u s with
  | ret a => exact weaker a u s inv h
  | call op k ih =>
    intro t rel known
    obtain ⟨safe, effect⟩ := h t rel known
    refine ⟨safe, fun ch a s' ok done => ?_⟩
    obtain ⟨inv', t', u', moves, rel', later⟩ := effect ch a s' ok done
    exact ⟨inv', t', u', moves, rel', fun s'' inv'' rely =>
      ih a u' s'' inv'' (later s'' inv'' rely)⟩

theorem sim_bind {Q : β → Thread Op' Ans' Call' Res' → σ → Prop} (f : α → Prog Op Ans β)
    (p : Prog Op Ans α) (u : Thread Op' Ans' Call' Res') (s : σ)
    (h : K.sim i p (fun a => K.sim i (f a) Q) u s) : K.sim i (p >>= f) Q u s := by
  induction p generalizing u s with
  | ret a => exact h
  | call op k ih =>
    intro t rel known
    obtain ⟨safe, effect⟩ := h t rel known
    refine ⟨safe, fun ch a s' ok done => ?_⟩
    obtain ⟨inv', t', u', moves, rel', later⟩ := effect ch a s' ok done
    exact ⟨inv', t', u', moves, rel', fun s'' inv'' rely => ih a u' s'' (later s'' inv'' rely)⟩

namespace Sim

theorem ret {Q : α → Thread Op' Ans' Call' Res' → σ → Prop} (a : α)
    (h : ∀ u s, K.inv s → P u s → Q a u s) : K.Sim i P (.ret a) Q := h

theorem bind {R : α → Thread Op' Ans' Call' Res' → σ → Prop}
    {Q : β → Thread Op' Ans' Call' Res' → σ → Prop} {p : Prog Op Ans α} {f : α → Prog Op Ans β}
    (first : K.Sim i P p R) (second : ∀ a, K.Sim i (R a) (f a) Q) : K.Sim i P (p >>= f) Q :=
  fun u s inv pre => sim_bind f p u s
    (sim_mono (fun a u' s' inv' mid => second a u' s' inv' mid) p u s inv (first u s inv pre))

theorem map {Q : β → Thread Op' Ans' Call' Res' → σ → Prop} {p : Prog Op Ans α} (f : α → β)
    (h : K.Sim i P p fun a => Q (f a)) : K.Sim i P (f <$> p) Q :=
  bind h fun a => ret (f a) fun _ _ _ holds => holds

theorem weaken {Q Q' : α → Thread Op' Ans' Call' Res' → σ → Prop} {p : Prog Op Ans α}
    (h : K.Sim i P p Q) (pre : ∀ u s, K.inv s → P' u s → P u s)
    (post : ∀ a u s, K.inv s → Q a u s → Q' a u s) : K.Sim i P' p Q' :=
  fun u s inv holds => sim_mono post p u s inv (h u s inv (pre u s inv holds))

/-- One operation, made up for by some steps above -/
theorem perform {op : Op} {Q : Ans op → Thread Op' Ans' Call' Res' → σ → Prop}
    (effect : ∀ u s t, K.inv s → P u s → K.rel s t → K.known i u t → ¬K.bad i op s ∧
      ∀ ch a s', K.cond.step i op ch s → K.sys.exec i op ch s = some (a, s') →
        K.inv s' ∧ ∃ t' u', Moves K.upper K.allowed i (t, u) (t', u') ∧ K.rel s' t' ∧ Q a u' s')
    (stable : ∀ a u, K.toLogic.Stable i (Q a u)) : K.Sim i P (Prog.perform op) Q := by
  intro u s inv pre t rel known
  obtain ⟨safe, above⟩ := effect u s t inv pre rel known
  refine ⟨safe, fun ch a s' ok done => ?_⟩
  obtain ⟨inv', t', u', moves, rel', post⟩ := above ch a s' ok done
  exact ⟨inv', t', u', moves, rel', fun s'' inv'' rely =>
    stable a u' s' s'' inv' inv'' rely post⟩

end Sim

/-! ### Programs that run side by side -/

variable (K) in
/-- The callers go on in step: where `p` returns, so does `q` above. -/
def Matches (i : ι) (P : σ → Prop) (p : Prog Op Ans α) (q : Prog Op' Ans' β)
    (Q : α → β → σ → Prop) : Prop :=
  ∀ call (f : β → Prog Op' Ans' Res'),
    K.Sim i (fun u s => u = .running call (q >>= f) ∧ P s) p fun a u s =>
      ∃ b, u = .running call (f b) ∧ Q a b s

namespace Matches

variable {P P' : σ → Prop} {p : Prog Op Ans α} {q : Prog Op' Ans' β} {Q : α → β → σ → Prop}

theorem ret (a : α) (b : β) (h : ∀ s, K.inv s → P s → Q a b s) :
    K.Matches i P (.ret a) (.ret b) Q := by
  rintro call f u s inv ⟨rfl, pre⟩
  exact ⟨b, rfl, h s inv pre⟩

theorem bind {R : γ → δ → σ → Prop} {f : α → Prog Op Ans γ} {g : β → Prog Op' Ans' δ}
    (first : K.Matches i P p q Q) (second : ∀ a b, K.Matches i (Q a b) (f a) (g b) R) :
    K.Matches i P (p >>= f) (q >>= g) R := by
  intro call h
  refine Sim.bind (R := fun a u s => ∃ b, u = .running call (g b >>= h) ∧ Q a b s) ?_ fun a => ?_
  · have side := first call fun b => g b >>= h
    rwa [Prog.bind_assoc]
  · rintro u s inv ⟨b, rfl, mid⟩
    exact second a b call h _ s inv ⟨rfl, mid⟩

theorem map {R : γ → δ → σ → Prop} (f : α → γ) (g : β → δ)
    (h : K.Matches i P p q fun a b => R (f a) (g b)) : K.Matches i P (f <$> p) (g <$> q) R :=
  h.bind fun a b => ret (f a) (g b) fun _ _ holds => holds

theorem weaken {Q' : α → β → σ → Prop} (h : K.Matches i P p q Q)
    (pre : ∀ s, K.inv s → P' s → P s) (post : ∀ a b s, K.inv s → Q a b s → Q' a b s) :
    K.Matches i P' p q Q' := by
  intro call f
  refine (h call f).weaken (fun u s inv at_q => ⟨at_q.1, pre s inv at_q.2⟩) ?_
  rintro a u s inv ⟨b, at_f, holds⟩
  exact ⟨b, at_f, post a b s inv holds⟩

/-- What the precondition implies of things outside the state may be assumed. -/
theorem assume {A : Prop} (known : ∀ s, K.inv s → P s → A) (h : A → K.Matches i P p q Q) :
    K.Matches i P p q Q :=
  fun call f u s inv pre => h (known s inv pre.2) call f u s inv pre

/-- A sequence of which only the results of the first part matter -/
theorem seq {A : α → β → Prop} {R : γ → δ → σ → Prop} {f : α → Prog Op Ans γ}
    {g : β → Prog Op' Ans' δ} (first : K.Matches i (fun _ => True) p q fun a b _ => A a b)
    (second : ∀ a b, A a b → K.Matches i (fun _ => True) (f a) (g b) R) :
    K.Matches i (fun _ => True) (p >>= f) (q >>= g) R := by
  refine first.bind fun a b => assume (fun _ _ known => known) fun known => ?_
  exact (second a b known).weaken (fun _ _ _ => trivial) fun _ _ _ _ post => post

theorem or (left : K.Matches i P p q Q) (right : K.Matches i P' p q Q) :
    K.Matches i (fun s => P s ∨ P' s) p q Q := by
  rintro call f u s inv ⟨at_q, pre | pre⟩
  · exact left call f u s inv ⟨at_q, pre⟩
  · exact right call f u s inv ⟨at_q, pre⟩

/-- An operation that does not show above, before the rest of a program -/
theorem silent {op : Op} {g : Ans op → Prog Op Ans α} {R : Ans op → σ → Prop}
    (effect : ∀ s t call f, K.inv s → P s → K.rel s t → K.known i (.running call (q >>= f)) t →
      ¬K.bad i op s ∧ ∀ ch a s', K.cond.step i op ch s → K.sys.exec i op ch s = some (a, s') →
        K.inv s' ∧ K.rel s' t ∧ R a s')
    (stable : ∀ a, K.toLogic.Stable i (R a)) (rest : ∀ a, K.Matches i (R a) (g a) q Q) :
    K.Matches i P (Prog.perform op >>= g) q Q := by
  intro call f
  refine Sim.bind (R := fun a u s => u = .running call (q >>= f) ∧ R a s) ?_ fun a => rest a call f
  refine Sim.perform ?_ fun a u => (Logic.Stable.const _).and (stable a)
  rintro u s t inv ⟨rfl, pre⟩ rel known
  obtain ⟨safe, above⟩ := effect s t call f inv pre rel known
  refine ⟨safe, fun ch a s' ok done => ?_⟩
  obtain ⟨inv', rel', post⟩ := above ch a s' ok done
  exact ⟨inv', t, _, .refl, rel', rfl, post⟩

/-- An operation for an operation -/
theorem step {op : Op} {op' : Op'} {Q : Ans op → Ans' op' → σ → Prop}
    (effect : ∀ s t call k, K.inv s → P s → K.rel s t → K.known i (.running call (.call op' k)) t →
      ¬K.bad i op s ∧ ∀ ch a s', K.cond.step i op ch s → K.sys.exec i op ch s = some (a, s') →
        K.inv s' ∧ ∃ ch' b t', K.allowed.step i op' ch' t ∧
          K.upper.exec i op' ch' t = some (b, t') ∧ K.rel s' t' ∧ Q a b s')
    (stable : ∀ a b, K.toLogic.Stable i (Q a b)) :
    K.Matches i P (Prog.perform op) (Prog.perform op') Q := by
  rintro call f u s inv ⟨rfl, pre⟩ t rel known
  obtain ⟨safe, above⟩ := effect s t call f inv pre rel known
  refine ⟨safe, fun ch a s' ok done => ?_⟩
  obtain ⟨inv', ch', b, t', ok', done', rel', post⟩ := above ch a s' ok done
  exact ⟨inv', t', _, .single (.step ch' b ok' done'), rel', fun s'' inv'' rely =>
    ⟨b, rfl, stable a b s' s'' inv' inv'' rely post⟩⟩

/-- An operation that is the one above or does not show, before the rest of a program -/
theorem either {op : Op} {op' : Op'} {g : Ans op → Prog Op Ans α}
    {Q : α → Ans' op' → σ → Prop} {R : Ans op → σ → Prop} {S : Ans op → Ans' op' → σ → Prop}
    (effect : ∀ s t call k, K.inv s → P s → K.rel s t → K.known i (.running call (.call op' k)) t →
      ¬K.bad i op s ∧ ∀ ch a s', K.cond.step i op ch s → K.sys.exec i op ch s = some (a, s') →
        K.inv s' ∧ (K.rel s' t ∧ R a s' ∨ ∃ ch' b t', K.allowed.step i op' ch' t ∧
          K.upper.exec i op' ch' t = some (b, t') ∧ K.rel s' t' ∧ S a b s'))
    (silent_stable : ∀ a, K.toLogic.Stable i (R a))
    (step_stable : ∀ a b, K.toLogic.Stable i (S a b))
    (silent : ∀ a, K.Matches i (R a) (g a) (Prog.perform op') Q)
    (step : ∀ a b, K.Matches i (S a b) (g a) (.ret b) Q) :
    K.Matches i P (Prog.perform op >>= g) (Prog.perform op') Q := by
  intro call f
  refine Sim.bind (R := fun a u s => (u = .running call (Prog.perform op' >>= f) ∧ R a s) ∨
    ∃ b, u = .running call (f b) ∧ S a b s) ?_ fun a => ?_
  · refine Sim.perform ?_ fun a u => ?_
    · rintro u s t inv ⟨rfl, pre⟩ rel known
      obtain ⟨safe, above⟩ := effect s t call f inv pre rel known
      refine ⟨safe, fun ch a s' ok done => ?_⟩
      obtain ⟨inv', ⟨rel', post⟩ | ⟨ch', b, t', ok', done', rel', post⟩⟩ := above ch a s' ok done
      · exact ⟨inv', t, _, .refl, rel', .inl ⟨rfl, post⟩⟩
      · exact ⟨inv', t', _, .single (.step ch' b ok' done'), rel', .inr ⟨b, rfl, post⟩⟩
    · rintro s s' inv inv' rely (⟨here, post⟩ | ⟨b, here, post⟩)
      · exact .inl ⟨here, silent_stable a s s' inv inv' rely post⟩
      · exact .inr ⟨b, here, step_stable a b s s' inv inv' rely post⟩
  · rintro u s inv (pre | ⟨b, pre⟩)
    · exact silent a call f u s inv pre
    · exact step a b call f u s inv pre

/-- A program none of whose operations shows, before the rest -/
theorem quiet {Quiet : Op → Prop} {p : Prog Op Ans γ} {g : γ → Prog Op Ans α}
    (only : p.Only Quiet) (effect : ∀ op, Quiet op → ∀ s t, K.inv s → P s → K.rel s t →
      ¬K.bad i op s ∧ ∀ ch a s', K.cond.step i op ch s → K.sys.exec i op ch s = some (a, s') →
        K.inv s' ∧ K.rel s' t ∧ P s')
    (stable : K.toLogic.Stable i P) (rest : ∀ a, K.Matches i P (g a) q Q) :
    K.Matches i P (p >>= g) q Q := by
  induction only with
  | ret a => exact rest a
  | @call op k here _ ih =>
    exact silent (g := fun x => k x >>= g) (R := fun _ => P)
      (fun s t _ _ inv pre rel _ => effect op here s t inv pre rel) (fun _ => stable) ih

/-- An operation that cannot be executed -/
theorem blocked {op : Op} {k : Ans op → Prog Op Ans α}
    (stuck : ∀ s, K.inv s → P s → ¬K.bad i op s ∧ ∀ ch, K.sys.exec i op ch s = none) :
    K.Matches i P (.call op k) q Q := by
  intro call f u s inv pre t rel known
  obtain ⟨safe, never⟩ := stuck s inv pre.2
  refine ⟨safe, fun ch a s' _ done => ?_⟩
  rw [never ch] at done
  cases done

/-- If every operation above is carried out by a program, then so is every program. -/
theorem interpret {handle : (op : Op') → Prog Op Ans (Ans' op)}
    (handled : ∀ op, K.Matches i P (handle op) (Prog.perform op) fun a b s => a = b ∧ P s)
    (q : Prog Op' Ans' α) :
    K.Matches i P (q.interpret handle) q fun a b s => a = b ∧ P s := by
  induction q with
  | ret a => exact ret a a fun s _ pre => ⟨rfl, pre⟩
  | call op k ih =>
    refine bind (g := k) (handled op) fun a b => ?_
    refine assume (fun s _ mid => mid.1) ?_
    rintro rfl
    exact (ih a).weaken (fun s _ mid => mid.2) fun _ _ _ _ post => post

end Matches

end Coupling

/-! ### The simulation -/

/-- What has to be shown of the calls of two coupled pools: where the caller is above between
calls, and a verified contract for each call. -/
structure Simulation (ι Op : Type) (Ans : Op → Type) (σ Choice Call Res : Type) (Op' : Type)
    (Ans' : Op' → Type) (τ Choice' Call' Res' : Type) extends
    Coupling ι Op Ans σ Choice Call Res Op' Ans' τ Choice' Call' Res' where
  idle : ι → Thread Op' Ans' Call' Res' → σ → Prop
  pre : ι → Call → Thread Op' Ans' Call' Res' → σ → Prop
  post : ι → Call → Res → Thread Op' Ans' Call' Res' → σ → Prop
  idle_stable : ∀ i u, toLogic.Stable i (idle i u)
  pre_stable : ∀ i call u, toLogic.Stable i (pre i call u)
  start_ok : ∀ i call u s s' t, inv s → idle i u s → rel s t → known i u t →
    cond.start i call s → sys.start i call s = some s' →
      inv s' ∧ (∀ j, j ≠ i → rely j s s') ∧
        ∃ t' u', Moves upper allowed i (t, u) (t', u') ∧ rel s' t' ∧ pre i call u' s'
  body_ok : ∀ i call, toCoupling.Sim i (pre i call) (sys.body call) (post i call)
  finish_ok : ∀ i call r u s t, inv s → post i call r u s → rel s t → known i u t →
    inv (sys.finish i call r s) ∧ (∀ j, j ≠ i → rely j s (sys.finish i call r s)) ∧
      ∃ t' u', Moves upper allowed i (t, u) (t', u') ∧ rel (sys.finish i call r s) t' ∧
        idle i u' (sys.finish i call r s)
  env_ok : ∀ ch s s' t, inv s → rel s t → sys.env ch s = some s' → inv s' ∧ (∀ j, rely j s s') ∧
    ∃ t', (t' = t ∨ ∃ ch', upper.env ch' t = some t') ∧ rel s' t'

namespace Simulation

variable (K : Simulation ι Op Ans σ Choice Call Res Op' Ans' τ Choice' Call' Res')

/-- What is known of a caller and of the same one above, now and after any steps of others -/
def ThreadOk (i : ι) (s : σ) (u : Thread Op' Ans' Call' Res') : Thread Op Ans Call Res → Prop
  | .idle => K.idle i u s
  | .running call p =>
      ∀ s', K.inv s' → K.rely i s s' → K.sim i p (K.post i call) u s'

structure Related (c : Config ι Op Ans σ Call Res) (d : Config ι Op' Ans' τ Call' Res') :
    Prop where
  inv : K.inv c.state
  rel : K.rel c.state d.state
  threads : ∀ i, K.ThreadOk i c.state (d.thread i) (c.thread i)

theorem threadOk_rely (i : ι) (s s' : σ) (u : Thread Op' Ans' Call' Res')
    (t : Thread Op Ans Call Res) (inv : K.inv s) (inv' : K.inv s') (rely : K.rely i s s')
    (h : K.ThreadOk i s u t) : K.ThreadOk i s' u t := by
  cases t with
  | idle => exact K.idle_stable i u s s' inv inv' rely h
  | running call p => exact fun s'' inv'' rely' => h s'' inv'' (K.rely_trans i s s' s'' rely rely')

variable [DecidableEq ι]

/-- One caller has stepped below, and above as its moves say. -/
theorem related_update {c : Config ι Op Ans σ Call Res} {d : Config ι Op' Ans' τ Call' Res'}
    (i : ι) {s' : σ} {t' : τ} (t : Thread Op Ans Call Res) (u : Thread Op' Ans' Call' Res')
    (related : K.Related c d) (inv : K.inv s') (others : ∀ j, j ≠ i → K.rely j c.state s')
    (moves : Moves K.upper K.allowed i (d.state, d.thread i) (t', u)) (rel : K.rel s' t')
    (mine : K.ThreadOk i s' u t) :
    ∃ d', Reach K.upper K.allowed d d' ∧
      K.Related ⟨s', Function.update c.thread i t⟩ d' := by
  refine ⟨_, moves.reach, inv, rel, fun j => ?_⟩
  by_cases same : j = i
  · subst same
    simpa only [Function.update_self] using mine
  · simp only [Function.update_of_ne same]
    exact K.threadOk_rely j c.state s' _ _ related.inv inv (others j same) (related.threads j)

/-- The step lemma: what a step of the lower pool does can be done above. -/
theorem next_related (l : Label ι Choice Call) (c c' : Config ι Op Ans σ Call Res)
    (d : Config ι Op' Ans' τ Call' Res') (related : K.Related c d)
    (above : ∀ i, K.known i (d.thread i) d.state) (holds : K.cond.Holds l c)
    (next : K.sys.next l c = some c') :
    ∃ d', Reach K.upper K.allowed d d' ∧ K.Related c' d' := by
  cases System.stepped next with
  | @start i call s' h started =>
    have known := related.threads i
    rw [h] at known
    obtain ⟨inv', others, t', u', moves, rel', pre⟩ := K.start_ok i call _ c.state s' d.state
      related.inv known related.rel (above i) holds started
    refine K.related_update i _ u' related inv' others moves rel' fun s'' inv'' rely => ?_
    exact K.body_ok i call u' s'' inv'' (K.pre_stable i call u' s' s'' inv' inv'' rely pre)
  | @step i ch call op k a s' h done =>
    have known := related.threads i
    rw [h] at known
    obtain ⟨safe, effect⟩ := known c.state related.inv (K.rely_refl i c.state) d.state
      related.rel (above i)
    obtain ⟨inv', t', u', moves, rel', later⟩ := effect ch a s' (holds call op k h) done
    exact K.related_update i _ u' related inv'
      (K.guarantee i op ch c.state a s' related.inv safe done) moves rel' later
  | @finish i call r h =>
    have known := related.threads i
    rw [h] at known
    have post : K.post i call r (d.thread i) c.state :=
      known c.state related.inv (K.rely_refl i c.state)
    obtain ⟨inv', others, t', u', moves, rel', idle⟩ := K.finish_ok i call r _ c.state d.state
      related.inv post related.rel (above i)
    exact K.related_update i _ u' related inv' others moves rel' idle
  | @env ch s' moved =>
    obtain ⟨inv', rely, t', moves, rel'⟩ :=
      K.env_ok ch c.state s' d.state related.inv related.rel moved
    have threads : ∀ i, K.ThreadOk i s' (d.thread i) (c.thread i) := fun i =>
      K.threadOk_rely i c.state s' _ _ related.inv inv' (rely i) (related.threads i)
    obtain rfl | ⟨ch', moved'⟩ := moves
    · exact ⟨d, .refl, inv', rel', threads⟩
    · refine ⟨⟨t', d.thread⟩, .step (.env ch') .refl trivial ?_, inv', rel', threads⟩
      simp only [System.next, moved', Option.map_some]

/-- Soundness: every run of the lower pool is one of the upper pool, if what is said to be known
of the upper callers is so. -/
theorem sound {c₀ c : Config ι Op Ans σ Call Res} {d₀ : Config ι Op' Ans' τ Call' Res'}
    (above : ∀ d, Reach K.upper K.allowed d₀ d → ∀ i, K.known i (d.thread i) d.state)
    (initial : K.Related c₀ d₀) (run : Reach K.sys K.cond c₀ c) :
    ∃ d, Reach K.upper K.allowed d₀ d ∧ K.Related c d := by
  induction run with
  | refl => exact ⟨d₀, .refl, initial⟩
  | step l _ ok next ih =>
    obtain ⟨d, run, related⟩ := ih
    obtain ⟨d', run', related'⟩ := K.next_related l _ _ d related (above d run) ok next
    exact ⟨d', run.trans run', related'⟩

end Simulation

end Interaction
