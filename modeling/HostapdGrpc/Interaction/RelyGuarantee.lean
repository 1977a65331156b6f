import HostapdGrpc.Interaction.ThreadPool

/-!
# Rely-guarantee reasoning for thread pools

A proof about a pool fixes an invariant of the shared state, what each caller may
rely on while others step, and which operations must never be attempted. Every
program is then verified on its own, by Hoare triples whose assertions are stable
under the rely, and `Proof.sound` puts the programs together: the invariant and all
assertions hold in every configuration that any interleaving reaches.
-/

namespace Interaction

variable {ι Op : Type} {Ans : Op → Type} {σ Choice Call Res α β : Type}

/-- The judgements of a proof about a system.

`inv` holds between any two steps; `rely i s s'` bounds what the others do while
caller `i` is between two of its steps; `bad i op s` marks an operation that `i` must
not attempt in `s`. -/
structure Logic (ι Op : Type) (Ans : Op → Type) (σ Choice Call Res : Type) where
  sys : System ι Op Ans σ Choice Call Res
  cond : Condition ι Op σ Choice Call
  inv : σ → Prop
  rely : ι → σ → σ → Prop
  bad : ι → Op → σ → Prop
  rely_refl : ∀ i s, rely i s s
  rely_trans : ∀ i s₁ s₂ s₃, rely i s₁ s₂ → rely i s₂ s₃ → rely i s₁ s₃
  /-- An operation that is not bad respects what the other callers rely on. -/
  guarantee : ∀ i op ch s a s', inv s → ¬bad i op s → sys.exec i op ch s = some (a, s') →
    ∀ j, j ≠ i → rely j s s'

namespace Logic

variable (L : Logic ι Op Ans σ Choice Call Res)

/-- Others cannot falsify `P` while `i` does not step. -/
def Stable (i : ι) (P : σ → Prop) : Prop :=
  ∀ s s', L.inv s → L.inv s' → L.rely i s s' → P s → P s'

/-- From `s`, `p` run by `i` attempts no bad operation, keeps the invariant, and
returns only in states with `Q`, whatever the others do in between. -/
def wp (i : ι) (p : Prog Op Ans α) (Q : α → σ → Prop) (s : σ) : Prop :=
  match p with
  | .ret a => Q a s
  | .call op k => ¬L.bad i op s ∧
      -- Between the operation, which leads to `s'`, and the next one, the others lead to `s''`.
      ∀ ch a s', L.cond.step i op ch s → L.sys.exec i op ch s = some (a, s') →
        L.inv s' ∧ ∀ s'', L.inv s'' → L.rely i s' s'' → wp i (k a) Q s''

def Triple (i : ι) (P : σ → Prop) (p : Prog Op Ans α) (Q : α → σ → Prop) : Prop :=
  ∀ s, L.inv s → P s → L.wp i p Q s

variable {L} {i : ι} {P P' : σ → Prop}

/-! ### Stability -/

theorem Stable.and {Q : σ → Prop} (left : L.Stable i P) (right : L.Stable i Q) :
    L.Stable i fun s => P s ∧ Q s :=
  fun s s' inv inv' rely h => ⟨left s s' inv inv' rely h.1, right s s' inv inv' rely h.2⟩

theorem Stable.const (A : Prop) : L.Stable i fun _ => A := fun _ _ _ _ _ h => h

theorem Stable.exists {γ : Type} {P : γ → σ → Prop} (h : ∀ x, L.Stable i (P x)) :
    L.Stable i fun s => ∃ x, P x s := by
  rintro s s' inv inv' rely ⟨x, holds⟩
  exact ⟨x, h x s s' inv inv' rely holds⟩

/-! ### Rules for programs -/

theorem wp_mono {Q R : α → σ → Prop} (weaker : ∀ a s, L.inv s → Q a s → R a s)
    (p : Prog Op Ans α) (s : σ) (inv : L.inv s) (h : L.wp i p Q s) : L.wp i p R s := by
  induction p generalizing s with
  | ret a => exact weaker a s inv h
  | call op k ih =>
    refine ⟨h.1, fun ch a s' ok done => ?_⟩
    obtain ⟨inv', later⟩ := h.2 ch a s' ok done
    exact ⟨inv', fun s'' inv'' rely => ih a s'' inv'' (later s'' inv'' rely)⟩

theorem wp_bind {Q : β → σ → Prop} (f : α → Prog Op Ans β) (p : Prog Op Ans α) (s : σ)
    (h : L.wp i p (fun a => L.wp i (f a) Q) s) : L.wp i (p >>= f) Q s := by
  induction p generalizing s with
  | ret a => exact h
  | call op k ih =>
    refine ⟨h.1, fun ch a s' ok done => ?_⟩
    obtain ⟨inv', later⟩ := h.2 ch a s' ok done
    exact ⟨inv', fun s'' inv'' rely => ih a s'' (later s'' inv'' rely)⟩

theorem Triple.ret {Q : α → σ → Prop} (a : α) (h : ∀ s, L.inv s → P s → Q a s) :
    L.Triple i P (.ret a) Q := h

theorem Triple.bind {R : α → σ → Prop} {Q : β → σ → Prop} {p : Prog Op Ans α}
    {f : α → Prog Op Ans β} (first : L.Triple i P p R)
    (second : ∀ a, L.Triple i (R a) (f a) Q) : L.Triple i P (p >>= f) Q :=
  fun s inv pre => wp_bind f p s
    (wp_mono (fun a s' inv' mid => second a s' inv' mid) p s inv (first s inv pre))

theorem Triple.map {Q : β → σ → Prop} {p : Prog Op Ans α} (f : α → β)
    (h : L.Triple i P p fun a => Q (f a)) : L.Triple i P (f <$> p) Q :=
  Triple.bind h fun a => Triple.ret (f a) fun _ _ holds => holds

theorem Triple.weaken {Q Q' : α → σ → Prop} {p : Prog Op Ans α} (h : L.Triple i P p Q)
    (pre : ∀ s, L.inv s → P' s → P s) (post : ∀ a s, L.inv s → Q a s → Q' a s) :
    L.Triple i P' p Q' :=
  fun s inv holds => wp_mono post p s inv (h s inv (pre s inv holds))

/-- What the precondition implies of things outside the state may be assumed. -/
theorem Triple.assume {A : Prop} {Q : α → σ → Prop} {p : Prog Op Ans α}
    (known : ∀ s, L.inv s → P s → A) (h : A → L.Triple i P p Q) : L.Triple i P p Q :=
  fun s inv pre => h (known s inv pre) s inv pre

/-- A sequence whose first part returns a known value -/
theorem Triple.bind_eq {R : σ → Prop} {Q : β → σ → Prop} {p : Prog Op Ans α} {f : α → Prog Op Ans β}
    {v : α} (first : L.Triple i P p fun a s => a = v ∧ R s) (second : L.Triple i R (f v) Q) :
    L.Triple i P (p >>= f) Q := by
  apply first.bind
  intro a
  apply Triple.assume fun _ _ h => h.1
  rintro rfl
  exact second.weaken (fun _ _ h => h.2) fun _ _ _ h => h

theorem Triple.exists {γ : Type} {P : γ → σ → Prop} {Q : α → σ → Prop} {p : Prog Op Ans α}
    (h : ∀ x, L.Triple i (P x) p Q) : L.Triple i (fun s => ∃ x, P x s) p Q := by
  rintro s inv ⟨x, pre⟩
  exact h x s inv pre

theorem Triple.or {Q : α → σ → Prop} {p : Prog Op Ans α} (left : L.Triple i P p Q)
    (right : L.Triple i P' p Q) : L.Triple i (fun s => P s ∨ P' s) p Q :=
  fun s inv pre => pre.elim (left s inv) (right s inv)

/-- One operation: it is not bad, its effect keeps the invariant and gives `Q`, and the
others cannot falsify `Q` afterwards. -/
theorem Triple.perform {op : Op} {Q : Ans op → σ → Prop} (safe : ∀ s, L.inv s → P s → ¬L.bad i op s)
    (effect : ∀ s ch a s', L.inv s → P s → L.cond.step i op ch s →
      L.sys.exec i op ch s = some (a, s') → L.inv s' ∧ Q a s')
    (stable : ∀ a, L.Stable i (Q a)) : L.Triple i P (Prog.perform op) Q := by
  intro s inv pre
  refine ⟨safe s inv pre, fun ch a s' ok done => ?_⟩
  obtain ⟨inv', post⟩ := effect s ch a s' inv pre ok done
  exact ⟨inv', fun s'' inv'' rely => stable a s' s'' inv' inv'' rely post⟩

end Logic

/-- What has to be shown of the calls of a system: an assertion for a caller between
calls, and a verified contract for each call. -/
structure Proof (ι Op : Type) (Ans : Op → Type) (σ Choice Call Res : Type) extends
    Logic ι Op Ans σ Choice Call Res where
  idle : ι → σ → Prop
  pre : ι → Call → σ → Prop
  post : ι → Call → Res → σ → Prop
  idle_stable : ∀ i, toLogic.Stable i (idle i)
  pre_stable : ∀ i call, toLogic.Stable i (pre i call)
  start_ok : ∀ i call s s', inv s → idle i s → cond.start i call s →
    sys.start i call s = some s' → inv s' ∧ pre i call s' ∧ ∀ j, j ≠ i → rely j s s'
  body_ok : ∀ i call, toLogic.Triple i (pre i call) (sys.body call) (post i call)
  finish_ok : ∀ i call r s, inv s → post i call r s →
    inv (sys.finish i call r s) ∧ idle i (sys.finish i call r s) ∧
      ∀ j, j ≠ i → rely j s (sys.finish i call r s)
  env_ok : ∀ ch s s', inv s → sys.env ch s = some s' → inv s' ∧ ∀ j, rely j s s'

namespace Proof

variable (L : Proof ι Op Ans σ Choice Call Res)

/-- What is known of a caller, now and after any steps of the others. -/
def ThreadOk (i : ι) (s : σ) : Thread Op Ans Call Res → Prop
  | .idle => L.idle i s
  | .running call p =>
      ∀ s', L.inv s' → L.rely i s s' → L.toLogic.wp i p (L.post i call) s'

def ConfigOk (c : Config ι Op Ans σ Call Res) : Prop :=
  L.inv c.state ∧ ∀ i, L.ThreadOk i c.state (c.thread i)

/-! ### Reading off what is known -/

variable {L}

theorem ConfigOk.not_bad {c : Config ι Op Ans σ Call Res} (ok : L.ConfigOk c) {i : ι} {call : Call}
    {op : Op} {k : Ans op → Prog Op Ans Res} (at_op : c.thread i = .running call (.call op k)) :
    ¬L.bad i op c.state := by
  have known := ok.2 i
  rw [at_op] at known
  exact (known c.state ok.1 (L.rely_refl i c.state)).1

theorem ConfigOk.post {c : Config ι Op Ans σ Call Res} (ok : L.ConfigOk c) {i : ι} {call : Call}
    {r : Res} (at_ret : c.thread i = .running call (.ret r)) : L.post i call r c.state := by
  have known := ok.2 i
  rw [at_ret] at known
  exact known c.state ok.1 (L.rely_refl i c.state)

/-! ### The step lemma and soundness -/

variable (L)

theorem threadOk_rely (i : ι) (s s' : σ) (t : Thread Op Ans Call Res) (inv : L.inv s)
    (inv' : L.inv s') (rely : L.rely i s s') (h : L.ThreadOk i s t) : L.ThreadOk i s' t := by
  cases t with
  | idle => exact L.idle_stable i s s' inv inv' rely h
  | running call p => exact fun s'' inv'' rely' => h s'' inv'' (L.rely_trans i s s' s'' rely rely')

variable [DecidableEq ι]

theorem configOk_update (c : Config ι Op Ans σ Call Res) (i : ι) (s' : σ)
    (t : Thread Op Ans Call Res) (ok : L.ConfigOk c) (inv : L.inv s') (mine : L.ThreadOk i s' t)
    (others : ∀ j, j ≠ i → L.rely j c.state s') :
    L.ConfigOk ⟨s', Function.update c.thread i t⟩ := by
  refine ⟨inv, fun j => ?_⟩
  -- The caller that stepped is where its program says, the others may rely on it.
  by_cases same : j = i
  · subst same
    simpa only [Function.update_self] using mine
  · simp only [Function.update_of_ne same]
    exact L.threadOk_rely j c.state s' (c.thread j) ok.1 inv (others j same) (ok.2 j)

/-- The step lemma: no step of the pool falsifies what is known. -/
theorem next_ok (l : Label ι Choice Call) (c c' : Config ι Op Ans σ Call Res)
    (ok : L.ConfigOk c) (holds : L.cond.Holds l c) (next : L.sys.next l c = some c') :
    L.ConfigOk c' := by
  cases l with
  | start i call =>
    have known := ok.2 i
    cases h : c.thread i with
    | running _ _ => simp [System.next, h] at next
    | idle =>
      simp only [System.next, h, Option.map_eq_some_iff] at next
      obtain ⟨s', started, rfl⟩ := next
      rw [h] at known
      obtain ⟨inv', pre, others⟩ := L.start_ok i call c.state s' ok.1 known holds started
      refine L.configOk_update c i s' _ ok inv' ?_ others
      -- Others may step before the body does, and the precondition outlasts that.
      exact fun s'' inv'' rely => L.body_ok i call s'' inv''
        (L.pre_stable i call s' s'' inv' inv'' rely pre)
  | step i ch =>
    have known := ok.2 i
    cases h : c.thread i with
    | idle => simp [System.next, h] at next
    | running call p =>
      cases p with
      | ret r => simp [System.next, h] at next
      | call op k =>
        simp only [System.next, h, Option.map_eq_some_iff] at next
        obtain ⟨⟨a, s'⟩, done, rfl⟩ := next
        rw [h] at known
        -- What is known of the thread holds after any steps of the others, so also now.
        obtain ⟨safe, effect⟩ := known c.state ok.1 (L.rely_refl i c.state)
        obtain ⟨inv', later⟩ := effect ch a s' (holds call op k h) done
        exact L.configOk_update c i s' _ ok inv' later
          (L.guarantee i op ch c.state a s' ok.1 safe done)
  | finish i =>
    have known := ok.2 i
    cases h : c.thread i with
    | idle => simp [System.next, h] at next
    | running call p =>
      cases p with
      | call op k => simp [System.next, h] at next
      | ret r =>
        simp only [System.next, h, Option.some.injEq] at next
        subst next
        rw [h] at known
        have post : L.post i call r c.state := known c.state ok.1 (L.rely_refl i c.state)
        obtain ⟨inv', idle, others⟩ := L.finish_ok i call r c.state ok.1 post
        exact L.configOk_update c i _ _ ok inv' idle others
  | env ch =>
    simp only [System.next, Option.map_eq_some_iff] at next
    obtain ⟨s', moved, rfl⟩ := next
    obtain ⟨inv', rely⟩ := L.env_ok ch c.state s' ok.1 moved
    exact ⟨inv', fun i => L.threadOk_rely i c.state s' (c.thread i) ok.1 inv' (rely i) (ok.2 i)⟩

/-- Soundness: what is known at the start of a run is known at its end. -/
theorem sound (c₀ c : Config ι Op Ans σ Call Res) (initial : L.ConfigOk c₀)
    (run : Reach L.sys L.cond c₀ c) : L.ConfigOk c := by
  induction run with
  | refl => exact initial
  | step l _ ok next ih => exact L.next_ok l _ _ ih ok next

end Proof

end Interaction
