import HostapdGrpc.Interaction.ThreadPool

/-!
# Traces

What the callers have performed in a run, and how they were answered. The trace stands beside the
shared state, where no program can read it, so that an invariant may speak of it.
-/

namespace Interaction

variable {ι Op : Type} {Ans : Op → Type} {σ Choice Call Res α : Type}

namespace Prog

/-- One operation further -/
theorem Leads.snoc {p : Prog Op Ans α} {t : List (Sigma Ans)} {op : Op} {k : Ans op → Prog Op Ans α}
    (leads : p.Leads t (.call op k)) (x : Ans op) : p.Leads (t ++ [⟨op, x⟩]) (k x) := by
  generalize here : Prog.call op k = q at leads
  induction leads with
  | refl p =>
    subst here
    exact .call x (.refl _)
  | call y _ ih => exact .call y (ih here)

/-- A program that has come to its return has been answered along a path. -/
theorem Leads.path {p : Prog Op Ans α} {t : List (Sigma Ans)} {a : α} (leads : p.Leads t (.ret a)) :
    p.Path t a := by
  generalize here : Prog.ret a = q at leads
  induction leads with
  | refl p =>
    subst here
    exact .ret a
  | call x _ ih => exact .call x (ih here)

end Prog

section
variable [DecidableEq ι]

/-- The system with the trace of all callers beside its state -/
def System.traced (S : System ι Op Ans σ Choice Call Res) :
    System ι Op Ans (σ × List (ι × Sigma Ans)) Choice Call Res where
  exec i op ch s := (S.exec i op ch s.1).map fun r => (r.1, (r.2, s.2 ++ [(i, ⟨op, r.1⟩)]))
  body := S.body
  start i call s := (S.start i call s.1).map fun s' => (s', s.2)
  finish i call r s := (S.finish i call r s.1, s.2)
  env ch s := (S.env ch s.1).map fun s' => (s', s.2)

omit [DecidableEq ι] in
/-- A step is one of the system, and is noted. -/
theorem System.traced_exec {S : System ι Op Ans σ Choice Call Res} {i : ι} {op : Op} {ch : Choice}
    {s s' : σ × List (ι × Sigma Ans)} {a : Ans op}
    (done : S.traced.exec i op ch s = some (a, s')) :
    ∃ t, S.exec i op ch s.1 = some (a, t) ∧ s' = (t, s.2 ++ [(i, ⟨op, a⟩)]) := by
  obtain ⟨r, performs, same⟩ := Option.map_eq_some_iff.mp done
  cases same
  exact ⟨r.2, performs, rfl⟩

omit [DecidableEq ι] in
/-- A condition says nothing of the trace. -/
def Condition.traced (C : Condition ι Op σ Choice Call) :
    Condition ι Op (σ × List (ι × Sigma Ans)) Choice Call :=
  ⟨fun i call s => C.start i call s.1, fun i op ch s => C.step i op ch s.1⟩

omit [DecidableEq ι] in
def Config.traced (c : Config ι Op Ans σ Call Res) (t : List (ι × Sigma Ans)) :
    Config ι Op Ans (σ × List (ι × Sigma Ans)) Call Res := ⟨(c.state, t), c.thread⟩

/-- `Traced S C c₀ t c`: a run from `c₀` whose steps all meet `C` leads to `c`, and `t` is what the
callers perform in it. -/
def Traced (S : System ι Op Ans σ Choice Call Res) (C : Condition ι Op σ Choice Call)
    (c₀ : Config ι Op Ans σ Call Res) (t : List (ι × Sigma Ans))
    (c : Config ι Op Ans σ Call Res) : Prop :=
  Reach S.traced C.traced (c₀.traced []) (c.traced t)

/-- What caller `i` performs in a trace -/
def performed (i : ι) (t : List (ι × Sigma Ans)) : List (Sigma Ans) :=
  t.filterMap fun e => if e.1 = i then some e.2 else none

theorem performed_snoc (i j : ι) (e : Sigma Ans) (t : List (ι × Sigma Ans)) :
    performed i (t ++ [(j, e)]) = performed i t ++ if j = i then [e] else [] := by
  by_cases same : j = i <;> simp [performed, List.filterMap_append, same]

variable {S : System ι Op Ans σ Choice Call Res} {C : Condition ι Op σ Choice Call}
  {c₀ c : Config ι Op Ans σ Call Res}

/-- Without the trace, a step is one of the system. -/
private theorem forget_trace {l : Label ι Choice Call}
    {x y : Config ι Op Ans (σ × List (ι × Sigma Ans)) Call Res} (next : S.traced.next l x = some y)
    (ok : (C.traced : Condition ι Op (σ × List (ι × Sigma Ans)) Choice Call).Holds l x) :
    S.next l ⟨x.state.1, x.thread⟩ = some ⟨y.state.1, y.thread⟩ ∧
      C.Holds l (⟨x.state.1, x.thread⟩ : Config ι Op Ans σ Call Res) := by
  cases System.stepped next with
  | @start i call s' idle started =>
    obtain ⟨s', begun, rfl⟩ := Option.map_eq_some_iff.mp started
    exact ⟨by simp only [System.next, idle, begun]; rfl, ok⟩
  | @step i ch call op k a s' at_op done =>
    obtain ⟨r, performs, same⟩ := Option.map_eq_some_iff.mp done
    cases same
    exact ⟨by simp only [System.next, at_op, performs]; rfl, ok⟩
  | @finish i call r at_ret => exact ⟨by simp only [System.next, at_ret]; rfl, trivial⟩
  | @env ch s' moved =>
    obtain ⟨s', moves, rfl⟩ := Option.map_eq_some_iff.mp moved
    exact ⟨by simp only [System.next, moves]; rfl, trivial⟩

theorem Traced.reach {t : List (ι × Sigma Ans)} (run : Traced S C c₀ t c) : Reach S C c₀ c := by
  suffices forgotten : ∀ x, Reach S.traced C.traced (c₀.traced []) x →
      Reach S C c₀ ⟨x.state.1, x.thread⟩ from forgotten _ run
  intro x run
  induction run with
  | refl => exact .refl
  | step l _ ok next ih =>
    obtain ⟨next', ok'⟩ := forget_trace next ok
    exact .step l ih ok' next'

/-- Every run has a trace. -/
theorem Reach.exists_traced (run : Reach S C c₀ c) : ∃ t, Traced S C c₀ t c := by
  induction run with
  | refl => exact ⟨[], .refl⟩
  | @step c c' l _ ok next ih =>
    obtain ⟨t, before⟩ := ih
    have ok' : C.traced.Holds l (c.traced t) := by
      cases l <;> exact ok
    cases System.stepped next with
    | @start i call s' idle started =>
      refine ⟨t, .step (.start i call) before ok' ?_⟩
      simp [System.next, Config.traced, System.traced, idle, started]
    | @step i ch call op k a s' at_op done =>
      refine ⟨t ++ [(i, ⟨op, a⟩)], .step (.step i ch) before ok' ?_⟩
      simp [System.next, Config.traced, System.traced, at_op, done]
    | @finish i call r at_ret =>
      refine ⟨t, .step (.finish i) before ok' ?_⟩
      simp [System.next, Config.traced, System.traced, at_ret]
    | @env ch s' moved =>
      refine ⟨t, .step (.env ch) before ok' ?_⟩
      simp [System.next, Config.traced, System.traced, moved]

/-- A caller in a call has come there by what it performed last. -/
theorem Traced.leads {t : List (ι × Sigma Ans)} (run : Traced S C c₀ t c)
    (idle : ∀ i, c₀.thread i = .idle) {i : ι} {call : Call} {p : Prog Op Ans Res}
    (running : c.thread i = .running call p) :
    ∃ before u, performed i t = before ++ u ∧ (S.body call).Leads u p := by
  -- Only its own steps take a caller further in its program and add to what it performed.
  suffices led : ∀ x, Reach S.traced C.traced (c₀.traced []) x → ∀ call p,
      x.thread i = .running call p → ∃ before u, performed i x.state.2 = before ++ u ∧
        (S.body call).Leads u p from led _ run call p running
  intro x run
  induction run with
  | refl =>
    intro call p running
    cases (idle i).symm.trans running
  | @step x y l _ _ next ih =>
    intro call p running
    cases System.stepped next with
    | @start j call' s' _ started =>
      obtain ⟨s', _, rfl⟩ := Option.map_eq_some_iff.mp started
      by_cases same : i = j
      · subst same
        simp only [Function.update_self, Thread.running.injEq] at running
        obtain ⟨rfl, rfl⟩ := running
        exact ⟨performed i x.state.2, [], (List.append_nil _).symm, .refl _⟩
      · simp only [Function.update_of_ne same] at running
        exact ih call p running
    | @step j ch call' op k a s' at_op done =>
      obtain ⟨r, _, same⟩ := Option.map_eq_some_iff.mp done
      cases same
      simp only [performed_snoc]
      by_cases mine : i = j
      · subst mine
        simp only [Function.update_self, Thread.running.injEq] at running
        obtain ⟨rfl, rfl⟩ := running
        obtain ⟨before, u, split, leads⟩ := ih call' _ at_op
        refine ⟨before, u ++ [⟨op, r.1⟩], ?_, leads.snoc r.1⟩
        rw [split, if_pos rfl, List.append_assoc]
      · simp only [Function.update_of_ne mine] at running
        rw [if_neg (Ne.symm mine), List.append_nil]
        exact ih call p running
    | @finish j call' r at_ret =>
      by_cases same : i = j
      · subst same
        simp only [Function.update_self] at running
        cases running
      · simp only [Function.update_of_ne same] at running
        exact ih call p running
    | @env ch s' moved =>
      obtain ⟨s', _, rfl⟩ := Option.map_eq_some_iff.mp moved
      exact ih call p running

end

end Interaction
