import HostapdGrpc.Interaction.RelyGuarantee
import HostapdGrpc.Interaction.Trace

/-!
# Executions of one program

What one program does from a state on, if its operations are answered there one after the other,
and some of them end the process. Other callers are in it only as what the state may become
between two operations.
-/

namespace Interaction

variable {ι Op : Type} {Ans : Op → Type} {σ Choice Call Res α β : Type}

/-- How operations are answered in a state, and which of them end the process instead -/
structure Answering (Op : Type) (Ans : Op → Type) (σ : Type) where
  step : (op : Op) → σ → Ans op → σ → Prop
  ends : Op → Prop

namespace Prog

/-- `p.Runs A s u out`: from the state `s` on, `p` performs `u`. It returns a value in some state,
or, if `out` is `none`, its next operation ends the process. -/
inductive Runs (A : Answering Op Ans σ) :
    Prog Op Ans α → σ → List (Sigma Ans) → Option (α × σ) → Prop where
  | ret (a : α) (s : σ) : Runs A (.ret a) s [] (some (a, s))
  | ends {op : Op} {k : Ans op → Prog Op Ans α} {s : σ} (here : A.ends op) :
      Runs A (.call op k) s [] none
  | step {op : Op} {k : Ans op → Prog Op Ans α} {s s' : σ} {x : Ans op} {u : List (Sigma Ans)}
      {out : Option (α × σ)} (safe : ¬A.ends op) (answered : A.step op s x s')
      (rest : Runs A (k x) s' u out) : Runs A (.call op k) s (⟨op, x⟩ :: u) out

variable {A : Answering Op Ans σ} {s s' : σ} {u v : List (Sigma Ans)}

theorem runs_ret {a : α} {out : Option (α × σ)} :
    (ret a : Prog Op Ans α).Runs A s u out ↔ u = [] ∧ out = some (a, s) := by
  constructor
  · intro runs
    cases runs
    exact ⟨rfl, rfl⟩
  · rintro ⟨rfl, rfl⟩
    exact .ret a s

/-- An operation that ends the process -/
theorem runs_ends {op : Op} {k : Ans op → Prog Op Ans α} {out : Option (α × σ)} (here : A.ends op) :
    (call op k).Runs A s u out ↔ u = [] ∧ out = none := by
  constructor
  · intro runs
    cases runs with
    | ends => exact ⟨rfl, rfl⟩
    | step safe => exact absurd here safe
  · rintro ⟨rfl, rfl⟩
    exact .ends here

/-- An operation that does not -/
theorem runs_step {op : Op} {k : Ans op → Prog Op Ans α} {out : Option (α × σ)}
    (safe : ¬A.ends op) : (call op k).Runs A s u out ↔
      ∃ x s' v, A.step op s x s' ∧ u = ⟨op, x⟩ :: v ∧ (k x).Runs A s' v out := by
  constructor
  · intro runs
    cases runs with
    | ends here => exact absurd here safe
    | step _ answered rest => exact ⟨_, _, _, answered, rfl, rest⟩
  · rintro ⟨x, s', v, answered, rfl, rest⟩
    exact .step safe answered rest

theorem Runs.bind {p : Prog Op Ans α} {f : α → Prog Op Ans β} {a : α} {out : Option (β × σ)}
    (first : p.Runs A s u (some (a, s'))) (second : (f a).Runs A s' v out) :
    (p >>= f).Runs A s (u ++ v) out := by
  generalize returned : some (a, s') = mid at first
  induction first with
  | ret b t =>
    cases returned
    exact second
  | ends here => cases returned
  | step safe answered _ ih => exact .step safe answered (ih returned)

/-- The process ends in the first part of a sequence, or that returns and the second part runs
on from there. -/
theorem runs_bind {p : Prog Op Ans α} {f : α → Prog Op Ans β} {out : Option (β × σ)}
    (runs : (p >>= f).Runs A s u out) : (out = none ∧ p.Runs A s u none) ∨
      ∃ first second a s', u = first ++ second ∧ p.Runs A s first (some (a, s')) ∧
        (f a).Runs A s' second out := by
  induction p generalizing s u with
  | ret a => exact .inr ⟨[], u, a, s, rfl, .ret a s, runs⟩
  | call op k ih =>
    cases runs with
    | ends here => exact .inl ⟨rfl, .ends here⟩
    | step safe answered rest =>
      obtain ⟨rfl, ended⟩ | ⟨first, second, a, s', rfl, returned, goes_on⟩ := ih _ rest
      · exact .inl ⟨rfl, .step safe answered ended⟩
      · exact .inr ⟨_ :: first, second, a, s', rfl, .step safe answered returned, goes_on⟩

theorem runs_map {p : Prog Op Ans α} {f : α → β} {out : Option (β × σ)}
    (runs : (f <$> p).Runs A s u out) :
    ∃ mid, p.Runs A s u mid ∧ out = mid.map fun r => (f r.1, r.2) := by
  obtain ⟨rfl, ended⟩ | ⟨first, second, a, s', rfl, returned, rest⟩ :=
    runs_bind (f := fun a => ret (f a)) runs
  · exact ⟨none, ended, rfl⟩
  · obtain ⟨rfl, rfl⟩ := runs_ret.mp rest
    exact ⟨some (a, s'), by rwa [List.append_nil], rfl⟩

end Prog

/-! ### Calls in a pool -/

/-- How the operations of caller `i` are answered: between two of them the others do what `i` may
rely on. -/
def Logic.answering (L : Logic ι Op Ans σ Choice Call Res) (ends : Op → Prop) (i : ι) :
    Answering Op Ans σ where
  step op s x s' := ∃ ch t, L.sys.exec i op ch s = some (x, t) ∧ L.rely i t s'
  ends := ends

section
variable [DecidableEq ι] {L : Proof ι Op Ans σ Choice Call Res} {ends : Op → Prop}
  {c₀ c : Config ι Op Ans σ Call Res} {t : List (ι × Sigma Ans)}

/-- However the call of a caller goes on from where a run has come to, with what the caller has
performed before it is an execution of the whole call. -/
theorem Traced.execution (run : Traced L.sys L.cond c₀ t c) (initial : L.ConfigOk c₀)
    (idle : ∀ i, c₀.thread i = .idle) (stops : ∀ i op ch s, ends op → L.sys.exec i op ch s = none)
    {i : ι} {call : Call} {p : Prog Op Ans Res} (running : c.thread i = .running call p)
    {v : List (Sigma Ans)} {out : Option (Res × σ)}
    (rest : p.Runs (L.answering ends i) c.state v out) :
    ∃ before u s₀, performed i t = before ++ u ∧
      (L.sys.body call).Runs (L.answering ends i) s₀ (u ++ v) out := by
  -- Others may step before the caller does, so the rest may start in a later state.
  suffices executed : ∀ x, Reach L.sys.traced L.cond.traced (c₀.traced []) x → ∀ call p,
      x.thread i = .running call p → ∀ s, L.rely i x.state.1 s → ∀ v out,
        p.Runs (L.answering ends i) s v out → ∃ before u s₀, performed i x.state.2 = before ++ u ∧
          (L.sys.body call).Runs (L.answering ends i) s₀ (u ++ v) out from
    executed _ run call p running _ (L.rely_refl i _) v out rest
  intro x run
  induction run with
  | refl =>
    intro call p running
    cases (idle i).symm.trans running
  | @step x y l run ok next ih =>
    have known : L.ConfigOk ⟨x.state.1, x.thread⟩ :=
      L.sound c₀ _ initial (Traced.reach (c := ⟨x.state.1, x.thread⟩) (t := x.state.2) run)
    intro call p running s rely v out rest
    cases System.stepped next with
    | @start j call' s' at_idle started =>
      obtain ⟨s', begun, rfl⟩ := Option.map_eq_some_iff.mp started
      by_cases mine : i = j
      · subst mine
        simp only [Function.update_self, Thread.running.injEq] at running
        obtain ⟨rfl, rfl⟩ := running
        exact ⟨performed i x.state.2, [], s, (List.append_nil _).symm, rest⟩
      · simp only [Function.update_of_ne mine] at running
        have idle_j := known.2 j
        simp only [at_idle] at idle_j
        have others := (L.start_ok j call' x.state.1 s' known.1 idle_j ok begun).2.2 i mine
        exact ih call p running s (L.rely_trans i _ _ _ others rely) v out rest
    | @step j ch call' op k a s' at_op done =>
      obtain ⟨s', performs, rfl⟩ := System.traced_exec done
      simp only [performed_snoc]
      by_cases mine : i = j
      · subst mine
        simp only [Function.update_self, Thread.running.injEq] at running
        obtain ⟨rfl, rfl⟩ := running
        have goes_on : ¬ends op := fun here => by
          rw [stops i op ch x.state.1 here] at performs
          cases performs
        obtain ⟨before, u, s₀, split, whole⟩ := ih call' _ at_op x.state.1 (L.rely_refl i _) _ out
          (.step goes_on ⟨ch, s', performs, rely⟩ rest)
        refine ⟨before, u ++ [⟨op, a⟩], s₀, ?_, by simpa using whole⟩
        rw [split, if_pos rfl, List.append_assoc]
      · simp only [Function.update_of_ne mine] at running
        rw [if_neg (Ne.symm mine), List.append_nil]
        have others :=
          L.guarantee j op ch x.state.1 a s' known.1 (known.not_bad at_op) performs i mine
        exact ih call p running s (L.rely_trans i _ _ _ others rely) v out rest
    | @finish j call' r at_ret =>
      by_cases mine : i = j
      · subst mine
        simp only [Function.update_self] at running
        cases running
      · simp only [Function.update_of_ne mine] at running
        have others := (L.finish_ok j call' r x.state.1 known.1 (known.post at_ret)).2.2 i mine
        exact ih call p running s (L.rely_trans i _ _ _ others rely) v out rest
    | @env ch s' moved =>
      obtain ⟨s', moves, rfl⟩ := Option.map_eq_some_iff.mp moved
      have others := (L.env_ok ch x.state.1 s' known.1 moves).2 i
      exact ih call p running s (L.rely_trans i _ _ _ others rely) v out rest

end

end Interaction
