import HostapdGrpc.Interaction.ThreadPool

/-!
# Histories

The history of a run is the list of the calls that have returned, in the order of their returns. A
sequential object explains it if, taking the calls one at a time in that order, it gives the same
results. A call returns after it has started, so the order agrees with that of calls that do not
overlap.
-/

namespace Interaction

variable {ι Op : Type} {Ans : Op → Type} {σ τ Choice Call Res : Type}

/-- A call that has returned -/
structure Return (ι Call Res : Type) where
  caller : ι
  call : Call
  res : Res

/-- What the step `l` returns to a caller. -/
def Config.returned (c : Config ι Op Ans σ Call Res) (l : Label ι Choice Call) :
    Option (Return ι Call Res) :=
  match l with
  | .finish i =>
    match c.thread i with
    | .running call (.ret r) => some ⟨i, call, r⟩
    | _ => none
  | _ => none

/-- `Serial spec t₀ h t`: a sequential object that starts in `t₀` and takes the calls of `h` one
after the other, each as `spec` allows, comes to `t`. -/
inductive Serial (spec : Return ι Call Res → τ → τ → Prop) (t₀ : τ) :
    List (Return ι Call Res) → τ → Prop where
  | nil : Serial spec t₀ [] t₀
  | snoc {h : List (Return ι Call Res)} {t t' : τ} (r : Return ι Call Res)
      (before : Serial spec t₀ h t) (last : spec r t t') : Serial spec t₀ (h ++ [r]) t'

namespace Serial

variable {spec : Return ι Call Res → τ → τ → Prop} {t₀ t : τ} {h : List (Return ι Call Res)}

/-- What each call keeps holds of the object after any number of calls. -/
theorem keeps {P : τ → Prop} (serial : Serial spec t₀ h t) (first : P t₀)
    (step : ∀ r t t', P t → spec r t t' → P t') : P t := by
  induction serial with
  | nil => exact first
  | snoc r _ last ih => exact step r _ _ ih last

/-- What a call establishes and the later ones keep holds of every call taken. -/
theorem recorded {Q : Return ι Call Res → τ → Prop} (serial : Serial spec t₀ h t)
    (new : ∀ r t t', spec r t t' → Q r t')
    (kept : ∀ q r t t', Q q t → spec r t t' → Q q t') : ∀ r ∈ h, Q r t := by
  induction serial with
  | nil =>
    intro r member
    cases member
  | snoc r _ last ih =>
    intro q member
    rcases List.mem_append.mp member with earlier | now
    · exact kept q r _ _ (ih q earlier) last
    · rw [List.mem_singleton] at now
      subst now
      exact new q _ _ last

end Serial

section
variable [DecidableEq ι]

/-- `History S C c₀ h c`: a run from `c₀` whose steps all meet `C` leads to `c`, and the calls that
return in it are those of `h`. -/
inductive History (S : System ι Op Ans σ Choice Call Res) (C : Condition ι Op σ Choice Call)
    (c₀ : Config ι Op Ans σ Call Res) :
    List (Return ι Call Res) → Config ι Op Ans σ Call Res → Prop where
  | refl : History S C c₀ [] c₀
  | step {h : List (Return ι Call Res)} {c c' : Config ι Op Ans σ Call Res}
      (l : Label ι Choice Call) (run : History S C c₀ h c) (ok : C.Holds l c)
      (next : S.next l c = some c') : History S C c₀ (h ++ (c.returned l).toList) c'

variable {S : System ι Op Ans σ Choice Call Res} {C : Condition ι Op σ Choice Call}
  {c₀ c : Config ι Op Ans σ Call Res} {h : List (Return ι Call Res)}

theorem History.reach (run : History S C c₀ h c) : Reach S C c₀ c := by
  induction run with
  | refl => exact .refl
  | step l _ ok next ih => exact .step l ih ok next

/-- A history under a stronger condition is one under a weaker condition. -/
theorem History.weaken {D : Condition ι Op σ Choice Call}
    (start : ∀ i call s, C.start i call s → D.start i call s)
    (step : ∀ i op ch s, C.step i op ch s → D.step i op ch s)
    (run : History S C c₀ h c) : History S D c₀ h c := by
  induction run with
  | refl => exact .refl
  | step l _ ok next ih => exact .step l ih (ok.weaken start step) next

/-- An object whose state can be read off the shared state explains every history if a call changes
it, as `spec` allows, when it returns, and no other step does. -/
theorem History.serial {spec : Return ι Call Res → τ → τ → Prop} (view : σ → τ)
    (start : ∀ c i call s', Reach S C c₀ c → c.thread i = .idle → C.start i call c.state →
      S.start i call c.state = some s' → view s' = view c.state)
    (step : ∀ c i call op k ch a s', Reach S C c₀ c → c.thread i = .running call (.call op k) →
      C.step i op ch c.state → S.exec i op ch c.state = some (a, s') → view s' = view c.state)
    (finish : ∀ c i call r, Reach S C c₀ c → c.thread i = .running call (.ret r) →
      spec ⟨i, call, r⟩ (view c.state) (view (S.finish i call r c.state)))
    (env : ∀ c ch s', Reach S C c₀ c → S.env ch c.state = some s' → view s' = view c.state)
    (run : History S C c₀ h c) : Serial spec (view c₀.state) h (view c.state) := by
  induction run with
  | refl => exact .nil
  | @step h c c' l run ok next ih =>
    -- Only a return adds to the history, and only a return moves the object.
    have reached := run.reach
    have still : view c'.state = view c.state →
        Serial spec (view c₀.state) (h ++ []) (view c'.state) := by
      intro same
      rw [List.append_nil, same]
      exact ih
    cases System.stepped next with
    | @start i call s' idle started =>
      exact still (start c i call s' reached idle ok started)
    | @step i ch call op k a s' at_op done =>
      exact still (step c i call op k ch a s' reached at_op (ok call op k at_op) done)
    | @finish i call r at_ret =>
      have last : c.returned (.finish i : Label ι Choice Call) = some ⟨i, call, r⟩ := by
        simp only [Config.returned, at_ret]
      rw [last]
      exact .snoc _ ih (finish c i call r reached at_ret)
    | @env ch s' moved =>
      exact still (env c ch s' reached moved)

/-! ### Schedules -/

/-- The history and the configuration after a schedule that goes on from some history -/
def System.record (S : System ι Op Ans σ Choice Call Res) (start : ι → Call → σ → Bool)
    (step : ι → Op → Choice → σ → Bool) (ls : List (Label ι Choice Call))
    (x : List (Return ι Call Res) × Config ι Op Ans σ Call Res) :
    Option (List (Return ι Call Res) × Config ι Op Ans σ Call Res) :=
  match ls with
  | [] => some x
  | l :: ls =>
    if passes start step l x.2 then
      (S.next l x.2).bind fun c => S.record start step ls (x.1 ++ (x.2.returned l).toList, c)
    else none

theorem history_of_record (start : ι → Call → σ → Bool) (step : ι → Op → Choice → σ → Bool)
    (ls : List (Label ι Choice Call)) {x y : List (Return ι Call Res) × Config ι Op Ans σ Call Res}
    (before : History S (.checked start step) c₀ x.1 x.2)
    (ran : S.record start step ls x = some y) :
    History S (.checked start step) c₀ y.1 y.2 := by
  induction ls generalizing x with
  | nil =>
    cases ran
    exact before
  | cons l ls ih =>
    simp only [System.record] at ran
    split at ran
    next passed =>
      obtain ⟨c, taken, rest⟩ := Option.bind_eq_some_iff.mp ran
      exact ih (before.step l (holds_of_passes passed) taken) rest
    · cases ran

end

end Interaction
