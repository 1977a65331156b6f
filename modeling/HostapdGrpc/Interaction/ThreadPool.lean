import HostapdGrpc.Interaction.Program
import Mathlib.Logic.Function.Basic

/-!
# Thread pools

Any number of callers share one state. A caller is idle or runs the program of one
call; a step of the pool starts a call, performs the next operation of one running
program, hands a returned value back to its caller, or is a move of the environment.
Programs of different callers interleave operation by operation in any order.
-/

namespace Interaction

variable {ι Op : Type} {Ans : Op → Type} {σ Choice Call Res : Type}

/-- What the operations, the calls and the environment do to the shared state. A step
takes what is outside the programs' control (an outcome, an order) as a `Choice`;
`none` means that the step cannot be taken now. -/
structure System (ι Op : Type) (Ans : Op → Type) (σ Choice Call Res : Type) where
  exec : ι → (op : Op) → Choice → σ → Option (Ans op × σ)
  body : Call → Prog Op Ans Res
  start : ι → Call → σ → Option σ
  finish : ι → Call → Res → σ → σ
  env : Choice → σ → Option σ

/-- A caller: between calls, or in a call with the rest of its program. -/
inductive Thread (Op : Type) (Ans : Op → Type) (Call Res : Type) where
  | idle
  | running (call : Call) (rest : Prog Op Ans Res)

/-- The call a caller is in. -/
def Thread.call (t : Thread Op Ans Call Res) : Option Call :=
  match t with
  | .idle => none
  | .running call _ => some call

structure Config (ι Op : Type) (Ans : Op → Type) (σ Call Res : Type) where
  state : σ
  thread : ι → Thread Op Ans Call Res

inductive Label (ι Choice Call : Type) where
  | start (i : ι) (call : Call)
  | step (i : ι) (choice : Choice)
  | finish (i : ι)
  | env (choice : Choice)

namespace System

variable [DecidableEq ι] (S : System ι Op Ans σ Choice Call Res)

def next (l : Label ι Choice Call) (c : Config ι Op Ans σ Call Res) :
    Option (Config ι Op Ans σ Call Res) :=
  match l with
  | .start i call =>
    match c.thread i with
    | .idle => (S.start i call c.state).map fun s =>
        ⟨s, Function.update c.thread i (.running call (S.body call))⟩
    | .running _ _ => none
  | .step i choice =>
    match c.thread i with
    -- The answer decides how the program goes on.
    | .running call (.call op k) => (S.exec i op choice c.state).map fun r =>
        ⟨r.2, Function.update c.thread i (.running call (k r.1))⟩
    | _ => none
  | .finish i =>
    match c.thread i with
    | .running call (.ret r) => some ⟨S.finish i call r c.state, Function.update c.thread i .idle⟩
    | _ => none
  | .env choice => (S.env choice c.state).map fun s => ⟨s, c.thread⟩

end System

/-- A condition on the steps of a run: on the calls made and on the outcomes the
environment chooses. -/
structure Condition (ι Op σ Choice Call : Type) where
  start : ι → Call → σ → Prop
  step : ι → Op → Choice → σ → Prop

namespace Condition

/-- A condition that can be evaluated. -/
def checked (start : ι → Call → σ → Bool) (step : ι → Op → Choice → σ → Bool) :
    Condition ι Op σ Choice Call :=
  ⟨fun i call s => start i call s = true, fun i op ch s => step i op ch s = true⟩

/-- The condition holds of the step `l` taken in `c`. -/
def Holds (C : Condition ι Op σ Choice Call) (l : Label ι Choice Call)
    (c : Config ι Op Ans σ Call Res) : Prop :=
  match l with
  | .start i call => C.start i call c.state
  | .step i choice => ∀ call op k, c.thread i = .running call (.call op k) →
      C.step i op choice c.state
  -- A return and a move of the environment are always allowed.
  | _ => True

end Condition

section
variable [DecidableEq ι]

/-- `Reach S C c₀ c`: a run from `c₀` whose steps all meet `C` leads to `c`. -/
inductive Reach (S : System ι Op Ans σ Choice Call Res) (C : Condition ι Op σ Choice Call)
    (c₀ : Config ι Op Ans σ Call Res) : Config ι Op Ans σ Call Res → Prop where
  | refl : Reach S C c₀ c₀
  | step {c c' : Config ι Op Ans σ Call Res} (l : Label ι Choice Call)
      (run : Reach S C c₀ c) (ok : C.Holds l c) (next : S.next l c = some c') : Reach S C c₀ c'

variable {S : System ι Op Ans σ Choice Call Res} {C D : Condition ι Op σ Choice Call}
  {c₀ c c' : Config ι Op Ans σ Call Res}

/-- All that a step can be -/
inductive Stepped (S : System ι Op Ans σ Choice Call Res) (c : Config ι Op Ans σ Call Res) :
    Label ι Choice Call → Config ι Op Ans σ Call Res → Prop where
  | start {i : ι} {call : Call} {s' : σ} (idle : c.thread i = .idle)
      (started : S.start i call c.state = some s') :
      Stepped S c (.start i call) ⟨s', Function.update c.thread i (.running call (S.body call))⟩
  | step {i : ι} {choice : Choice} {call : Call} {op : Op} {k : Ans op → Prog Op Ans Res}
      {a : Ans op} {s' : σ} (at_op : c.thread i = .running call (.call op k))
      (done : S.exec i op choice c.state = some (a, s')) :
      Stepped S c (.step i choice) ⟨s', Function.update c.thread i (.running call (k a))⟩
  | finish {i : ι} {call : Call} {r : Res} (at_ret : c.thread i = .running call (.ret r)) :
      Stepped S c (.finish i) ⟨S.finish i call r c.state, Function.update c.thread i .idle⟩
  | env {choice : Choice} {s' : σ} (moved : S.env choice c.state = some s') :
      Stepped S c (.env choice) ⟨s', c.thread⟩

theorem System.stepped {l : Label ι Choice Call} (next : S.next l c = some c') :
    Stepped S c l c' := by
  cases l with
  | start i call =>
    simp only [System.next] at next
    split at next
    next idle =>
      obtain ⟨s', started, rfl⟩ := Option.map_eq_some_iff.mp next
      exact .start idle started
    · cases next
  | step i choice =>
    simp only [System.next] at next
    split at next
    next call op k at_op =>
      obtain ⟨⟨a, s'⟩, done, rfl⟩ := Option.map_eq_some_iff.mp next
      exact .step at_op done
    · cases next
  | finish i =>
    simp only [System.next] at next
    split at next
    next call r at_ret =>
      cases next
      exact .finish at_ret
    · cases next
  | env choice =>
    obtain ⟨s', moved, rfl⟩ := Option.map_eq_some_iff.mp next
    exact .env moved

omit [DecidableEq ι] in
/-- Only calls and operations are under a condition. -/
theorem Condition.Holds.weaken {l : Label ι Choice Call}
    (start : ∀ i call s, C.start i call s → D.start i call s)
    (step : ∀ i op ch s, C.step i op ch s → D.step i op ch s) (ok : C.Holds l c) :
    D.Holds l c := by
  cases l with
  | start i call => exact start i call c.state ok
  | step i ch => exact fun call op k at_op => step i op ch c.state (ok call op k at_op)
  | finish i => trivial
  | env ch => trivial

/-- A run under a stronger condition is one under a weaker condition. -/
theorem Reach.weaken (start : ∀ i call s, C.start i call s → D.start i call s)
    (step : ∀ i op ch s, C.step i op ch s → D.step i op ch s)
    (h : Reach S C c₀ c) : Reach S D c₀ c := by
  induction h with
  | refl => exact .refl
  | step l _ ok next ih => exact .step l ih (ok.weaken start step) next

theorem Reach.trans (first : Reach S C c₀ c) (second : Reach S C c c') : Reach S C c₀ c' := by
  induction second with
  | refl => exact first
  | step l _ ok next ih => exact .step l ih ok next

/-! ### Schedules -/

/-- The check of a `checked` condition, on one step. -/
def passes (start : ι → Call → σ → Bool) (step : ι → Op → Choice → σ → Bool)
    (l : Label ι Choice Call) (c : Config ι Op Ans σ Call Res) : Bool :=
  match l with
  | .start i call => start i call c.state
  | .step i choice =>
    match c.thread i with
    | .running _ (.call op _) => step i op choice c.state
    | _ => true
  | _ => true

omit [DecidableEq ι] in
theorem holds_of_passes {start : ι → Call → σ → Bool} {step : ι → Op → Choice → σ → Bool}
    {l : Label ι Choice Call} {c : Config ι Op Ans σ Call Res}
    (h : passes start step l c = true) : (Condition.checked start step).Holds l c := by
  cases l with
  | start i call => exact h
  | step i choice =>
    intro call op k at_op
    simp only [passes, at_op] at h
    exact h
  | finish i => trivial
  | env choice => trivial

/-- One call from its start to its return, with nothing in between. -/
def uninterrupted (i : ι) (call : Call) (choices : List Choice) : List (Label ι Choice Call) :=
  .start i call :: choices.map (.step i) ++ [.finish i]

/-- The configuration after a schedule, if every step of it can be taken and passes. -/
def System.run (S : System ι Op Ans σ Choice Call Res) (start : ι → Call → σ → Bool)
    (step : ι → Op → Choice → σ → Bool) (ls : List (Label ι Choice Call))
    (c : Config ι Op Ans σ Call Res) : Option (Config ι Op Ans σ Call Res) :=
  match ls with
  | [] => some c
  | l :: ls => if passes start step l c then (S.next l c).bind (S.run start step ls) else none

theorem reach_of_run (start : ι → Call → σ → Bool) (step : ι → Op → Choice → σ → Bool)
    (ls : List (Label ι Choice Call)) (ran : S.run start step ls c₀ = some c) :
    Reach S (.checked start step) c₀ c := by
  induction ls generalizing c₀ with
  | nil =>
    cases ran
    exact .refl
  | cons l ls ih =>
    simp only [System.run] at ran
    split at ran
    next passed =>
      -- A run is built from its end, a schedule from its start, so the step goes in front.
      obtain ⟨mid, taken, rest⟩ := Option.bind_eq_some_iff.mp ran
      exact (Reach.step l .refl (holds_of_passes passed) taken).trans (ih rest)
    · cases ran

/-- A schedule that can be taken to its end is a run to a configuration like its last. -/
theorem exists_reach (S : System ι Op Ans σ Choice Call Res) (c₀ : Config ι Op Ans σ Call Res)
    (start : ι → Call → σ → Bool) (step : ι → Op → Choice → σ → Bool)
    (ls : List (Label ι Choice Call)) (goal : Config ι Op Ans σ Call Res → Bool)
    (ran : (S.run start step ls c₀).any goal = true) :
    ∃ c, Reach S (.checked start step) c₀ c ∧ goal c = true := by
  obtain ⟨c, last, holds⟩ := (Option.any_eq_true goal _).mp ran
  exact ⟨c, reach_of_run start step ls last, holds⟩

end

end Interaction
