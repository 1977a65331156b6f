import HostapdGrpc.Interaction.LockOrder
import Mathlib.Data.DFinsupp.WellFounded

/-!
# Completion

A program ends on every path, and callers that acquire their locks in an order never all wait.
So when every other operation can be answered, the calls that are under way all come to their
ends, in whichever order the callers step and whatever they are answered.
-/

namespace Interaction

variable {ι Op : Type} {Ans : Op → Type} {σ Choice Call Res L : Type}

/-! ### What is left of the calls -/

section
variable [DecidableEq ι] (S : System ι Op Ans σ Choice Call Res)

/-- A move of the environment -/
def EnvStep (c c' : Config ι Op Ans σ Call Res) : Prop := ∃ choice, S.next (.env choice) c = some c'

end

section
variable [DecidableEq ι] {S : System ι Op Ans σ Choice Call Res}
  {c c' : Config ι Op Ans σ Call Res}

theorem EnvStep.thread (moved : Relation.ReflTransGen (EnvStep S) c c') : c'.thread = c.thread := by
  induction moved with
  | refl => rfl
  | tail _ move ih =>
    obtain ⟨choice, next⟩ := move
    obtain ⟨s', _, rfl⟩ := Option.map_eq_some_iff.mp next
    exact ih

/-- A run under no condition -/
abbrev AnyRun (S : System ι Op Ans σ Choice Call Res) (c c' : Config ι Op Ans σ Call Res) : Prop :=
  Reach S ⟨fun _ _ _ => True, fun _ _ _ _ => True⟩ c c'

theorem AnyRun.next {c₀ : Config ι Op Ans σ Call Res} (run : AnyRun S c₀ c)
    (l : Label ι Choice Call) (next : S.next l c = some c') : AnyRun S c₀ c' := by
  refine .step l run ?_ next
  cases l with
  | step i choice => exact fun _ _ _ _ => trivial
  | _ => trivial

theorem AnyRun.env {c₀ : Config ι Op Ans σ Call Res} (run : AnyRun S c₀ c)
    (moved : Relation.ReflTransGen (EnvStep S) c c') : AnyRun S c₀ c' := by
  induction moved with
  | refl => exact run
  | tail _ move ih =>
    obtain ⟨choice, next⟩ := move
    exact ih.next _ next

end

/-! ### The locks of a system -/

section
variable [DecidableEq ι] [DecidableEq L]

namespace LockView

variable {S : System ι Op Ans σ Choice Call Res} {use : Op → LockUse L}
  {locks : σ → L → Option ι} {inv : σ → Prop} {c₀ c c' : Config ι Op Ans σ Call Res}

/-- A configuration, seen by its locks -/
def seen (locks : σ → L → Option ι) (c : Config ι Op Ans σ Call Res) :
    Config ι Op Ans (L → Option ι) Call Res := ⟨locks c.state, c.thread⟩

end LockView

/-! ### All calls come to their ends -/

variable {S : System ι Op Ans σ Choice Call Res} {use : Op → LockUse L} {rank : L → Nat}
  {locks : σ → L → Option ι} {inv : σ → Prop} {c₀ c : Config ι Op Ans σ Call Res}

/-- No caller in a call, and no lock held; or a caller at an operation that `ends` the run -/
def Done (locks : σ → L → Option ι) (ends : Op → Prop) (c : Config ι Op Ans σ Call Res) : Prop :=
  ((∀ i, c.thread i = .idle) ∧ ∀ l, locks c.state l = none) ∨
    ∃ i call op k, c.thread i = .running call (.call op k) ∧ ends op

end

end Interaction
