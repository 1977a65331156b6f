import HostapdGrpc.Interaction.Simulation

/-!
# Handles

Some operations need a handle, some hand one out or give one up. Whether a program uses only
handles it has can be told from the program, whatever its operations are answered; where the
operations are carried out by other programs, that is all a pool needs to know of it.
-/

namespace Interaction

variable {Op : Type} {Ans : Op → Type} {κ α β : Type}

/-- The handle that an operation needs, and the handles that it leaves to its caller -/
structure Custody (Op : Type) (Ans : Op → Type) (κ : Type) where
  needs : Op → Option κ
  after : (op : Op) → Ans op → List κ → List κ

/-- With the handles `held`, the operation has what it needs. -/
def Custody.Allows (C : Custody Op Ans κ) (op : Op) (held : List κ) : Prop :=
  ∀ h, C.needs op = some h → h ∈ held

/-- With the handles `held`, `p` uses only handles it has, and returns only with `Q`. -/
def Owns (C : Custody Op Ans κ) (held : List κ) (p : Prog Op Ans α) (Q : α → List κ → Prop) :
    Prop :=
  match p with
  | .ret a => Q a held
  | .call op k => C.Allows op held ∧ ∀ x, Owns C (C.after op x held) (k x) Q

namespace Owns

variable {C : Custody Op Ans κ} {held : List κ}

theorem ret {Q : α → List κ → Prop} {a : α} (post : Q a held) :
    Owns C held (.ret a : Prog Op Ans α) Q :=
  post

theorem call {Q : α → List κ → Prop} {op : Op} {k : Ans op → Prog Op Ans α}
    (allowed : C.Allows op held) (rest : ∀ x, Owns C (C.after op x held) (k x) Q) :
    Owns C held (Prog.perform op >>= k) Q :=
  ⟨allowed, rest⟩

theorem mono {Q R : α → List κ → Prop} {p : Prog Op Ans α} (h : Owns C held p Q)
    (weaker : ∀ a l, Q a l → R a l) : Owns C held p R := by
  induction p generalizing held with
  | ret a => exact weaker a held h
  | call op k ih => exact ⟨h.1, fun x => ih x (h.2 x)⟩

theorem bind {Q : α → List κ → Prop} {R : β → List κ → Prop} {p : Prog Op Ans α}
    {f : α → Prog Op Ans β} (first : Owns C held p Q)
    (second : ∀ a l, Q a l → Owns C l (f a) R) : Owns C held (p >>= f) R := by
  induction p generalizing held with
  | ret a => exact second a held first
  | call op k ih => exact ⟨first.1, fun x => ih x (first.2 x)⟩

theorem map {Q : β → List κ → Prop} {p : Prog Op Ans α} (f : α → β)
    (h : Owns C held p fun a => Q (f a)) : Owns C held (f <$> p) Q :=
  bind h fun _ _ post => ret post

/-- Operations that have nothing to do with handles -/
theorem of_only {P : Op → Prop} {p : Prog Op Ans α} (only : p.Only P)
    (apart : ∀ op, P op → C.needs op = none ∧ ∀ x l, C.after op x l = l) :
    Owns C held p fun _ l => l = held := by
  induction only with
  | ret a => exact rfl
  | @call op k here _ ih =>
    obtain ⟨needs, after⟩ := apart op here
    refine ⟨fun h needed => ?_, fun x => ?_⟩
    · rw [needs] at needed
      cases needed
    · rw [after]
      exact ih x

end Owns

/-! ### Programs that are carried out by others -/

section
variable {ι Op' Op'' : Type} {Ans' : Op' → Type} {Ans'' : Op'' → Type}
  {σ τ Choice Choice' Call Call' Res Res' : Type}
  {K : Coupling ι Op' Ans' σ Choice Call Res Op'' Ans'' τ Choice' Call' Res'} {i : ι}
  {C : Custody Op Ans κ} {handle : (op : Op) → Prog Op' Ans' (Ans op)}

/-- If the caller comes from `P held` to `P` of what an operation leaves to it, then so it does
with a program that uses only handles it has. -/
theorem Owns.sim {P : List κ → Thread Op'' Ans'' Call' Res' → σ → Prop}
    (handled : ∀ op held, C.Allows op held →
      K.Sim i (P held) (handle op) fun x => P (C.after op x held))
    {p : Prog Op Ans α} {held : List κ} {Q : α → List κ → Prop} (owns : Owns C held p Q) :
    K.Sim i (P held) (p.interpret handle) fun a u s => ∃ l, Q a l ∧ P l u s := by
  induction p generalizing held with
  | ret a => exact .ret a fun u s _ pre => ⟨held, owns, pre⟩
  | call op k ih => exact (handled op held owns.1).bind fun x => ih x (owns.2 x)

end

end Interaction
