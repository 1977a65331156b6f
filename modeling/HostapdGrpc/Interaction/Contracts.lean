import HostapdGrpc.Interaction.Interpret

/-!
# Contracts of the operations

What every answer of an operation satisfies is its contract, on which a program may rely when it
decides how to go on. So it never comes to an operation that only an answer against a contract
would lead to, in whatever system keeps the contracts.
-/

namespace Interaction

variable {ι Op Op' : Type} {Ans : Op → Type} {Ans' : Op' → Type}
  {σ Choice Call Res α β : Type}

namespace Prog

/-- While the answers meet the contract, `p` comes only to operations with `P`, and it returns
only results with `Q`. -/
inductive Given (contract : (op : Op) → Ans op → Prop) (P : Op → Prop) (Q : α → Prop) :
    Prog Op Ans α → Prop where
  | ret {a : α} (result : Q a) : Given contract P Q (.ret a)
  | call {op : Op} {k : Ans op → Prog Op Ans α} (here : P op)
    (rest : ∀ x, contract op x → Given contract P Q (k x)) : Given contract P Q (.call op k)

namespace Given

variable {contract : (op : Op) → Ans op → Prop} {P : Op → Prop} {Q : α → Prop} {R : β → Prop}

theorem perform {op : Op} (here : P op) :
    Given contract P (contract op) (perform op : Prog Op Ans (Ans op)) :=
  .call here fun _ => .ret

theorem bind {p : Prog Op Ans α} {f : α → Prog Op Ans β} (first : Given contract P Q p)
    (second : ∀ a, Q a → Given contract P R (f a)) : Given contract P R (p >>= f) := by
  induction first with
  | ret result => exact second _ result
  | call here _ ih => exact .call here ih

theorem mono {Q' : α → Prop} {p : Prog Op Ans α} (given : Given contract P Q p)
    (weaker : ∀ a, Q a → Q' a) : Given contract P Q' p := by
  induction given with
  | ret result => exact .ret (weaker _ result)
  | call here _ ih => exact .call here ih

theorem map {p : Prog Op Ans α} {f : α → β} (first : Given contract P (fun a => R (f a)) p) :
    Given contract P R (f <$> p) :=
  first.bind fun _ => .ret

theorem of_only {p : Prog Op Ans α} (only : Only P p) : Given contract P (fun _ => True) p := by
  induction only with
  | ret a => exact .ret trivial
  | call here _ ih => exact .call here fun x _ => ih x

/-- Operations that are carried out by programs keep the contracts that these keep. -/
theorem interpret {contract' : (op : Op') → Ans' op → Prop} {P' : Op' → Prop}
    {handle : (op : Op) → Prog Op' Ans' (Ans op)} {p : Prog Op Ans α}
    (given : Given contract P Q p)
    (handled : ∀ op, P op → Given contract' P' (contract op) (handle op)) :
    Given contract' P' Q (p.interpret handle) := by
  induction given with
  | ret result => exact .ret result
  | @call op k here _ ih => exact (handled op here).bind ih

end Given

end Prog

/-! ### In a pool -/

section
variable (S : System ι Op Ans σ Choice Call Res) (C : Condition ι Op σ Choice Call) (P : Op → Prop)

/-- An operation without `P` is bad. -/
def contractLogic : Logic ι Op Ans σ Choice Call Res where
  sys := S
  cond := C
  inv _ := True
  rely _ _ _ := True
  bad _ op _ := ¬P op
  rely_refl _ _ := trivial
  rely_trans _ _ _ _ _ _ := trivial
  guarantee _ _ _ _ _ _ _ _ _ _ _ := trivial

variable {S C P} {contract : (op : Op) → Ans op → Prop}

/-- In a system that keeps the contracts, the programs that rely on them are verified. -/
theorem Prog.Given.triple {Q : α → Prop} {p : Prog Op Ans α} (given : p.Given contract P Q)
    (kept : ∀ i op ch s a s', C.step i op ch s → S.exec i op ch s = some (a, s') → contract op a)
    (i : ι) : (contractLogic S C P).Triple i (fun _ => True) p fun a _ => Q a := by
  induction given with
  | ret result => exact .ret _ fun _ _ _ => result
  | @call op k here _ ih =>
    refine fun s _ _ => ⟨not_not.mpr here, fun ch a s' ok done => ⟨trivial, fun s'' _ _ => ?_⟩⟩
    exact ih a (kept i op ch s a s' ok done) s'' trivial trivial

def contractProof (bodies : ∀ call, (S.body call).Given contract P fun _ => True)
    (kept : ∀ i op ch s a s', C.step i op ch s → S.exec i op ch s = some (a, s') → contract op a) :
    Proof ι Op Ans σ Choice Call Res where
  toLogic := contractLogic S C P
  idle _ _ := True
  pre _ _ _ := True
  post _ _ _ _ := True
  idle_stable _ := .const True
  pre_stable _ _ := .const True
  start_ok _ _ _ _ _ _ _ _ := ⟨trivial, trivial, fun _ _ => trivial⟩
  body_ok i call := (bodies call).triple kept i
  finish_ok _ _ _ _ _ _ := ⟨trivial, trivial, fun _ _ => trivial⟩
  env_ok _ _ _ _ _ := ⟨trivial, fun _ => trivial⟩

variable [DecidableEq ι] {c₀ c : Config ι Op Ans σ Call Res}

/-- In no run does a caller come to an operation that its program rules out. -/
theorem Reach.given (bodies : ∀ call, (S.body call).Given contract P fun _ => True)
    (kept : ∀ i op ch s a s', C.step i op ch s → S.exec i op ch s = some (a, s') → contract op a)
    (idle : ∀ i, c₀.thread i = .idle) (run : Reach S C c₀ c) {i : ι} {call : Call} {op : Op}
    {k : Ans op → Prog Op Ans Res} (at_op : c.thread i = .running call (.call op k)) : P op := by
  have initial : (contractProof bodies kept).ConfigOk c₀ :=
    ⟨trivial, fun i => (idle i).symm ▸ trivial⟩
  exact not_not.mp (((contractProof bodies kept).sound c₀ c initial run).not_bad at_op)

/-- What holds of every operation of the programs -/
theorem Reach.only (bodies : ∀ call, (S.body call).Only P) (idle : ∀ i, c₀.thread i = .idle)
    (run : Reach S C c₀ c) {i : ι} {call : Call} {op : Op} {k : Ans op → Prog Op Ans Res}
    (at_op : c.thread i = .running call (.call op k)) : P op := by
  have trusting : ∀ call, (S.body call).Given (fun _ _ => True) P fun _ => True :=
    fun call => .of_only (bodies call)
  exact run.given trusting (fun _ _ _ _ _ _ _ _ => trivial) idle at_op

/-- What holds of every operation that a run comes to is a condition that it meets. -/
theorem Reach.under (every : ∀ c i call op k, Reach S C c₀ c →
    c.thread i = .running call (.call op k) → P op) (run : Reach S C c₀ c) :
    Reach S ⟨C.start, fun i op ch s => C.step i op ch s ∧ P op⟩ c₀ c := by
  induction run with
  | refl => exact .refl
  | @step c c' l run ok next ih =>
    refine .step l ih ?_ next
    cases l with
    | step i ch => exact fun call op k at_op => ⟨ok call op k at_op, every c i call op k run at_op⟩
    | start i call => exact ok
    | _ => trivial

end

end Interaction
