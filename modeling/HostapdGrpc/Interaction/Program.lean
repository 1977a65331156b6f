import Mathlib.Logic.Relation
import Mathlib.Data.List.Basic

/-!
# Programs over operations

A program is a tree: it returns a value, or performs an operation of a signature
`(Op, Ans)` and continues with the answer it is given. Nothing is said here about
what the operations do; the other modules of the library give them a meaning by
answering them one at a time.
-/

namespace Interaction

variable {Op : Type} {Ans : Op → Type} {α β γ : Type}

/-- A program that performs operations `op : Op`, each answered in `Ans op`. -/
inductive Prog (Op : Type) (Ans : Op → Type) (α : Type) : Type where
  | ret (a : α)
  | call (op : Op) (k : Ans op → Prog Op Ans α)

namespace Prog

/-- Sequencing: graft `f` onto the leaves of `p`. -/
def bind (p : Prog Op Ans α) (f : α → Prog Op Ans β) : Prog Op Ans β :=
  match p with
  | ret a => f a
  | call op k => call op fun x => bind (k x) f

instance : Monad (Prog Op Ans) where
  pure := ret
  bind := bind

/-- Perform one operation and return its answer. -/
def perform (op : Op) : Prog Op Ans (Ans op) := call op ret

@[simp] theorem pure_eq (a : α) : (pure a : Prog Op Ans α) = ret a := rfl

@[simp] theorem ret_bind (a : α) (f : α → Prog Op Ans β) : (ret a >>= f) = f a := rfl

@[simp] theorem call_bind (op : Op) (k : Ans op → Prog Op Ans α) (f : α → Prog Op Ans β) :
    (call op k >>= f) = call op fun x => k x >>= f := rfl

theorem bind_ret (p : Prog Op Ans α) : (p >>= ret) = p := by
  induction p with
  | ret a => rfl
  | call op k ih => simp only [call_bind, ih]

theorem bind_assoc (p : Prog Op Ans α) (f : α → Prog Op Ans β) (g : β → Prog Op Ans γ) :
    (p >>= f >>= g) = (p >>= fun a => f a >>= g) := by
  induction p with
  | ret a => rfl
  | call op k ih => simp only [call_bind, ih]

instance : LawfulMonad (Prog Op Ans) :=
  LawfulMonad.mk' (Prog Op Ans) (fun p => bind_ret p) (fun a f => ret_bind a f)
    (fun p f g => bind_assoc p f g)

/-! ### Paths

A path is one way the world can answer a program up to its return. -/

/-- `p.Path t a`: answered as `t` says, `p` returns `a`. -/
inductive Path : Prog Op Ans α → List (Sigma Ans) → α → Prop where
  | ret (a : α) : Path (.ret a) [] a
  | call {op : Op} {k : Ans op → Prog Op Ans α} (x : Ans op) {t : List (Sigma Ans)} {a : α}
      (rest : Path (k x) t a) : Path (.call op k) (⟨op, x⟩ :: t) a

@[simp] theorem path_ret (a b : α) (t : List (Sigma Ans)) :
    Path (ret a) t b ↔ t = [] ∧ b = a := by
  constructor
  · intro h
    cases h
    exact ⟨rfl, rfl⟩
  · rintro ⟨rfl, rfl⟩
    exact .ret _

@[simp] theorem path_call (op : Op) (k : Ans op → Prog Op Ans α) (t : List (Sigma Ans)) (a : α) :
    Path (call op k) t a ↔ ∃ x t', t = ⟨op, x⟩ :: t' ∧ Path (k x) t' a := by
  constructor
  · intro h
    cases h with
    | call x rest => exact ⟨x, _, rfl, rest⟩
  · rintro ⟨x, t', rfl, rest⟩
    exact .call x rest

/-- A path of a sequence is a path of its first part followed by one of its second. -/
theorem path_bind (p : Prog Op Ans α) (f : α → Prog Op Ans β) (t : List (Sigma Ans)) (b : β) :
    Path (p >>= f) t b ↔ ∃ t₁ t₂ a, t = t₁ ++ t₂ ∧ Path p t₁ a ∧ Path (f a) t₂ b := by
  induction p generalizing t with
  | ret a =>
    simp only [ret_bind, path_ret]
    constructor
    · intro h
      exact ⟨[], t, a, rfl, ⟨rfl, rfl⟩, h⟩
    · rintro ⟨t₁, t₂, a', rfl, ⟨rfl, rfl⟩, h⟩
      simpa using h
  | call op k ih =>
    simp only [call_bind, path_call, ih]
    constructor
    · rintro ⟨x, t', rfl, t₁, t₂, a, rfl, first, second⟩
      exact ⟨⟨op, x⟩ :: t₁, t₂, a, rfl, ⟨x, t₁, rfl, first⟩, second⟩
    · rintro ⟨t₁, t₂, a, rfl, ⟨x, t', rfl, first⟩, second⟩
      exact ⟨x, t' ++ t₂, rfl, t', t₂, a, rfl, first, second⟩

theorem path_perform (op : Op) (t : List (Sigma Ans)) (x : Ans op) :
    Path (perform op) t x ↔ t = [⟨op, x⟩] := by
  simp only [perform, path_call, path_ret]
  constructor
  · rintro ⟨y, t', rfl, rfl, rfl⟩
    rfl
  · rintro rfl
    exact ⟨x, [], rfl, rfl, rfl⟩

/-- The answers decide where the first part of a sequence ends and what it returns. -/
theorem Path.rest {p : Prog Op Ans α} {f : α → Prog Op Ans β} {t u : List (Sigma Ans)} {a : α}
    {b : β} (first : Path p t a) (whole : Path (p >>= f) (t ++ u) b) : Path (f a) u b := by
  induction first with
  | ret a => exact whole
  | call x _ ih =>
    cases whole with
    | call _ rest => exact ih rest

/-- After its first part, a sequence goes on from what that returned. -/
theorem Path.bind_iff {p : Prog Op Ans α} {f : α → Prog Op Ans β} {t u : List (Sigma Ans)} {a : α}
    {b : β} (first : Path p t a) : Path (p >>= f) (t ++ u) b ↔ Path (f a) u b :=
  ⟨first.rest, fun second => (path_bind _ _ _ _).mpr ⟨t, u, a, rfl, first, second⟩⟩

/-- The answers decide what a program returns. -/
theorem Path.unique {p : Prog Op Ans α} {t : List (Sigma Ans)} {a b : α} (h : Path p t a)
    (h' : Path p t b) : a = b := by
  induction h with
  | ret a => exact ((path_ret _ _ _).mp h').2.symm
  | call x _ ih =>
    cases h' with
    | call _ rest => exact ih rest

/-- The first operation of a sequence -/
theorem path_perform_bind (op : Op) (f : Ans op → Prog Op Ans α) (t : List (Sigma Ans)) (a : α) :
    Path (perform op >>= f) t a ↔ ∃ x t', t = ⟨op, x⟩ :: t' ∧ Path (f x) t' a :=
  path_call op f t a

theorem path_map (p : Prog Op Ans α) (f : α → β) (t : List (Sigma Ans)) (b : β) :
    Path (f <$> p) t b ↔ ∃ a, Path p t a ∧ b = f a := by
  change Path (p >>= fun a => ret (f a)) t b ↔ _
  simp only [path_bind, path_ret]
  constructor
  · rintro ⟨t₁, _, a, rfl, first, rfl, rfl⟩
    exact ⟨a, by simpa using first, rfl⟩
  · rintro ⟨a, first, rfl⟩
    exact ⟨t, [], a, by simp, first, rfl, rfl⟩

/-! ### Partial runs -/

/-- `p.Leads t q`: answered as `t` says, `p` has come to `q`. -/
inductive Leads : Prog Op Ans α → List (Sigma Ans) → Prog Op Ans α → Prop where
  | refl (p : Prog Op Ans α) : Leads p [] p
  | call {op : Op} {k : Ans op → Prog Op Ans α} (x : Ans op) {t : List (Sigma Ans)}
      {q : Prog Op Ans α} (rest : Leads (k x) t q) : Leads (.call op k) (⟨op, x⟩ :: t) q

theorem leads_ret (a : α) (t : List (Sigma Ans)) (q : Prog Op Ans α) :
    Leads (ret a) t q ↔ t = [] ∧ q = ret a := by
  constructor
  · intro h
    cases h
    exact ⟨rfl, rfl⟩
  · rintro ⟨rfl, rfl⟩
    exact .refl _

theorem leads_call (op : Op) (k : Ans op → Prog Op Ans α) (t : List (Sigma Ans))
    (q : Prog Op Ans α) : Leads (call op k) t q ↔
      (t = [] ∧ q = call op k) ∨ ∃ x t', t = ⟨op, x⟩ :: t' ∧ Leads (k x) t' q := by
  constructor
  · intro h
    cases h with
    | refl => exact .inl ⟨rfl, rfl⟩
    | call x rest => exact .inr ⟨x, _, rfl, rest⟩
  · rintro (⟨rfl, rfl⟩ | ⟨x, t', rfl, rest⟩)
    · exact .refl _
    · exact .call x rest

/-- The first operation of a sequence -/
theorem leads_perform_bind (op : Op) (f : Ans op → Prog Op Ans α) (t : List (Sigma Ans))
    (q : Prog Op Ans α) : Leads (perform op >>= f) t q ↔
      (t = [] ∧ q = call op f) ∨ ∃ x t', t = ⟨op, x⟩ :: t' ∧ Leads (f x) t' q :=
  leads_call op f t q

/-- A sequence whose first part is still to be answered has not returned. -/
theorem Leads.not_path {p : Prog Op Ans α} {f : α → Prog Op Ans β} {t : List (Sigma Ans)} {op : Op}
    {k : Ans op → Prog Op Ans α} {b : β} (leads : p.Leads t (.call op k)) :
    ¬(p >>= f).Path t b := by
  generalize here : Prog.call op k = q at leads
  induction leads with
  | refl p =>
    subst here
    intro path
    cases path
  | call x _ ih =>
    intro path
    cases path with
    | call _ rest => exact ih here rest

/-! ### The operations of a program -/

/-- Every operation `p` can come to satisfies `P`. -/
inductive Only (P : Op → Prop) : Prog Op Ans α → Prop where
  | ret (a : α) : Only P (.ret a)
  | call {op : Op} {k : Ans op → Prog Op Ans α} (here : P op) (rest : ∀ x, Only P (k x)) :
      Only P (.call op k)

section
variable {P : Op → Prop}

theorem Only.perform {op : Op} (here : P op) : Only P (perform op : Prog Op Ans (Ans op)) :=
  .call here .ret

theorem Only.bind {p : Prog Op Ans α} {f : α → Prog Op Ans β} (first : Only P p)
    (second : ∀ a, Only P (f a)) : Only P (p >>= f) := by
  induction first with
  | ret a => exact second a
  | call here _ ih => exact .call here ih

theorem Only.mono {Q : Op → Prop} {p : Prog Op Ans α} (only : Only P p)
    (weaker : ∀ op, P op → Q op) : Only Q p := by
  induction only with
  | ret a => exact .ret a
  | call here _ ih => exact .call (weaker _ here) ih

theorem Only.any (p : Prog Op Ans α) : Only (fun _ => True) p := by
  induction p with
  | ret a => exact .ret a
  | call op k ih => exact .call trivial ih

theorem Only.map {p : Prog Op Ans α} (first : Only P p) (f : α → β) : Only P (f <$> p) :=
  first.bind fun a => .ret (f a)

theorem Only.path {p : Prog Op Ans α} (only : Only P p) {t : List (Sigma Ans)} {a : α}
    (path : Path p t a) : ∀ e ∈ t, P e.1 := by
  induction path with
  | ret => simp
  | call x rest ih =>
    cases only with
    | call here only => simpa only [List.mem_cons, forall_eq_or_imp] using ⟨here, ih (only x)⟩

end

/-! ### Evaluation

A world that answers every operation gives a program one result. -/

section
variable {σ : Type} (handle : (op : Op) → σ → Ans op × σ)

def eval (p : Prog Op Ans α) (s : σ) : α × σ :=
  match p with
  | ret a => (a, s)
  | call op k => eval (k (handle op s).1) (handle op s).2

@[simp] theorem eval_ret (a : α) (s : σ) : eval handle (ret a) s = (a, s) := rfl

@[simp] theorem eval_perform (op : Op) (s : σ) : eval handle (perform op) s = handle op s := rfl

@[simp] theorem eval_bind (p : Prog Op Ans α) (f : α → Prog Op Ans β) (s : σ) :
    eval handle (p >>= f) s = eval handle (f (eval handle p s).1) (eval handle p s).2 := by
  induction p generalizing s with
  | ret a => rfl
  | call op k ih => simp only [call_bind, eval, ih]

@[simp] theorem eval_map (p : Prog Op Ans α) (f : α → β) (s : σ) :
    eval handle (f <$> p) s = (f (eval handle p s).1, (eval handle p s).2) :=
  eval_bind handle p (fun a => ret (f a)) s

end

end Prog

end Interaction
