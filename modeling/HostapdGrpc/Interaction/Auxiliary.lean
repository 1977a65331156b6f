import HostapdGrpc.Interaction.RelyGuarantee

/-!
# Auxiliary state

A logic over more state than another one, which it extends by what no program can read. A program
that is verified without the additional state is verified with it.
-/

namespace Interaction

variable {ι Op : Type} {Ans : Op → Type} {σ σ' Choice Call Call' Res Res' α : Type}

/-- To caller `i`, `L'` is `L` as long as it performs operations of `P`, and the state beside
`view` satisfies `G`. -/
structure Logic.Extends (L' : Logic ι Op Ans σ' Choice Call' Res')
    (L : Logic ι Op Ans σ Choice Call Res) (view : σ' → σ) (i : ι) (P : Op → Prop)
    (G : σ' → Prop) : Prop where
  inv : ∀ s, L'.inv s → L.inv (view s)
  rely : ∀ s s', L'.rely i s s' → L.rely i (view s) (view s')
  stable : L'.Stable i G
  bad : ∀ op s, P op → G s → L'.bad i op s → L.bad i op (view s)
  cond : ∀ op ch s, L'.cond.step i op ch s → L.cond.step i op ch (view s)
  exec : ∀ op ch s a s', L'.sys.exec i op ch s = some (a, s') →
    L.sys.exec i op ch (view s) = some (a, view s')
  keeps : ∀ op ch s a s', L'.inv s → G s → L'.sys.exec i op ch s = some (a, s') →
    L.inv (view s') → L'.inv s' ∧ G s'

namespace Logic.Extends

variable {L' : Logic ι Op Ans σ' Choice Call' Res'} {L : Logic ι Op Ans σ Choice Call Res}
  {view : σ' → σ} {i : ι} {P : Op → Prop} {G : σ' → Prop} (extends' : L'.Extends L view i P G)
include extends'

theorem stable_view {R : σ → Prop} (stable : L.Stable i R) : L'.Stable i fun s => R (view s) :=
  fun s s' inv inv' rely holds =>
    stable (view s) (view s') (extends'.inv s inv) (extends'.inv s' inv') (extends'.rely s s' rely)
      holds

private theorem wp {p : Prog Op Ans α} (only : p.Only P) {Q : α → σ → Prop} {s : σ'}
    (inv : L'.inv s) (beside : G s) (verified : L.wp i p Q (view s)) :
    L'.wp i p (fun a s => Q a (view s) ∧ G s) s := by
  induction only generalizing s with
  | ret a => exact ⟨verified, beside⟩
  | call here _ ih =>
    obtain ⟨safe, effect⟩ := verified
    refine ⟨fun bad => safe (extends'.bad _ s here beside bad), fun ch a s' ok done => ?_⟩
    obtain ⟨inv', later⟩ := effect ch a (view s') (extends'.cond _ ch s ok)
      (extends'.exec _ ch s a s' done)
    obtain ⟨kept, beside'⟩ := extends'.keeps _ ch s a s' inv beside done inv'
    refine ⟨kept, fun s'' inv'' rely => ?_⟩
    exact ih a inv'' (extends'.stable s' s'' kept inv'' rely beside')
      (later (view s'') (extends'.inv s'' inv'') (extends'.rely s' s'' rely))

/-- The rule of auxiliary state -/
theorem triple {p : Prog Op Ans α} (only : p.Only P) {R : σ → Prop} {Q : α → σ → Prop}
    (verified : L.Triple i R p Q) :
    L'.Triple i (fun s => R (view s) ∧ G s) p fun a s => Q a (view s) ∧ G s :=
  fun s inv pre => extends'.wp only inv pre.2 (verified (view s) (extends'.inv s inv) pre.1)

end Logic.Extends

end Interaction
