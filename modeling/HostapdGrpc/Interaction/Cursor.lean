import Mathlib.Data.List.Basic
import Mathlib.Data.List.Nodup

/-!
# A cursor in a list that changes

A walk that keeps nothing but the element it saw last goes on from where that element stands
now. Insertions and removals elsewhere keep the order of what stays, so the walk is still
abreast of it.
-/

namespace Interaction

variable {α : Type} [BEq α] {kept : α → Prop} {seen l l' : List α} {c : α}

/-- The cursor `c` stands in `l`. Of the elements that are kept, those up to the cursor were
seen once, and those after it were not. -/
def Abreast (kept : α → Prop) (seen l : List α) (c : α) : Prop :=
  ∃ before after, l = before ++ c :: after ∧
    (∀ a, kept a → a ∈ before ∨ a = c → seen.count a = 1) ∧
      ∀ a, kept a → a ∈ after → seen.count a = 0

namespace Abreast

theorem cursor_mem (abreast : Abreast kept seen l c) : c ∈ l := by
  obtain ⟨before, after, rfl, _, _⟩ := abreast
  simp

theorem first [LawfulBEq α] (rest : List α) (distinct : (c :: rest).Nodup) :
    Abreast kept [c] (c :: rest) c := by
  refine ⟨[], rest, rfl, ?_, ?_⟩
  · rintro a _ (none | rfl)
    · cases none
    · simp
  · intro a _ member
    have other : a ≠ c := fun same => (List.nodup_cons.mp distinct).1 (same ▸ member)
    simpa [List.count_singleton] using other.symm

/-- What is kept was in the list before the insertion. -/
theorem insert (abreast : Abreast kept seen l c) (longer : l.Sublist l') (distinct : l'.Nodup)
    (old : ∀ a, kept a → a ∈ l) : Abreast kept seen l' c := by
  obtain ⟨before, after, rfl, upTo, behind⟩ := abreast
  -- What is inserted falls before the cursor or after it.
  obtain ⟨front, back, rfl, before_sub, rest⟩ := List.append_sublist_iff.mp longer
  obtain ⟨mid, last, rfl, c_mem, after_sub⟩ := List.cons_sublist_iff.mp rest
  obtain ⟨mid₁, mid₂, rfl⟩ := List.append_of_mem c_mem
  have split : front ++ (mid₁ ++ c :: mid₂ ++ last) = (front ++ mid₁) ++ c :: (mid₂ ++ last) := by
    simp only [List.append_assoc, List.cons_append]
  rw [split] at distinct ⊢
  have apart := List.nodup_append.mp distinct
  refine ⟨_, _, rfl, ?_, ?_⟩
  · rintro a is_kept (early | rfl)
    · refine upTo a is_kept ?_
      have member := old a is_kept
      simp only [List.mem_append, List.mem_cons] at member
      obtain in_before | same | in_after := member
      · exact .inl in_before
      · exact .inr same
      -- Not after the cursor in the old list, since it is not after it in the new one.
      · exact absurd rfl (apart.2.2 a early a (List.mem_cons_of_mem c
          (List.mem_append_right _ (after_sub.subset in_after))))
    · exact upTo a is_kept (.inr rfl)
  · intro a is_kept late
    have member := old a is_kept
    simp only [List.mem_append, List.mem_cons] at member
    obtain in_before | rfl | in_after := member
    · exact absurd rfl (apart.2.2 a (List.mem_append_left _ (before_sub.subset in_before)) a
        (List.mem_cons_of_mem c late))
    · exact absurd late (List.nodup_cons.mp apart.2.1).1
    · exact behind a is_kept in_after

theorem remove (abreast : Abreast kept seen l c) (shorter : l'.Sublist l) (distinct : l.Nodup)
    (stays : c ∈ l') : Abreast kept seen l' c := by
  obtain ⟨before, after, rfl, upTo, behind⟩ := abreast
  obtain ⟨front, back, rfl, front_sub, back_sub⟩ := List.sublist_append_iff.mp shorter
  have apart := List.nodup_append.mp distinct
  -- The cursor occurs once, so it stays where the second part starts.
  have in_back : c ∈ back := by
    obtain early | late := List.mem_append.mp stays
    · exact absurd rfl (apart.2.2 c (front_sub.subset early) c List.mem_cons_self)
    · exact late
  obtain without | ⟨rest, rfl, rest_sub⟩ := List.sublist_cons_iff.mp back_sub
  · exact absurd (without.subset in_back) (List.nodup_cons.mp apart.2.1).1
  · refine ⟨front, rest, rfl, ?_, ?_⟩
    · intro a is_kept early
      exact upTo a is_kept (early.imp_left fun member => front_sub.subset member)
    · exact fun a is_kept late => behind a is_kept (rest_sub.subset late)

/-- One more element is seen, the one after the cursor. -/
theorem advance [LawfulBEq α] {before after : List α} {d : α}
    (abreast : Abreast kept seen (before ++ c :: d :: after) c)
    (distinct : (before ++ c :: d :: after).Nodup) :
    Abreast kept (seen ++ [d]) (before ++ c :: d :: after) d := by
  obtain ⟨before', after', split, upTo, behind⟩ := abreast
  have apart := List.nodup_append.mp distinct
  have c_last := List.nodup_cons.mp apart.2.1
  -- There is only one place where the cursor can stand.
  obtain ⟨rfl, _, rfl⟩ := (List.append_cons_inj_of_notMem
    (fun early => apart.2.2 c early c List.mem_cons_self rfl) c_last.1).mp split
  have d_last := List.nodup_cons.mp c_last.2
  refine ⟨before ++ [c], after, by simp, ?_, ?_⟩
  · rintro a is_kept (early | rfl)
    · have other : a ≠ d := by
        rintro rfl
        obtain early | same := List.mem_append.mp early
        · exact apart.2.2 a early a (by simp) rfl
        · exact c_last.1 (by simp [List.mem_singleton.mp same])
      have once := upTo a is_kept (by simpa using early)
      simpa [List.count_append, List.count_singleton, other.symm] using once
    -- It was behind the cursor, so it had not been seen.
    · simp [List.count_append, behind a is_kept List.mem_cons_self]
  · intro a is_kept late
    have other : a ≠ d := fun same => d_last.1 (same ▸ late)
    have unseen := behind a is_kept (List.mem_cons_of_mem d late)
    simpa [List.count_append, List.count_singleton, other.symm] using unseen

theorem once (abreast : Abreast kept seen l c) (old : ∀ a, kept a → a ∈ l) (a : α)
    (is_kept : kept a) : seen.count a ≤ 1 := by
  obtain ⟨before, after, rfl, upTo, behind⟩ := abreast
  have member := old a is_kept
  simp only [List.mem_append, List.mem_cons] at member
  obtain early | same | late := member
  · exact Nat.le_of_eq (upTo a is_kept (.inl early))
  · exact Nat.le_of_eq (upTo a is_kept (.inr same))
  · rw [behind a is_kept late]
    exact Nat.zero_le 1

/-- With the cursor at the end, all that is kept was seen. -/
theorem complete {before : List α} (abreast : Abreast kept seen (before ++ [c]) c)
    (distinct : (before ++ [c]).Nodup) (old : ∀ a, kept a → a ∈ before ++ [c]) (a : α)
    (is_kept : kept a) : seen.count a = 1 := by
  obtain ⟨before', after', split, upTo, _⟩ := abreast
  have early : c ∉ before := fun early =>
    (List.nodup_append.mp distinct).2.2 c early c List.mem_cons_self rfl
  obtain ⟨rfl, _, rfl⟩ := (List.append_cons_inj_of_notMem early List.not_mem_nil).mp split
  exact upTo a is_kept (by simpa using old a is_kept)

end Abreast

end Interaction
