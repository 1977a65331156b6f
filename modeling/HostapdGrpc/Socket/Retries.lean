import HostapdGrpc.Socket.WpaCtrlRequest

/-!
# The retries of a request

A `send` that finds the socket full is made again after a second, until more than five seconds
have gone by since the first failure.
-/

namespace HostapdGrpc.Socket

open Go Interaction

/-- The number of `send`s made -/
def sends (t : List (Sigma IoAns)) : Nat :=
  t.countP fun e =>
    match e with
    | ⟨.send _, _⟩ => true
    | _ => false

/-- What the clock has shown -/
def readings (t : List (Sigma IoAns)) : List Reltime :=
  t.filterMap fun e =>
    match e with
    | ⟨.getReltime, answer⟩ => answer
    | _ => none

/-- The clock can be read, and a sleep takes at least the second it is meant to take, so that
one goes by between two readings. -/
structure Ticking (t : List (Sigma IoAns)) : Prop where
  works : ⟨.getReltime, none⟩ ∉ t
  normal : ∀ r ∈ readings t, r.Normal
  apart : (readings t).IsChain fun a b => a.micros + 1000000 ≤ b.micros

/-- The program has used up its rounds. -/
def AtStuck {α : Type} (p : IoAct α) : Prop := ∃ k, p = .call .stuck k

section
variable {cmd : GoString} {fuel : Nat} {s : Reltime} {t : List (Sigma IoAns)}
  {q : IoAct (Option CmdId)}

/-- Why a `send` fails for good: with another error, or late. -/
def GivesUp (s : Reltime) (t : List (Sigma IoAns)) : Prop :=
  (∃ e, ⟨.errno, e⟩ ∈ t ∧ transient e = false) ∨
    s.sec ≠ 0 ∧ ∃ n ∈ readings t, n.expired s 5 = true

/-- One round: the `send` is the last, or the clock is read and the next round begins. -/
private theorem retrySend_round (leads : (retrySend cmd (fuel + 1) s).Leads t q)
    (works : ⟨.getReltime, none⟩ ∉ t) :
    (sends t ≤ 1 ∧ ¬AtStuck q ∧ (q = .ret none → GivesUp s t)) ∨
      ∃ n t' u, t = u ++ t' ∧ sends t = sends t' + 1 ∧ readings t = n :: readings t' ∧
        ((s.sec = 0 ∧ (retrySend cmd fuel n).Leads t' q) ∨
          (s.sec ≠ 0 ∧ n.expired s 5 = false ∧ (retrySend cmd fuel s).Leads t' q)) := by
  -- On the way to the end of the round the program is neither stuck nor done.
  have midway : ∀ {t : List (Sigma IoAns)} {op : IoOp} {k : IoAns op → IoAct (Option CmdId)},
      sends t ≤ 1 → op ≠ .stuck → sends t ≤ 1 ∧ ¬AtStuck (.call op k) ∧
        (Prog.call op k = .ret none → GivesUp s t) := by
    intro t op k few running
    refine ⟨few, ?_, fun done => by cases done⟩
    rintro ⟨k', same⟩
    cases same
    exact running rfl
  unfold retrySend at leads
  obtain ⟨rfl, rfl⟩ | ⟨answer, t₁, rfl, after⟩ := (Prog.leads_perform_bind _ _ _ _).mp leads
  · exact .inl (midway (Nat.zero_le 1) (by simp))
  cases answer with
  | some id =>
    obtain ⟨rfl, rfl⟩ := (Prog.leads_ret _ _ _).mp after
    exact .inl ⟨le_rfl, by rintro ⟨k, ⟨⟩⟩, fun done => by cases done⟩
  | none =>
    obtain ⟨rfl, rfl⟩ | ⟨e, t₂, rfl, judged⟩ := (Prog.leads_perform_bind _ _ _ _).mp after
    · exact .inl (midway le_rfl (by simp))
    split at judged
    · split at judged
      next zero =>
        obtain ⟨rfl, rfl⟩ | ⟨now, t₃, rfl, sleeps⟩ := (Prog.leads_perform_bind _ _ _ _).mp judged
        · exact .inl (midway le_rfl (by simp))
        obtain ⟨rfl, rfl⟩ | ⟨_, t₄, rfl, again⟩ := (Prog.leads_perform_bind _ _ _ _).mp sleeps
        · exact .inl (midway le_rfl (by simp))
        cases now with
        | none => exact absurd (by simp) works
        | some n =>
          exact .inr ⟨n, t₄, [_, _, _, _], rfl, by simp [sends], rfl, .inl ⟨zero, again⟩⟩
      next nonzero =>
        unfold readReltime at judged
        obtain ⟨rfl, rfl⟩ | ⟨now, t₃, rfl, decides⟩ := (Prog.leads_call _ _ _ _).mp judged
        · exact .inl (midway le_rfl (by simp))
        cases now with
        | none => exact absurd (by simp) works
        | some n =>
          change (if n.expired s 5 = true then Prog.ret none else
            io .sleep >>= fun _ => retrySend cmd fuel s).Leads t₃ q at decides
          split at decides
          next late =>
            obtain ⟨rfl, rfl⟩ := (Prog.leads_ret _ _ _).mp decides
            exact .inl ⟨le_rfl, by rintro ⟨k, ⟨⟩⟩, fun _ =>
              .inr ⟨nonzero, n, List.mem_cons_self, late⟩⟩
          next early =>
            obtain ⟨rfl, rfl⟩ | ⟨_, t₄, rfl, again⟩ := (Prog.leads_perform_bind _ _ _ _).mp decides
            · exact .inl (midway le_rfl (by simp))
            exact .inr ⟨n, t₄, [_, _, _, _], rfl, by simp [sends], rfl,
              .inr ⟨nonzero, Bool.eq_false_iff.mpr early, again⟩⟩
    next final =>
      obtain ⟨rfl, rfl⟩ := (Prog.leads_ret _ _ _).mp judged
      exact .inl ⟨le_rfl, by rintro ⟨k, ⟨⟩⟩, fun _ =>
        .inl ⟨e, by simp, Bool.eq_false_iff.mpr final⟩⟩

/-- What is known of the clock goes on to hold in the next round. -/
private theorem Ticking.rest {u t' : List (Sigma IoAns)} {n : Reltime} (ticking : Ticking t)
    (split : t = u ++ t') (shown : readings t = n :: readings t') :
    Ticking t' ∧ n.Normal ∧
      (n :: readings t').IsChain fun a b => a.micros + 1000000 ≤ b.micros where
  left :=
    { works := fun member => ticking.works (split ▸ List.mem_append_right u member)
      normal := fun r member => ticking.normal r (shown ▸ List.mem_cons_of_mem n member)
      apart := (shown ▸ ticking.apart : (n :: readings t').IsChain _).of_cons }
  right := ⟨ticking.normal n (shown ▸ List.mem_cons_self), shown ▸ ticking.apart⟩

/-- Once the start is set: after a reading at `last`, so many more `send`s are made in the rest
of the five seconds. -/
private theorem started_bound (nonzero : s.sec ≠ 0) (normal : s.Normal)
    (leads : (retrySend cmd fuel s).Leads t q) (ticking : Ticking t) {last : Reltime}
    (apart : (last :: readings t).IsChain fun a b => a.micros + 1000000 ≤ b.micros)
    (early : last.micros - s.micros ≤ 5000000) :
    (sends t = 0 ∨ (sends t - 1) * 1000000 + (last.micros - s.micros) ≤ 5000000) ∧
      (AtStuck q → fuel * 1000000 + (last.micros - s.micros) ≤ 5000000) := by
  induction fuel generalizing t last with
  | zero =>
    obtain ⟨rfl, rfl⟩ | ⟨x, _⟩ := (Prog.leads_call _ _ _ _).mp leads
    · exact ⟨.inl rfl, fun _ => by omega⟩
    · exact x.elim
  | succ fuel ih =>
    obtain ⟨few, running, _⟩ | ⟨n, t', u, split, count, shown, next⟩ :=
      retrySend_round leads ticking.works
    · exact ⟨by omega, fun stuck => absurd stuck running⟩
    · obtain ⟨zero, _⟩ | ⟨_, inTime, again⟩ := next
      · exact absurd zero nonzero
      obtain ⟨ticking', normal', apart'⟩ := ticking.rest split shown
      rw [shown] at apart
      have later := (List.isChain_cons_cons.mp apart).1
      have soon : n.micros - s.micros ≤ 5000000 := by
        have limit := (Reltime.expired_iff normal' normal 5).not
        rw [inTime] at limit
        have := limit.mp (by decide)
        omega
      obtain ⟨some_more, stuck⟩ := ih again ticking' apart' soon
      refine ⟨by omega, fun at_stuck => ?_⟩
      have := stuck at_stuck
      push_cast
      omega

/-- After the first failure, which the clock showed to be at `n`. A clock that is in its first
second then is read again. -/
private theorem first_bound {n : Reltime} (normal : n.Normal)
    (leads : (retrySend cmd fuel n).Leads t q) (ticking : Ticking t)
    (apart : (n :: readings t).IsChain fun a b => a.micros + 1000000 ≤ b.micros) :
    sends t ≤ 7 ∧ (AtStuck q → fuel ≤ 6) := by
  by_cases zero : n.sec = 0
  · cases fuel with
    | zero =>
      obtain ⟨rfl, rfl⟩ | ⟨x, _⟩ := (Prog.leads_call _ _ _ _).mp leads
      · exact ⟨Nat.zero_le 7, fun _ => Nat.zero_le 6⟩
      · exact x.elim
    | succ fuel =>
      obtain ⟨few, running, _⟩ | ⟨m, t', u, split, count, shown, next⟩ :=
        retrySend_round leads ticking.works
      · exact ⟨by omega, fun stuck => absurd stuck running⟩
      · obtain ⟨_, again⟩ | ⟨nonzero, _⟩ := next
        · obtain ⟨ticking', normal', apart'⟩ := ticking.rest split shown
          rw [shown] at apart
          have later := (List.isChain_cons_cons.mp apart).1
          have nonzero : m.sec ≠ 0 := by
            have := normal.usec
            have := normal'.usec_lt
            simp only [Reltime.micros] at later
            omega
          obtain ⟨few, stuck⟩ := started_bound nonzero normal' again ticking' apart' (by omega)
          exact ⟨by omega, fun at_stuck => by have := stuck at_stuck; omega⟩
        · exact absurd zero nonzero
  · obtain ⟨few, stuck⟩ := started_bound zero normal leads ticking apart (by omega)
    exact ⟨by omega, fun at_stuck => by have := stuck at_stuck; omega⟩

/-- A `send` that was given up for being late has been tried for five seconds. -/
private theorem late_after (late : q = .ret none) (leads : (retrySend cmd fuel s).Leads t q)
    (ticking : Ticking t) (full : ∀ e, ⟨.errno, e⟩ ∈ t → transient e = true) :
    (s.sec ≠ 0 → ∃ n ∈ readings t, n.expired s 5 = true) ∧
      (s.sec = 0 → ∃ r ∈ readings t, ∃ n ∈ readings t, n.expired r 5 = true) := by
  induction fuel generalizing s t with
  | zero =>
    obtain ⟨rfl, rfl⟩ | ⟨x, _⟩ := (Prog.leads_call _ _ _ _).mp leads
    · cases late
    · exact x.elim
  | succ fuel ih =>
    obtain ⟨_, _, ends⟩ | ⟨n, t', u, split, _, shown, next⟩ :=
      retrySend_round leads ticking.works
    · obtain ⟨e, member, final⟩ | ⟨nonzero, found⟩ := ends late
      · rw [full e member] at final
        cases final
      · exact ⟨fun _ => found, fun zero => absurd zero nonzero⟩
    · obtain ⟨ticking', _, _⟩ := ticking.rest split shown
      have full' : ∀ e, ⟨.errno, e⟩ ∈ t' → transient e = true := fun e member =>
        full e (split ▸ List.mem_append_right u member)
      have within : ∀ r ∈ readings t', r ∈ readings t := fun r member =>
        shown ▸ List.mem_cons_of_mem n member
      obtain ⟨zero, again⟩ | ⟨nonzero, _, again⟩ := next
      · obtain ⟨started, unstarted⟩ := ih again ticking' full'
        refine ⟨fun nonzero => absurd zero nonzero, fun _ => ?_⟩
        by_cases first : n.sec = 0
        · obtain ⟨r, r_mem, m, m_mem, expired⟩ := unstarted first
          exact ⟨r, within r r_mem, m, within m m_mem, expired⟩
        · obtain ⟨m, m_mem, expired⟩ := started first
          exact ⟨n, shown ▸ List.mem_cons_self, m, within m m_mem, expired⟩
      · obtain ⟨m, m_mem, expired⟩ := (ih again ticking' full').1 nonzero
        exact ⟨fun _ => ⟨m, within m m_mem, expired⟩, fun zero => absurd zero nonzero⟩

/-- Whatever the `send`s of a request are answered, there are at most eight of them; so eight
rounds are enough for the loop. It is not left with a full socket before five seconds are over. -/
theorem send_retried (ticking : Ticking t) (leads : (retrySend cmd fuel ⟨0, 0⟩).Leads t q) :
    sends t ≤ 8 ∧ (8 ≤ fuel → ¬AtStuck q) ∧
      (q = .ret none → (∀ e, ⟨.errno, e⟩ ∈ t → transient e = true) →
        ∃ r ∈ readings t, ∃ n ∈ readings t, 5000000 < n.micros - r.micros) := by
  have bound : sends t ≤ 8 ∧ (AtStuck q → fuel ≤ 7) := by
    cases fuel with
    | zero =>
      obtain ⟨rfl, rfl⟩ | ⟨x, _⟩ := (Prog.leads_call _ _ _ _).mp leads
      · exact ⟨Nat.zero_le 8, fun _ => Nat.zero_le 7⟩
      · exact x.elim
    | succ fuel =>
      obtain ⟨few, running, _⟩ | ⟨n, t', u, split, count, shown, next⟩ :=
        retrySend_round leads ticking.works
      · exact ⟨by omega, fun stuck => absurd stuck running⟩
      · obtain ⟨_, again⟩ | ⟨nonzero, _⟩ := next
        · obtain ⟨ticking', normal, apart⟩ := ticking.rest split shown
          obtain ⟨few, stuck⟩ := first_bound normal again ticking' apart
          exact ⟨by omega, fun at_stuck => by have := stuck at_stuck; omega⟩
        · exact absurd rfl nonzero
  refine ⟨bound.1, fun enough stuck => ?_, fun late full => ?_⟩
  · have := bound.2 stuck
    omega
  · obtain ⟨r, r_mem, n, n_mem, expired⟩ := (late_after late leads ticking full).2 rfl
    refine ⟨r, r_mem, n, n_mem, ?_⟩
    have := (Reltime.expired_iff (ticking.normal n n_mem) (ticking.normal r r_mem) 5).mp expired
    omega

end

/-- A `send` that finds the socket full `k` seconds and a half after the start of the clock -/
def fullAt (k : Int) : List (Sigma IoAns) :=
  [⟨.send (lit "PING"), none⟩, ⟨.errno, Errno.eagain⟩, ⟨.getReltime, some ⟨k, 500000⟩⟩]

/-- A socket that stays full -/
def fullCalls : List (Sigma IoAns) :=
  fullAt 0 ++ ⟨.sleep, ()⟩ :: (fullAt 1 ++ ⟨.sleep, ()⟩ :: (fullAt 2 ++ ⟨.sleep, ()⟩ ::
    (fullAt 3 ++ ⟨.sleep, ()⟩ :: (fullAt 4 ++ ⟨.sleep, ()⟩ :: (fullAt 5 ++ ⟨.sleep, ()⟩ ::
      (fullAt 6 ++ ⟨.sleep, ()⟩ :: fullAt 7))))))

theorem send_retried_full :
    sends fullCalls = 8 ∧
      ∃ r ∈ readings fullCalls, ∃ n ∈ readings fullCalls, 5000000 < n.micros - r.micros := by
  have leads : (retrySend (lit "PING") 8 ⟨0, 0⟩).Leads fullCalls (.ret none) := by
    repeat refine .call _ ?_
    exact .refl _
  have ticking : Ticking fullCalls :=
    { works := by simp [fullCalls, fullAt]
      normal := by
        intro r member
        simp only [fullCalls, fullAt, readings, List.cons_append, List.nil_append,
          List.filterMap_cons, List.filterMap_nil, List.mem_cons, List.not_mem_nil, or_false]
          at member
        rcases member with rfl | rfl | rfl | rfl | rfl | rfl | rfl | rfl <;>
          exact ⟨by decide, by decide, by decide⟩
      apart := by
        show ([⟨0, 500000⟩, ⟨1, 500000⟩, ⟨2, 500000⟩, ⟨3, 500000⟩, ⟨4, 500000⟩, ⟨5, 500000⟩,
          ⟨6, 500000⟩, ⟨7, 500000⟩] : List Reltime).IsChain _
        decide }
  refine ⟨rfl, (send_retried ticking leads).2.2 rfl fun e member => ?_⟩
  have errnos : fullCalls.all (fun e =>
      match e with
      | ⟨.errno, e⟩ => transient e
      | _ => true) = true := rfl
  exact List.all_eq_true.mp errnos _ member

end HostapdGrpc.Socket
