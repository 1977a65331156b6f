import HostapdGrpc.Interaction.Trace
import HostapdGrpc.Server.Waiting

/-!
# Scrapes one after the other

A scrape holds `g.mu` from its listing to its last label. So however scrapes and requests
interleave, the gauge is what whole scrapes, one after the other, have made of it, except while
one is under way.
-/

namespace HostapdGrpc.Server

open Go Interaction

/-- Scrapes of the service, one after the other -/
inductive Consecutive (fuel : Nat) : List Scrape → Gauge → Prop where
  | none : Consecutive fuel [] .new
  | scrape {ss : List Scrape} {g g' : Gauge} {s : Scrape} (earlier : Consecutive fuel ss g)
      (step : ScrapeStep (Service.server fuel) g s g') : Consecutive fuel (ss ++ [s]) g'

theorem Consecutive.scrapes {fuel : Nat} {ss : List Scrape} {g : Gauge}
    (consecutive : Consecutive fuel ss g) : Scrapes ss g := by
  induction consecutive with
  | none => exact .none
  | scrape _ step ih => exact .scrape ih step

/-! ### What is called under `g.mu` -/

/-- The call of the service that a step is the end of, with its answer -/
def MainOp.ended : Sigma MainAns → Option (Sigma Ans)
  | ⟨.service op, a⟩ => some ⟨op, a⟩
  | ⟨.leave (.get name) (.get r), _⟩ => some ⟨.get name, r⟩
  | ⟨.leave (.sendRawCmd sock cmd) (.sendRawCmd r), _⟩ =>
    some ⟨.sendRawCmd sock cmd, r.map Socket.Reply.text⟩
  | ⟨.leave (.close sock) (.close r), _⟩ => some ⟨.close sock, r⟩
  | _ => none

/-- Who has locked `g.mu`, and what was called while it was locked, each time by who had it -/
structure Locked (ι : Type) where
  holder : Option ι
  calls : List (Sigma Ans)

section
variable {ι : Type} [DecidableEq ι]

def Locked.after (l : Locked ι) (e : ι × Sigma MainAns) : Locked ι :=
  match e with
  | (i, ⟨.service .lockGauge, _⟩) => ⟨some i, l.calls ++ [⟨.lockGauge, ()⟩]⟩
  | (_, ⟨.service .unlockGauge, _⟩) => ⟨none, l.calls ++ [⟨.unlockGauge, ()⟩]⟩
  | (i, x) =>
    if l.holder = some i then { l with calls := l.calls ++ (MainOp.ended x).toList } else l

/-- Of what the goroutines have performed, what is under `g.mu` -/
def locked (t : List (ι × Sigma MainAns)) : Locked ι := t.foldl Locked.after ⟨none, []⟩

theorem locked_snoc (t : List (ι × Sigma MainAns)) (e : ι × Sigma MainAns) :
    locked (t ++ [e]) = (locked t).after e := by
  simp [locked]

end

/-! ### Who reaches the gauge -/

/-- The fields of the gauge, and the end of a scrape -/
def MainOp.ofGauge : MainOp → Bool
  | .service .unlockGauge => true
  | .service op => op.ofGauge
  | _ => false

/-- Neither that nor the beginning of a scrape -/
structure MainOp.Apart (op : MainOp) : Prop where
  free : op.ofGauge = false
  unlocked : op ≠ .service .lockGauge

section
variable {ι : Type} [DecidableEq ι] {s s' : Main ι} {i : ι}

omit [DecidableEq ι] in
/-- Without `g.mu` locked or unlocked, the answer says what becomes of the gauge. -/
private theorem serviceExec_gauge {op : Op} (off : op.OffGauge) {ch : MainChoice} {a : Ans op}
    (done : s.serviceExec i op ch = some (a, s')) :
    s'.gmu = s.gmu ∧ s.gauge.Permits ⟨op, a⟩ ∧ s'.gauge = s.gauge.after ⟨op, a⟩ := by
  cases op with
  | lockGauge => cases off.none
  | unlockGauge => cases off.none
  | knownSockets =>
    simp only [Main.serviceExec] at done
    split at done
    · split at done
      next permits =>
        cases done
        exact ⟨rfl, permits, rfl⟩
      · cases done
    · cases done
  | _ =>
    simp only [Main.serviceExec] at done
    (try split at done) <;> (try split at done) <;> cases done <;> exact ⟨rfl, trivial, rfl⟩

/-- What is outside the gauge leaves it alone. -/
private theorem exec_apart {op : MainOp} (apart : op.Apart) {ch : MainChoice} {a : MainAns op}
    (done : s.exec i op ch = some (a, s')) : s'.gauge = s.gauge ∧ s'.gmu = s.gmu := by
  cases op with
  | service op =>
    cases op with
    | lockGauge => exact absurd rfl apart.unlocked
    | unlockGauge => cases apart.free
    | knownSockets => cases apart.free
    | addSocket sock => cases apart.free
    | withLabelValues sock => cases apart.free
    | setGauge sock value => cases apart.free
    | _ =>
      simp only [Main.exec, Main.serviceExec] at done
      (try split at done) <;> (try split at done) <;> cases done <;> exact ⟨rfl, rfl⟩
  | socket op =>
    obtain ⟨_, mem, _, _, rfl⟩ := Main.exec_socket done
    exact ⟨rfl, rfl⟩
  | enter call =>
    obtain ⟨mem, _, same⟩ := Option.map_eq_some_iff.mp done
    cases same
    exact ⟨rfl, rfl⟩
  | leave call res =>
    cases done
    exact ⟨rfl, rfl⟩

private theorem exec_lock {ch : MainChoice} {a : Unit}
    (done : s.exec i (.service .lockGauge) ch = some (a, s')) :
    s.gmu = none ∧ s' = { s with gmu := some i } := by
  simp only [Main.exec, Main.serviceExec] at done
  split at done
  next free =>
    cases done
    exact ⟨free, rfl⟩
  · cases done

/-- Only who has `g.mu` adds to the calls. -/
private theorem after_of_unlocked {l : Locked ι} {e : Sigma MainAns} (other : l.holder ≠ some i)
    (lock : e.1 ≠ .service .lockGauge) (unlock : e.1 ≠ .service .unlockGauge) :
    l.after (i, e) = l := by
  obtain ⟨op, a⟩ := e
  cases op with
  | service op =>
    cases op with
    | lockGauge => exact absurd rfl lock
    | unlockGauge => exact absurd rfl unlock
    | _ => exact if_neg other
  | _ => exact if_neg other

private theorem after_of_locked {l : Locked ι} {e : Sigma MainAns} (mine : l.holder = some i)
    (lock : e.1 ≠ .service .lockGauge) (unlock : e.1 ≠ .service .unlockGauge) :
    l.after (i, e) = ⟨some i, l.calls ++ (MainOp.ended e).toList⟩ := by
  have added : (if l.holder = some i then { l with calls := l.calls ++ (MainOp.ended e).toList }
      else l) = ⟨some i, l.calls ++ (MainOp.ended e).toList⟩ := by
    rw [if_pos mine, mine]
  obtain ⟨op, a⟩ := e
  cases op with
  | service op =>
    cases op with
    | lockGauge => exact absurd rfl lock
    | unlockGauge => exact absurd rfl unlock
    | _ => exact added
  | _ => exact added

end

theorem MainOp.Apart.unlock {op : MainOp} (apart : op.Apart) : op ≠ .service .unlockGauge := by
  rintro rfl
  cases apart.free

/-! ### The proof about the goroutines -/

/-- The memory with what the goroutines have performed -/
abbrev Performed (ι : Type) := Main ι × List (ι × Sigma MainAns)

/-- Who has locked `g.mu` is who holds it. While it is free, what was called under it is the calls
of whole scrapes, which made the gauge what it is. -/
structure Serialized {ι : Type} [DecidableEq ι] (fuel : Nat) (s : Performed ι) : Prop where
  holder : (locked s.2).holder = s.1.gmu
  serial : s.1.gmu = none → ∃ ss, Consecutive fuel ss s.1.gauge ∧
    (locked s.2).calls = ss.flatMap Scrape.trace

section
variable {ι : Type} [DecidableEq ι] {fuel : Nat} {i : ι}

/-- A step outside the gauge -/
private theorem Serialized.apart {s : Performed ι} {s' : Main ι} (inv : Serialized fuel s)
    {op : MainOp} (apart : op.Apart) (a : MainAns op) (gauge : s'.gauge = s.1.gauge)
    (gmu : s'.gmu = s.1.gmu) : Serialized fuel (s', s.2 ++ [(i, ⟨op, a⟩)]) := by
  by_cases mine : (locked s.2).holder = some i
  -- Under `g.mu` the step may be noted, but nothing is known of the calls until the unlock.
  · have after := after_of_locked (e := ⟨op, a⟩) mine apart.unlocked apart.unlock
    refine ⟨?_, fun free => ?_⟩
    · rw [locked_snoc, after, gmu, ← inv.holder, mine]
    · rw [inv.holder, ← gmu, free] at mine
      cases mine
  · have after := after_of_unlocked (e := ⟨op, a⟩) mine apart.unlocked apart.unlock
    refine ⟨?_, fun free => ?_⟩
    · rw [locked_snoc, after, gmu, inv.holder]
    · rw [locked_snoc, after, gauge]
      exact inv.serial (gmu.symm.trans free)

end

section
variable (ι : Type) [DecidableEq ι] (m : Socket.Manager) (fuel : Nat)

variable {ι} in
private theorem main_traced {i : ι} {op : MainOp} {ch : MainChoice} {a : MainAns op}
    {s s' : Performed ι} (done : (main ι m fuel).traced.exec i op ch s = some (a, s')) :
    ∃ t, s.1.exec i op ch = some (a, t) ∧ s' = (t, s.2 ++ [(i, ⟨op, a⟩)]) :=
  System.traced_exec done

/-- The gauge is reached under `g.mu` only, and whoever has locked it may rely on that. -/
def gaugeLogic : Logic ι MainOp MainAns (Performed ι) MainChoice Task TaskRes where
  sys := (main ι m fuel).traced
  cond := unrestricted.traced
  inv := Serialized fuel
  rely i s s' := s.1.gmu = some i →
    s'.1.gmu = some i ∧ s'.1.gauge = s.1.gauge ∧ locked s'.2 = locked s.2
  bad i op s := op.ofGauge = true ∧ s.1.gmu ≠ some i
  rely_refl _ _ mine := ⟨mine, rfl, rfl⟩
  rely_trans _ _ _ _ first second mine := by
    obtain ⟨still, same, calls⟩ := first mine
    obtain ⟨still', same', calls'⟩ := second still
    exact ⟨still', same'.trans same, calls'.trans calls⟩
  guarantee i op ch s a s' inv safe done j other mine := by
    obtain ⟨t, performs, rfl⟩ := main_traced m fuel done
    -- `g.mu` is held by another, so the operation is none of the gauge's.
    have not_mine : s.1.gmu ≠ some i := fun same => other (Option.some.inj (mine.symm.trans same))
    have apart : op.Apart := by
      refine ⟨Bool.eq_false_iff.mpr fun reaches => safe ⟨reaches, not_mine⟩, ?_⟩
      rintro rfl
      cases mine.symm.trans (exec_lock performs).1
    obtain ⟨gauge, gmu⟩ := exec_apart apart performs
    refine ⟨gmu.trans mine, gauge, ?_⟩
    rw [locked_snoc]
    exact after_of_unlocked (inv.holder.trans_ne not_mine) apart.unlocked apart.unlock

variable {ι m fuel} {i : ι}

/-- `g.mu` is held by `i`, after the scrapes `ss` and the calls `t` of another one. -/
structure Scraping (fuel : Nat) (i : ι) (ss : List Scrape) (g : Gauge) (t : List (Sigma Ans))
    (s : Performed ι) : Prop where
  mine : s.1.gmu = some i
  earlier : Consecutive fuel ss g
  run : g.Run t s.1.gauge
  calls : (locked s.2).calls = ss.flatMap Scrape.trace ++ t

private theorem Scraping.stable (ss : List Scrape) (g : Gauge) (t : List (Sigma Ans)) :
    (gaugeLogic ι m fuel).Stable i (Scraping fuel i ss g t) := by
  intro s s' _ _ rely scraping
  obtain ⟨still, same, calls⟩ := rely scraping.mine
  exact ⟨still, scraping.earlier, same ▸ scraping.run, calls ▸ scraping.calls⟩

private theorem apart_triple {op : MainOp} (apart : op.Apart) {P : Performed ι → Prop}
    {Q : MainAns op → Performed ι → Prop}
    (effect : ∀ s s' a, Serialized fuel s → P s → s'.gauge = s.1.gauge → s'.gmu = s.1.gmu →
      Q a (s', s.2 ++ [(i, ⟨op, a⟩)]))
    (stable : ∀ a, (gaugeLogic ι m fuel).Stable i (Q a)) :
    (gaugeLogic ι m fuel).Triple i P (step op) Q := by
  refine .perform (fun s _ _ bad => ?_) (fun s ch a s' inv pre _ done => ?_) stable
  · cases apart.free.symm.trans bad.1
  · obtain ⟨t, performs, rfl⟩ := main_traced m fuel done
    obtain ⟨gauge, gmu⟩ := exec_apart apart performs
    exact ⟨inv.apart apart a gauge gmu, effect s t a inv pre gauge gmu⟩

/-! ### Calls outside `g.mu` -/

private theorem free_triple {op : MainOp} (apart : op.Apart) :
    (gaugeLogic ι m fuel).Triple i (fun _ => True) (step op) fun _ _ => True :=
  apart_triple apart (fun _ _ _ _ _ _ _ => trivial) fun _ => .const True

private theorem free_calling {α : Type} (call : Socket.Call) (p : Socket.Act α)
    (res : α → Socket.Res) :
    (gaugeLogic ι m fuel).Triple i (fun _ => True) (calling call p res) fun _ _ => True := by
  have taken (op : Socket.Op) : (gaugeLogic ι m fuel).Triple i (fun _ => True)
      (step (.socket op)) fun _ _ => True := free_triple ⟨rfl, by simp⟩
  have inside : (gaugeLogic ι m fuel).Triple i (fun _ => True) (steps p) fun _ _ => True :=
    .interpret_kept taken p
  refine (free_triple ⟨rfl, by simp⟩).bind fun _ => inside.bind fun a => ?_
  exact (free_triple ⟨rfl, by simp⟩).bind fun _ => .ret a fun _ _ pre => pre

private theorem serving_triple (op : Op) (serving : op.Serving) :
    (gaugeLogic ι m fuel).Triple i (fun _ => True) (overManager m op) fun _ _ => True := by
  have served := serving.serving
  cases op with
  | get name => exact free_calling _ _ _
  | sendRawCmd sock cmd => exact .map _ (free_calling _ _ _)
  | close sock => exact free_calling _ _ _
  | available => exact free_triple ⟨rfl, by simp⟩
  | panic => exact free_triple ⟨rfl, by simp⟩
  | stuck => exact free_triple ⟨rfl, by simp⟩
  | _ => cases served

/-! ### A scrape -/

variable {ss : List Scrape} {g : Gauge} {t : List (Sigma Ans)}

/-- A step outside the gauge adds the call that it is the end of. -/
private theorem Scraping.apart {s : Performed ι} {s' : Main ι} (inv : Serialized fuel s)
    (scraping : Scraping fuel i ss g t s) {op : MainOp} (apart : op.Apart) (a : MainAns op)
    (gauge : s'.gauge = s.1.gauge) (gmu : s'.gmu = s.1.gmu)
    (free : ∀ e ∈ MainOp.ended ⟨op, a⟩, e.1.ofGauge = false) :
    Scraping fuel i ss g (t ++ (MainOp.ended ⟨op, a⟩).toList) (s', s.2 ++ [(i, ⟨op, a⟩)]) where
  mine := gmu.trans scraping.mine
  earlier := scraping.earlier
  run := by
    refine Gauge.run_append.mpr ⟨s.1.gauge, scraping.run, ?_⟩
    rw [gauge]
    cases call : MainOp.ended ⟨op, a⟩ with
    | none => exact .nil _
    | some e =>
      have here := free e call
      have permits : s.1.gauge.Permits e := by
        obtain ⟨op, x⟩ := e
        cases op <;> trivial
      refine .cons permits ?_
      rw [Gauge.after_free _ here]
      exact .nil _
  calls := by
    have mine := inv.holder.trans scraping.mine
    rw [locked_snoc, after_of_locked mine apart.unlocked apart.unlock, scraping.calls,
      List.append_assoc]

/-- A step that ends no call leaves the scrape where it is. -/
private theorem silent_triple {op : MainOp} (apart : op.Apart)
    (silent : ∀ a, MainOp.ended ⟨op, a⟩ = none) :
    (gaugeLogic ι m fuel).Triple i (Scraping fuel i ss g t) (step op) fun _ =>
      Scraping fuel i ss g t := by
  refine apart_triple apart (fun s s' a inv pre gauge gmu => ?_) fun _ => Scraping.stable ss g t
  have kept := pre.apart inv apart a gauge gmu fun e member => by
    rw [silent a] at member
    cases member
  rwa [silent a, Option.toList_none, List.append_nil] at kept

/-- A call of the package `socket`, which ends with its answer -/
private theorem scraping_calling {α : Type} {call : Socket.Call} {p : Socket.Act α}
    {res : α → Socket.Res} {op : Op} {answer : α → Ans op} (free : op.ofGauge = false)
    (ends : ∀ a, MainOp.ended ⟨.leave call (res a), ()⟩ = some ⟨op, answer a⟩) :
    (gaugeLogic ι m fuel).Triple i (Scraping fuel i ss g t) (calling call p res) fun a =>
      Scraping fuel i ss g (t ++ [⟨op, answer a⟩]) := by
  have taken (op : Socket.Op) : (gaugeLogic ι m fuel).Triple i (Scraping fuel i ss g t)
      (step (.socket op)) fun _ => Scraping fuel i ss g t :=
    silent_triple ⟨rfl, by simp⟩ fun _ => rfl
  have inside : (gaugeLogic ι m fuel).Triple i (Scraping fuel i ss g t) (steps p) fun _ =>
      Scraping fuel i ss g t := .interpret_kept taken p
  refine (silent_triple ⟨rfl, by simp⟩ fun _ => rfl).bind fun _ => inside.bind fun a => ?_
  refine Logic.Triple.bind (R := fun _ => Scraping fuel i ss g (t ++ [⟨op, answer a⟩])) ?_
    fun _ => .ret a fun _ _ pre => pre
  -- The end of the call is what is noted of it.
  have apart : (MainOp.leave call (res a)).Apart := ⟨rfl, by simp⟩
  refine apart_triple apart (fun s s' _ inv pre gauge gmu => ?_) fun _ => Scraping.stable ss g _
  have kept := pre.apart inv apart () gauge gmu fun e member => by
    rw [ends a] at member
    cases member
    exact free
  rwa [ends a, Option.toList_some] at kept

/-- With `g.mu` held, every call does to the gauge what its answer says. -/
private theorem scraping_triple (op : Op) (t : List (Sigma Ans)) (off : op.OffGauge) :
    (gaugeLogic ι m fuel).Triple i (Scraping fuel i ss g t) (overManager m op) fun x =>
      Scraping fuel i ss g (t ++ [⟨op, x⟩]) := by
  have lock : op ≠ .lockGauge := by
    rintro rfl
    cases off.none
  have unlock : op ≠ .unlockGauge := by
    rintro rfl
    cases off.none
  have direct : (gaugeLogic ι m fuel).Triple i (Scraping fuel i ss g t) (step (.service op))
      fun x => Scraping fuel i ss g (t ++ [⟨op, x⟩]) := by
    refine .perform (fun s _ pre bad => bad.2 pre.mine) (fun s ch a s' inv pre _ done => ?_)
      fun _ => Scraping.stable ss g _
    obtain ⟨s', performs, rfl⟩ := main_traced m fuel done
    -- The step changes the gauge and the trace together.
    obtain ⟨gmu, permits, after⟩ := serviceExec_gauge off performs
    have added := after_of_locked (e := ⟨.service op, a⟩) (inv.holder.trans pre.mine)
      (fun same => lock (MainOp.service.inj same)) fun same => unlock (MainOp.service.inj same)
    refine ⟨⟨?_, fun free => ?_⟩, gmu.trans pre.mine, pre.earlier, ?_, ?_⟩
    · rw [locked_snoc, added]
      exact (gmu.trans pre.mine).symm
    · cases (gmu.trans pre.mine).symm.trans free
    · refine Gauge.run_append.mpr ⟨s.1.gauge, pre.run, .cons permits ?_⟩
      rw [after]
      exact .nil _
    · rw [locked_snoc, added, pre.calls, List.append_assoc]
      rfl
  cases op with
  | get name => exact scraping_calling rfl fun _ => rfl
  | sendRawCmd sock cmd => exact .map _ (scraping_calling rfl fun _ => rfl)
  | close sock => exact scraping_calling rfl fun _ => rfl
  | _ => exact direct

private theorem lock_triple : (gaugeLogic ι m fuel).Triple i (fun _ => True)
    (step (.service .lockGauge)) fun _ s =>
      ∃ ss g, Scraping fuel i ss g [⟨.lockGauge, ()⟩] s := by
  refine .perform (fun _ _ _ bad => by cases bad.1) (fun s ch a s' inv _ _ done => ?_)
    fun _ => .exists fun ss => .exists fun g => Scraping.stable ss g _
  obtain ⟨_, performs, rfl⟩ := main_traced m fuel done
  obtain ⟨free, rfl⟩ := exec_lock performs
  -- The new scrape finds the gauge as whole scrapes have left it.
  obtain ⟨ss, earlier, calls⟩ := inv.serial free
  have added : locked (s.2 ++ [(i, ⟨.service .lockGauge, a⟩)]) =
      ⟨some i, (locked s.2).calls ++ [⟨.lockGauge, ()⟩]⟩ := locked_snoc _ _
  refine ⟨⟨?_, fun free' => by cases free'⟩, ss, s.1.gauge, rfl, earlier,
    .cons trivial (.nil _), ?_⟩
  · rw [added]
  · rw [added, calls]

/-- The unlock makes the scrape one of the earlier ones. -/
private theorem unlock_triple {err : Option ScrapeError} {u : List (Sigma Ans)}
    (path : (ConnectedClientsGauge.scrapeLocked (Service.server fuel)).Path u err) :
    (gaugeLogic ι m fuel).Triple i (Scraping fuel i ss g ([⟨.lockGauge, ()⟩] ++ u))
      (step (.service .unlockGauge)) fun _ _ => True := by
  refine .perform (fun _ _ pre bad => bad.2 pre.mine) (fun s ch a s' _ pre _ done => ?_)
    fun _ => .const True
  obtain ⟨t, performs, rfl⟩ := main_traced m fuel done
  have unlocks : s.1.serviceExec i .unlockGauge ch = some (a, t) := performs
  cases unlocks
  -- The calls from the lock to the unlock are a path of `Scrape`.
  have whole : (ConnectedClientsGauge.scrape (Service.server fuel)).Path
      ([⟨.lockGauge, ()⟩] ++ u ++ [⟨.unlockGauge, ()⟩]) err := by
    refine (Prog.path_perform_bind _ _ _ _).mpr ⟨(), u ++ [⟨.unlockGauge, ()⟩], rfl, ?_⟩
    refine (Prog.path_bind _ _ _ _).mpr ⟨u, _, err, rfl, path, ?_⟩
    exact (Prog.path_perform_bind _ _ _ _).mpr ⟨(), [], rfl, .ret err⟩
  obtain ⟨scrape, ran, trace⟩ := exists_scrape whole
  have added : locked (s.2 ++ [(i, ⟨.service .unlockGauge, ()⟩)]) =
      ⟨none, (locked s.2).calls ++ [⟨.unlockGauge, ()⟩]⟩ := locked_snoc _ _
  refine ⟨⟨?_, fun _ => ⟨ss ++ [scrape], .scrape pre.earlier ?_, ?_⟩⟩, trivial⟩
  · rw [added]
  · refine ⟨service_gaugeFree fuel, ran, ⟨err, ?_⟩, ?_⟩
    · rw [trace]
      exact whole
    · rw [trace]
      exact Gauge.run_append.mpr ⟨s.1.gauge, pre.run, .cons trivial (.nil _)⟩
  · rw [added, pre.calls, List.flatMap_append, List.flatMap_singleton, trace]
    simp only [List.append_assoc]

private theorem scrape_triple : (gaugeLogic ι m fuel).Triple i (fun _ => True)
    ((ConnectedClientsGauge.scrape (Service.server fuel)).interpret (overManager m))
    fun _ _ => True := by
  have parts : (ConnectedClientsGauge.scrape (Service.server fuel)).interpret (overManager m) =
      step (.service .lockGauge) >>= fun _ =>
        (ConnectedClientsGauge.scrapeLocked (Service.server fuel)).interpret (overManager m) >>=
          fun err => step (.service .unlockGauge) >>= fun _ => .ret err := by
    simp only [ConnectedClientsGauge.scrape, act, Prog.interpret_bind, Prog.interpret_perform]
    rfl
  rw [parts]
  -- Between the lock and the unlock, the calls noted are a path of the scrape.
  refine lock_triple.bind fun _ => .exists fun ss => .exists fun g => ?_
  refine (Logic.Triple.interpret_path scraping_triple
    (ConnectedClientsGauge.offGauge_scrapeLocked fuel) _).bind fun err => ?_
  refine .exists fun u => .assume (fun _ _ mid => mid.1) fun path => ?_
  refine .bind ((unlock_triple path).weaken (fun _ _ mid => mid.2) fun _ _ _ _ => trivial)
    fun _ => ?_
  exact .ret err fun _ _ _ => trivial

private theorem task_triple (task : Task) : (gaugeLogic ι m fuel).Triple i (fun _ => True)
    ((goroutine fuel task).interpret (overManager m)) fun _ _ => True := by
  have serving {α : Type} {p : Act α} (only : p.Only Op.Serving) :
      (gaugeLogic ι m fuel).Triple i (fun _ => True) (p.interpret (overManager m))
        fun _ _ => True :=
    (Logic.Triple.interpret_path (fun op _ => serving_triple op) only []).weaken
      (fun _ _ pre => pre) fun _ _ _ _ => trivial
  cases task with
  | listSockets => exact serving (serving_listSockets.map _)
  | request req => exact serving ((serving_serve fuel req).map _)
  | scrape =>
    unfold goroutine
    rw [Prog.interpret_map]
    exact scrape_triple.map _

variable (ι m fuel) in
def gaugeProof : Proof ι MainOp MainAns (Performed ι) MainChoice Task TaskRes where
  toLogic := gaugeLogic ι m fuel
  idle _ _ := True
  pre _ _ _ := True
  post _ _ _ _ := True
  idle_stable _ := .const True
  pre_stable _ _ := .const True
  start_ok _ _ _ _ inv _ _ started := by
    cases started
    exact ⟨inv, trivial, fun j _ mine => ⟨mine, rfl, rfl⟩⟩
  body_ok _ task := task_triple task
  finish_ok _ _ _ _ inv _ := ⟨inv, trivial, fun _ _ mine => ⟨mine, rfl, rfl⟩⟩
  env_ok ch s s' inv moved := by
    obtain ⟨mem', moves, rfl⟩ := Option.map_eq_some_iff.mp moved
    simp only [main] at moves
    split at moves
    · obtain ⟨mem, _, rfl⟩ := Option.map_eq_some_iff.mp moves
      exact ⟨⟨inv.holder, inv.serial⟩, fun _ mine => ⟨mine, rfl, rfl⟩⟩
    · cases moves

/-- However scrapes and requests interleave: whenever `g.mu` is free, what has been called under it
in the run is the calls of whole scrapes, one after the other; the gauge is what these have made
of it, and its labels are the sockets whose clients one of them got. -/
theorem scrapes_serial {c : Config ι MainOp MainAns (Main ι) Task TaskRes}
    {t : List (ι × Sigma MainAns)} (run : Traced (main ι m fuel) unrestricted (starting ι) t c)
    (free : c.state.gmu = none) :
    ∃ ss, (locked t).calls = ss.flatMap Scrape.trace ∧ Consecutive fuel ss c.state.gauge ∧
      Known ss c.state.gauge := by
  have initial : (gaugeProof ι m fuel).ConfigOk ((starting ι).traced []) :=
    ⟨⟨rfl, fun _ => ⟨[], .none, rfl⟩⟩, fun _ => trivial⟩
  obtain ⟨inv, _⟩ := (gaugeProof ι m fuel).sound _ _ initial run
  obtain ⟨ss, consecutive, calls⟩ := inv.serial free
  exact ⟨ss, calls, consecutive, consecutive.scrapes.known⟩

end

/-- A scrape that finds the socket `a`, whose peer has no clients -/
def scrapeTask : List (Label Unit MainChoice Task) :=
  [.start () .scrape, .step () .go, .step () (.dir (.ok [(lit "a", true)])),
      .step () (.range [])] ++
    (List.replicate 19 (.step () (.socket .go)) ++
      .env (.socket (.answer 0 0 (lit "FAIL\n"))) ::
        (List.replicate 7 (.step () (.socket .go)) ++ [.finish ()]))

theorem scrapes_serial_one : ∃ (c : Config Unit MainOp MainAns (Main Unit) Task TaskRes)
    (t : List (Unit × Sigma MainAns)),
    Traced (main Unit ⟨[], [], 0⟩ 1) unrestricted (starting Unit) t c ∧ c.state.gmu = none ∧
      c.state.gauge.vec.lookup (lit "a") = some 0 ∧
      ∃ ss, (locked t).calls = ss.flatMap Scrape.trace ∧ Consecutive 1 ss c.state.gauge ∧
        Known ss c.state.gauge := by
  obtain ⟨c, run, last⟩ := exists_main ⟨[], [], 0⟩ 1 scrapeTask
    (fun c => c.state.gmu == none && c.state.gauge.vec.lookup (lit "a") == some 0)
    (by decide +kernel)
  obtain ⟨free, value⟩ := Bool.and_eq_true_iff.mp last
  obtain ⟨t, traced⟩ := run.exists_traced
  exact ⟨c, t, traced, eq_of_beq free, eq_of_beq value, scrapes_serial traced (eq_of_beq free)⟩

end HostapdGrpc.Server
