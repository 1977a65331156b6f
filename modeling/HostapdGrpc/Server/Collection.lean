import HostapdGrpc.Server.Gauge

/-!
# Collections

A collection reads the vector label by label and does not take the gauge's mutex, so its reads
fall between any two calls of a scrape. What one gives depends on the values to which the scrape
has set the label by then.
-/

namespace HostapdGrpc.Server

open Go Interaction

/-! ### Reads between the calls -/

/-- A call of a scrape, or the read of a label by a collection; a label that the vector does not
have gives `none`. -/
inductive GaugeEvent where
  | call (e : Sigma Ans)
  | read (sock : GoString) (value : Option Nat)

def GaugeEvent.toCall : GaugeEvent → Option (Sigma Ans)
  | .call e => some e
  | .read _ _ => none

/-- The calls among the events -/
def scrapeCalls (es : List GaugeEvent) : List (Sigma Ans) := es.filterMap GaugeEvent.toCall

namespace Gauge

/-- The calls among `es` take the gauge from `g` to `g'`, and each read gives what it finds. -/
inductive Collected : Gauge → List GaugeEvent → Gauge → Prop where
  | nil (g : Gauge) : Collected g [] g
  | call {g g' : Gauge} {e : Sigma Ans} {es : List GaugeEvent} (permits : g.Permits e)
      (rest : Collected (g.after e) es g') : Collected g (.call e :: es) g'
  | read {g g' : Gauge} {es : List GaugeEvent} (sock : GoString) (rest : Collected g es g') :
      Collected g (.read sock (g.vec.lookup sock) :: es) g'

variable {g g' : Gauge} {es : List GaugeEvent}

/-- Reads leave the gauge alone. -/
theorem Collected.run (collected : Collected g es g') : Run g (scrapeCalls es) g' := by
  induction collected with
  | nil g => exact .nil g
  | call permits _ ih => exact .cons permits ih
  | read _ _ ih => exact ih

/-- What a read gives is what the calls before it left. -/
theorem Collected.at_read {es₁ es₂ : List GaugeEvent} {sock : GoString} {value : Option Nat}
    (collected : Collected g (es₁ ++ .read sock value :: es₂) g') :
    ∃ m, Run g (scrapeCalls es₁) m ∧ value = m.vec.lookup sock ∧ Run m (scrapeCalls es₂) g' := by
  induction es₁ generalizing g with
  | nil =>
    cases collected with
    | read _ rest => exact ⟨g, .nil g, rfl, rest.run⟩
  | cons e es₁ ih =>
    cases collected with
    | call permits rest =>
      obtain ⟨m, before, found, after⟩ := ih rest
      exact ⟨m, .cons permits before, found, after⟩
    | read _ rest => exact ih rest

theorem Run.collected {t : List (Sigma Ans)} (run : Run g t g') :
    Collected g (t.map .call) g' := by
  induction run with
  | nil g => exact .nil g
  | cons permits _ ih => exact .call permits ih

theorem Collected.append {m : Gauge} {es es' : List GaugeEvent} (first : Collected g es m)
    (second : Collected m es' g') : Collected g (es ++ es') g' := by
  induction first with
  | nil => exact second
  | call permits _ ih => exact .call permits (ih second)
  | read sock _ ih => exact .read sock (ih second)

/-- A collection may read between any two calls. -/
theorem Run.read {m : Gauge} {t u : List (Sigma Ans)} (before : Run g t m) (after : Run m u g')
    (sock : GoString) :
    Collected g (t.map .call ++ .read sock (m.vec.lookup sock) :: u.map .call) g' :=
  before.collected.append (.read sock after.collected)

end Gauge

@[simp] theorem scrapeCalls_read (t u : List (Sigma Ans)) (sock : GoString) (value : Option Nat) :
    scrapeCalls (t.map .call ++ .read sock value :: u.map .call) = t ++ u := by
  have same : ∀ v : List (Sigma Ans), v.filterMap (GaugeEvent.toCall ∘ GaugeEvent.call) = v :=
    fun _ => List.filterMap_some
  simp [scrapeCalls, List.filterMap_append, List.filterMap_cons, GaugeEvent.toCall,
    List.filterMap_map, same]

/-! ### The calls of a label -/

/-- A call that concerns the label: it is got from the vector, or set. -/
inductive LabelCall where
  | get
  | set (value : Nat)
  deriving DecidableEq

namespace LabelCall

/-- What the label shows after the call; `none` is a label that the vector does not have. -/
def after (call : LabelCall) (shown : Option Nat) : Option Nat :=
  match call with
  | get => some (shown.getD 0)
  | set value => some value

def value : LabelCall → Option Nat
  | get => none
  | set value => some value

end LabelCall

def labelCall (sock : GoString) : Sigma Ans → Option LabelCall
  | ⟨.withLabelValues label, _⟩ => if label = sock then some .get else none
  | ⟨.setGauge label value, _⟩ => if label = sock then some (.set value) else none
  | _ => none

/-- The calls that concern the label of `sock`, one after the other -/
def labelCalls (sock : GoString) (t : List (Sigma Ans)) : List LabelCall :=
  t.filterMap (labelCall sock)

@[simp] theorem labelCalls_append (sock : GoString) (t u : List (Sigma Ans)) :
    labelCalls sock (t ++ u) = labelCalls sock t ++ labelCalls sock u := List.filterMap_append

/-- Those among the events -/
def labelEvents (sock : GoString) (es : List GaugeEvent) : List LabelCall :=
  labelCalls sock (scrapeCalls es)

theorem labelCalls_setLabel (sock label : GoString) (value : Nat) :
    labelCalls sock (setLabel label value) = if label = sock then [.get, .set value] else [] := by
  by_cases same : label = sock <;> simp [labelCalls, setLabel, labelCall, same]

theorem labelCalls_free {sock : GoString} {t : List (Sigma Ans)}
    (free : ∀ e ∈ t, e.1.ofGauge = false) : labelCalls sock t = [] := by
  refine List.filterMap_eq_nil_iff.mpr fun e member => ?_
  have here := free e member
  obtain ⟨op, ans⟩ := e
  cases op <;> first | rfl | cases here

/-- The value to which the label was set last -/
def lastSet (calls : List LabelCall) : Option Nat := (calls.filterMap LabelCall.value).getLast?

@[simp] theorem lastSet_nil : lastSet [] = none := rfl

@[simp] theorem lastSet_get (calls : List LabelCall) :
    lastSet (.get :: calls) = lastSet calls := rfl

@[simp] theorem lastSet_set (n : Nat) (calls : List LabelCall) :
    lastSet (.set n :: calls) = (lastSet calls).or (some n) := by
  have first : (LabelCall.set n).value = some n := rfl
  rw [lastSet, List.filterMap_cons_some first, List.getLast?_cons, lastSet]
  cases (calls.filterMap LabelCall.value).getLast? <;> rfl

/-- What a label shows after the calls -/
def shown (old : Option Nat) (calls : List LabelCall) : Option Nat :=
  calls.foldl (fun value call => call.after value) old

/-- It is what it was set to last. Before it is set, it is what it was before, or 0 if it was made
since. -/
theorem shown_eq (old : Option Nat) (calls : List LabelCall) :
    shown old calls = (lastSet calls).or (if calls = [] then old else some (old.getD 0)) := by
  -- The value before a call is general, as the calls change it one by one.
  induction calls generalizing old with
  | nil => rfl
  | cons call calls ih =>
    have goes_on : shown old (call :: calls) = shown (call.after old) calls := rfl
    rw [goes_on, ih]
    cases call with
    | get => by_cases last : calls = [] <;> simp [last, LabelCall.after]
    | set value => by_cases last : calls = [] <;> simp [last, LabelCall.after]

/-- One call -/
private theorem lookup_after (g : Gauge) (e : Sigma Ans) (sock : GoString) :
    (g.after e).vec.lookup sock =
      (labelCall sock e).elim (g.vec.lookup sock) fun call => call.after (g.vec.lookup sock) := by
  obtain ⟨op, ans⟩ := e
  cases op with
  | withLabelValues label =>
    -- A label that is there stays as it is, a missing one is made with 0.
    by_cases old : label ∈ g.vec
    · obtain ⟨n, has⟩ := Option.isSome_iff_exists.mp (AList.lookup_isSome.mpr old)
      by_cases same : label = sock
      · subst same
        simp [Gauge.after, labelCall, LabelCall.after, old, has]
      · simp [Gauge.after, labelCall, old, same]
    · have missing := AList.lookup_eq_none.mpr old
      by_cases same : label = sock
      · subst same
        simp [Gauge.after, labelCall, LabelCall.after, old, missing]
      · simp [Gauge.after, labelCall, old, same, AList.lookup_insert_ne (Ne.symm same)]
  | setGauge label value =>
    by_cases same : label = sock
    · subst same
      simp [Gauge.after, labelCall, LabelCall.after]
    · simp [Gauge.after, labelCall, same, AList.lookup_insert_ne (Ne.symm same)]
  | _ => rfl

/-- The calls of a label decide what becomes of it. -/
theorem Gauge.lookup_run {g g' : Gauge} {t : List (Sigma Ans)} (run : g.Run t g')
    (sock : GoString) : g'.vec.lookup sock = shown (g.vec.lookup sock) (labelCalls sock t) := by
  induction run with
  | nil => rfl
  | @cons g g' e t permits rest ih =>
    rw [ih, lookup_after]
    cases here : labelCall sock e with
    | none => simp [labelCalls, here]
    | some call =>
      have first : labelCalls sock (e :: t) = call :: labelCalls sock t :=
        List.filterMap_cons_some here
      rw [first]
      rfl

/-! ### The labels of a scrape -/

/-- The length of the list that the turn got for `sock` -/
def Turn.got (sock : GoString) (v : Turn) : Option Nat :=
  match v.outcome with
  | .ok clis => if v.sock = sock then some clis.length else none
  | .error _ => none

/-- The lengths of the lists that the scrape got for `sock`: one, if it was listed once and its
clients could be listed. -/
def Scrape.lengths (s : Scrape) (sock : GoString) : List Nat := s.turns.filterMap (Turn.got sock)

/-- The calls of `clear`, and those of `scrapeSocket` for each list -/
def Scrape.labelCalls (s : Scrape) (g : Gauge) (sock : GoString) : List LabelCall :=
  (if s.listed.isOk ∧ sock ∈ g.sockets then [.get, .set 0] else []) ++
    (s.lengths sock).flatMap fun n => [.get, .set n]

private theorem labelCalls_clear (sock : GoString) {known : List GoString}
    (distinct : known.Nodup) : labelCalls sock (known.flatMap fun label => setLabel label 0) =
      if sock ∈ known then [.get, .set 0] else [] := by
  induction known with
  | nil => rfl
  | cons label known ih =>
    obtain ⟨fresh, distinct⟩ := List.nodup_cons.mp distinct
    rw [List.flatMap_cons, labelCalls_append, labelCalls_setLabel, ih distinct]
    by_cases same : label = sock
    · subst same
      simp [fresh]
    · simp [same, Ne.symm same]

private theorem labelCalls_turns {cli : HostapdControlServer} (free : GaugeFree cli)
    (sock : GoString) {turns : List Turn} (ran : ∀ v ∈ turns, v.Ran cli) :
    labelCalls sock (turns.flatMap fun v => v.calls ++ v.update) =
      (turns.filterMap (Turn.got sock)).flatMap fun n => [.get, .set n] := by
  induction turns with
  | nil => rfl
  | cons v turns ih =>
    obtain ⟨here, later⟩ := List.forall_mem_cons.mp ran
    have updated : labelCalls sock v.update =
        (Turn.got sock v).toList.flatMap fun n => [.get, .set n] := by
      unfold Turn.update Turn.got
      cases v.outcome with
      | error err => rfl
      | ok clis =>
        have added : labelCalls sock (⟨.addSocket v.sock, ()⟩ :: setLabel v.sock clis.length) =
            labelCalls sock (setLabel v.sock clis.length) := List.filterMap_cons_none rfl
        simp only
        rw [added, labelCalls_setLabel]
        by_cases same : v.sock = sock <;> simp [same]
    have listed : labelCalls sock v.calls = [] :=
      labelCalls_free ((free.util_listClients v.sock).path here)
    rw [List.flatMap_cons, labelCalls_append, labelCalls_append, listed, updated, ih later,
      List.nil_append]
    cases got : Turn.got sock v with
    | none => simp [got]
    | some n => simp [got]

theorem ScrapeStep.labelCalls_trace {cli : HostapdControlServer} {g g' : Gauge} {s : Scrape}
    (step : ScrapeStep cli g s g') (sock : GoString) :
    labelCalls sock s.trace = s.labelCalls g sock := by
  -- Neither the lock nor the listing concerns a label.
  have work : labelCalls sock s.trace = labelCalls sock s.work := by
    have listing : labelCalls sock s.calls = [] :=
      labelCalls_free (step.free.util_listSockets.path step.ran.listing)
    have lock : ∀ t, labelCalls sock (⟨.lockGauge, ()⟩ :: t) = labelCalls sock t := fun t =>
      List.filterMap_cons_none rfl
    have unlock : labelCalls sock [⟨.unlockGauge, ()⟩] = [] := rfl
    rw [Scrape.trace, lock, labelCalls_append, labelCalls_append, listing, unlock, List.nil_append,
      List.append_nil]
  rw [work]
  cases listed : s.listed with
  | error err =>
    simp [Scrape.labelCalls, Scrape.work, listed, Scrape.lengths, step.none_listed listed,
      Server.labelCalls, Except.isOk, Except.toBool]
  | ok names =>
    have run := step.run_work
    rw [Scrape.work, listed] at run
    -- A `range` over the known sockets gives each of them once.
    obtain _ | ⟨⟨distinct, known⟩, _⟩ := run
    have range : ∀ t, labelCalls sock (⟨.knownSockets, s.known⟩ :: t) = labelCalls sock t :=
      fun t => List.filterMap_cons_none rfl
    rw [Scrape.work, listed]
    simp only [List.cons_append]
    rw [range, labelCalls_append, labelCalls_clear sock distinct,
      labelCalls_turns step.free sock step.ran.turns]
    simp [Scrape.labelCalls, Scrape.lengths, listed, ← known, Except.isOk, Except.toBool]

/-! ### What a collection reads -/

/-- Between the calls `made` and `later` of a scrape, the label has been put to `m`, which is not
what it was before: it was set to that last, or made with 0 as there was none. And the scrape
sets it again, the last time to another number, `n`. -/
@[mk_iff]
structure Window (old : Option Nat) (made later : List LabelCall) (m n : Nat) : Prop where
  put : lastSet made = some m ∨ lastSet made = none ∧ made ≠ [] ∧ old = none ∧ m = 0
  changed : old ≠ some m
  again : lastSet later = some n
  other : n ≠ m

/-- A collection falls into such a window. -/
def Flickers (old : Option Nat) (made later : List LabelCall) : Prop :=
  ∃ m n, Window old made later m n

theorem flickers_iff (old : Option Nat) (made later : List LabelCall) :
    Flickers old made later ↔
      ¬(shown old made = old ∨ shown old made = shown (shown old made) later) := by
  simp only [Flickers, window_iff, shown_eq]
  cases last : lastSet made with
  | some m => cases lastSet later <;> simp [eq_comm]
  | none =>
    by_cases started : made = []
    · simp [started]
    · cases old <;> cases lastSet later <;> simp [started, eq_comm]

section
variable {cli : HostapdControlServer} {g g' : Gauge} {s : Scrape} {es₁ es₂ : List GaugeEvent}
  {sock : GoString} {value : Option Nat}

/-- The last list that a scrape got is what it leaves of its socket. -/
theorem ScrapeStep.lookup_of_lengths (step : ScrapeStep cli g s g') {n : Nat}
    (last : (s.lengths sock).getLast? = some n) : g'.vec.lookup sock = some n := by
  have set : ∀ ns : List Nat,
      (ns.flatMap fun n => [LabelCall.get, .set n]).filterMap LabelCall.value = ns := by
    intro ns
    induction ns with
    | nil => rfl
    | cons n ns ih => exact congrArg (n :: ·) ih
  rw [Gauge.lookup_run step.run, step.labelCalls_trace, shown_eq, lastSet, Scrape.labelCalls,
    List.filterMap_append, set, List.getLast?_append, last]
  rfl

/-- What a read gives, by the calls before it and after it -/
theorem Gauge.Collected.read_iff (events : g.Collected (es₁ ++ .read sock value :: es₂) g') :
    value = g.vec.lookup sock ∨ value = g'.vec.lookup sock ↔
      ¬Flickers (g.vec.lookup sock) (labelEvents sock es₁) (labelEvents sock es₂) := by
  obtain ⟨m, before, rfl, after⟩ := events.at_read
  rw [Gauge.lookup_run after, Gauge.lookup_run before, flickers_iff, not_not, labelEvents,
    labelEvents]

theorem ScrapeStep.labelCalls_around (step : ScrapeStep cli g s g')
    (interleaved : scrapeCalls (es₁ ++ .read sock value :: es₂) = s.trace) :
    labelEvents sock es₁ ++ labelEvents sock es₂ = s.labelCalls g sock := by
  rw [← step.labelCalls_trace, ← interleaved, labelEvents, labelEvents, ← labelCalls_append]
  simp only [scrapeCalls, List.filterMap_append, List.filterMap_cons, GaugeEvent.toCall]

private theorem length_lengths {turns : List Turn} (distinct : (turns.map Turn.sock).Nodup)
    (sock : GoString) : (turns.filterMap (Turn.got sock)).length ≤ 1 := by
  induction turns with
  | nil => simp
  | cons v turns ih =>
    obtain ⟨fresh, distinct⟩ := List.nodup_cons.mp distinct
    cases here : Turn.got sock v with
    | none =>
      rw [List.filterMap_cons_none here]
      exact ih distinct
    | some n =>
      -- No later turn is of the same socket.
      have others : turns.filterMap (Turn.got sock) = [] := by
        refine List.filterMap_eq_nil_iff.mpr fun w member => ?_
        have mine : v.sock = sock := by
          unfold Turn.got at here
          split at here <;> simp_all
        have other : w.sock ≠ sock := fun same =>
          fresh (List.mem_map.mpr ⟨w, member, same.trans mine.symm⟩)
        unfold Turn.got
        split <;> simp [other]
      rw [List.filterMap_cons_some here, others]
      exact Nat.le_refl 1

/-- Where a list was got once at most, the window is from the Set of `clear`, or from where a label
is made, to the Set of another number than 0. -/
theorem flickers_once {old : Option Nat} {made later : List LabelCall} {cleared : Prop}
    [Decidable cleared] {lengths : List Nat} (once : lengths.length ≤ 1)
    (calls : made ++ later = (if cleared then [.get, .set 0] else []) ++
      lengths.flatMap fun n => [.get, .set n]) :
    Flickers old made later ↔ old ≠ some 0 ∧
      (made = [.get] ∧ old = none ∨ made = [.get, .set 0] ∨ made = [.get, .set 0, .get]) ∧
        ∃ n ≠ 0, lastSet later = some n := by
  simp only [Flickers, window_iff]
  rcases lengths with _ | ⟨k, _ | ⟨_, _⟩⟩
  -- Without a list, only `clear` sets the label.
  · split at calls
    · simp only [List.flatMap_nil, List.append_nil, List.append_eq_cons_iff,
        List.cons_eq_append_iff, List.nil_eq_append_iff] at calls
      obtain ⟨rfl, rfl⟩ | ⟨_, rfl, ⟨rfl, rfl⟩ | ⟨_, rfl, rfl, rfl⟩⟩ := calls <;> simp
    · obtain ⟨rfl, rfl⟩ := List.append_eq_nil_iff.mp calls
      simp
  -- With one, `scrapeSocket` sets it last; the read is between any two of these calls.
  · split at calls
    · simp only [List.flatMap_cons, List.flatMap_nil, List.append_nil, List.cons_append,
        List.nil_append, List.append_eq_cons_iff, List.cons_eq_append_iff,
        List.nil_eq_append_iff] at calls
      obtain ⟨rfl, rfl⟩ | ⟨_, rfl, ⟨rfl, rfl⟩ | ⟨_, rfl, ⟨rfl, rfl⟩ | ⟨_, rfl, ⟨rfl, rfl⟩ |
        ⟨_, rfl, rfl, rfl⟩⟩⟩⟩ := calls <;> simp [and_left_comm]
    · simp only [List.flatMap_cons, List.flatMap_nil, List.append_nil, List.nil_append,
        List.append_eq_cons_iff, List.cons_eq_append_iff, List.nil_eq_append_iff] at calls
      obtain ⟨rfl, rfl⟩ | ⟨_, rfl, ⟨rfl, rfl⟩ | ⟨_, rfl, rfl, rfl⟩⟩ := calls <;>
        simp [and_left_comm]
  · simp at once

/-- During a scrape, a collection reads of a label what the last scrape left or the current one
leaves, exactly if it does not fall into a window of the label; so also if both got a list of one
length. The calls around the read are those of the current scrape. Where no socket is listed
twice, the window is from the Set of `clear`, or from where a missing label is made, both of 0, to
the Set of another number. -/
theorem collected_iff (current : ScrapeStep cli g s g')
    (events : g.Collected (es₁ ++ .read sock value :: es₂) g')
    (interleaved : scrapeCalls (es₁ ++ .read sock value :: es₂) = s.trace) :
    (value = g.vec.lookup sock ∨ value = g'.vec.lookup sock ↔
      ¬Flickers (g.vec.lookup sock) (labelEvents sock es₁) (labelEvents sock es₂)) ∧
    (∀ (cli₀ : HostapdControlServer) (g₀ : Gauge) (s₀ : Scrape) (n : Nat),
      ScrapeStep cli₀ g₀ s₀ g → (s₀.lengths sock).getLast? = some n →
        (s.lengths sock).getLast? = some n → (value = some n ↔
          ¬Flickers (g.vec.lookup sock) (labelEvents sock es₁) (labelEvents sock es₂))) ∧
    labelEvents sock es₁ ++ labelEvents sock es₂ = s.labelCalls g sock ∧
    ((∀ names, s.listed = .ok names → names.Nodup) →
      (Flickers (g.vec.lookup sock) (labelEvents sock es₁) (labelEvents sock es₂) ↔
        g.vec.lookup sock ≠ some 0 ∧
        (labelEvents sock es₁ = [.get] ∧ g.vec.lookup sock = none ∨
          labelEvents sock es₁ = [.get, .set 0] ∨ labelEvents sock es₁ = [.get, .set 0, .get]) ∧
        ∃ n ≠ 0, lastSet (labelEvents sock es₂) = some n)) := by
  have around := current.labelCalls_around interleaved
  refine ⟨events.read_iff, fun cli₀ g₀ s₀ n last old new => ?_, around, fun distinct => ?_⟩
  · rw [← events.read_iff, last.lookup_of_lengths old, current.lookup_of_lengths new, or_self]
  · refine flickers_once (length_lengths ?_ sock) around
    rw [current.ran.socks]
    cases listed : s.listed with
    | error err => exact List.nodup_nil
    | ok names => exact distinct names listed

end

/-- Another scrape with the same station -/
def repeatedScrape : Scrape := { firstScrape with known := [lit "wlan0"] }

/-- What the first scrape leaves, and what the other one makes of it as far as clearing it -/
def oneClient : Gauge := firstScrape.turns.foldl Gauge.turn .new

def zeroed : Gauge := oneClient.cleared [lit "wlan0"]

theorem repeatedScrape_run :
    oneClient.Run (repeatedScrape.trace.take 5) zeroed ∧
      zeroed.Run (repeatedScrape.trace.drop 5) (repeatedScrape.turns.foldl Gauge.turn zeroed) :=
  ⟨.cons trivial (.cons trivial (.cons ⟨List.nodup_singleton _, rfl⟩ (.cons trivial
      (.cons trivial (.nil _))))),
    .cons trivial (.cons trivial (.cons trivial (.cons trivial (.cons trivial (.cons trivial
      (.cons trivial (.nil _)))))))⟩

theorem repeatedScrape_step : ScrapeStep (Service.server 1) oneClient repeatedScrape
    (repeatedScrape.turns.foldl Gauge.turn zeroed) where
  free := service_gaugeFree 1
  ran := ⟨firstScrape_step.ran.listing, firstScrape_step.ran.turns, rfl⟩
  path := by
    refine ⟨none, ?_⟩
    repeat refine .call _ ?_
    exact .ret _
  run := Gauge.run_append.mpr ⟨zeroed, repeatedScrape_run.1, repeatedScrape_run.2⟩

/-- Read before the label is cleared -/
theorem collected_iff_one : ∃ g' es₁ es₂,
    ScrapeStep (Service.server 1) oneClient repeatedScrape g' ∧
    oneClient.Collected (es₁ ++ .read (lit "wlan0") (some 1) :: es₂) g' ∧
    scrapeCalls (es₁ ++ .read (lit "wlan0") (some 1) :: es₂) = repeatedScrape.trace ∧
    (some 1 = oneClient.vec.lookup (lit "wlan0") ∨ some 1 = g'.vec.lookup (lit "wlan0")) := by
  have read := Gauge.Run.read (.nil _) repeatedScrape_step.run (lit "wlan0")
  refine ⟨_, _, _, repeatedScrape_step, read, scrapeCalls_read _ _ _ _,
    (collected_iff repeatedScrape_step read (scrapeCalls_read _ _ _ _)).1.mpr ?_⟩
  rintro ⟨m, n, window⟩
  obtain last | ⟨_, started, _⟩ := window.put
  · cases last
  · exact started rfl

/-- Between the two Sets a collection reads 0 of a socket that has one station all the time. -/
theorem collected_zero : ∃ g g' es₁ es₂, ScrapeStep (Service.server 1) .new firstScrape g ∧
    ScrapeStep (Service.server 1) g repeatedScrape g' ∧
    g.Collected (es₁ ++ .read (lit "wlan0") (some 0) :: es₂) g' ∧
    scrapeCalls (es₁ ++ .read (lit "wlan0") (some 0) :: es₂) = repeatedScrape.trace ∧
    firstScrape.lengths (lit "wlan0") = [1] ∧ repeatedScrape.lengths (lit "wlan0") = [1] ∧
    g.vec.lookup (lit "wlan0") = some 1 ∧ g'.vec.lookup (lit "wlan0") = some 1 :=
  ⟨oneClient, _, _, _, firstScrape_step, repeatedScrape_step,
    repeatedScrape_run.1.read repeatedScrape_run.2 (lit "wlan0"), scrapeCalls_read _ _ _ _,
    by decide, by decide, by decide, by decide⟩

end HostapdGrpc.Server
