import HostapdGrpc.Server.Calls
import HostapdGrpc.Server.Metrics
import Mathlib.Data.Finset.Basic

/-!
# The gauge over a run

Scrape after scrape, the set of known sockets and the labels of the vector grow together, and
a value that is not from the last scrape is 0.
-/

namespace HostapdGrpc.Server

open Go Interaction

/-! ### The fields of the gauge -/

/-- `g.sockets`, and the labels of `g.GaugeVec` with their values -/
structure Gauge where
  sockets : Finset GoString
  vec : AList fun _ : GoString => Nat

namespace Gauge

/-- `NewConnectedClientsGauge` -/
def new : Gauge := ⟨∅, ∅⟩

/-- A `range` over `g.sockets` gives each key once, in any order. -/
def Permits (g : Gauge) : Sigma Ans → Prop
  | ⟨.knownSockets, socks⟩ => socks.Nodup ∧ socks.toFinset = g.sockets
  | _ => True

def after (g : Gauge) : Sigma Ans → Gauge
  | ⟨.addSocket sock, _⟩ => { g with sockets := insert sock g.sockets }
  -- A label that the vector does not have is made, with the value 0.
  | ⟨.withLabelValues sock, _⟩ => if sock ∈ g.vec then g else { g with vec := g.vec.insert sock 0 }
  | ⟨.setGauge sock value, _⟩ => { g with vec := g.vec.insert sock value }
  | _ => g

/-- The calls `t` take the gauge from `g` to `g'`. -/
inductive Run : Gauge → List (Sigma Ans) → Gauge → Prop where
  | nil (g : Gauge) : Run g [] g
  | cons {g g' : Gauge} {e : Sigma Ans} {t : List (Sigma Ans)} (permits : g.Permits e)
      (rest : Run (g.after e) t g') : Run g (e :: t) g'

end Gauge

/-- The calls that reach the fields of the gauge -/
def Op.ofGauge : Op → Bool
  | .knownSockets | .addSocket _ | .withLabelValues _ | .setGauge _ _ => true
  | _ => false

/-- The fields are not exported, and no method of a server has them. -/
structure GaugeFree (cli : HostapdControlServer) : Prop where
  listSockets : cli.listSockets.Only fun op => op.ofGauge = false
  listClients : ∀ req, (cli.listClients req).Only fun op => op.ofGauge = false

namespace GaugeFree

variable {cli : HostapdControlServer}

theorem util_listSockets (free : GaugeFree cli) :
    (Util.listSockets cli).Only fun op => op.ofGauge = false := by
  refine free.listSockets.bind fun res => ?_
  cases res <;> exact .ret _

theorem util_listClients (free : GaugeFree cli) (sock : GoString) :
    (Util.listClients cli sock).Only fun op => op.ofGauge = false := by
  refine (free.listClients _).bind fun res => ?_
  cases res <;> exact .ret _

end GaugeFree

/-- The service, for one -/
theorem service_gaugeFree (fuel : Nat) : GaugeFree (Service.server fuel) where
  listSockets := by
    have available : (act .available).Only fun op => op.ofGauge = false := only_act rfl
    refine available.bind fun ans => ?_
    cases ans <;> exact .ret _
  listClients req := (only_listClients fuel req).mono fun op calls => by
    obtain ⟨listing⟩ := calls
    cases op <;> first | rfl | cases listing

/-! ### Scrapes -/

/-- One socket's turn in a scrape -/
structure Turn where
  sock : GoString
  calls : List (Sigma Ans)
  outcome : Except GoError (List Client)

namespace Turn

def Ran (cli : HostapdControlServer) (v : Turn) : Prop :=
  (Util.listClients cli v.sock).Path v.calls v.outcome

/-- What the turn does to the gauge -/
def update (v : Turn) : List (Sigma Ans) :=
  match v.outcome with
  | .ok clis => ⟨.addSocket v.sock, ()⟩ :: setLabel v.sock clis.length
  | .error _ => []

end Turn

/-- A scrape: the listing of the sockets, the order in which the known sockets are cleared,
and the turns -/
structure Scrape where
  calls : List (Sigma Ans)
  listed : Except GoError (List GoString)
  known : List GoString
  turns : List Turn

namespace Scrape

/-- What follows the listing -/
def work (s : Scrape) : List (Sigma Ans) :=
  match s.listed with
  | .ok _ => ⟨.knownSockets, s.known⟩ :: s.known.flatMap (fun sock => setLabel sock 0) ++
      s.turns.flatMap fun v => v.calls ++ v.update
  | .error _ => []

def trace (s : Scrape) : List (Sigma Ans) :=
  ⟨.lockGauge, ()⟩ :: (s.calls ++ s.work ++ [⟨.unlockGauge, ()⟩])

/-- The outcomes are those of the calls made to `cli`. -/
structure Ran (cli : HostapdControlServer) (s : Scrape) : Prop where
  listing : (Util.listSockets cli).Path s.calls s.listed
  turns : ∀ v ∈ s.turns, v.Ran cli
  socks : s.turns.map Turn.sock = s.listed.toOption.getD []

end Scrape

/-! ### The calls of a scrape -/

private theorem path_clearLoop {socks : List GoString} {t : List (Sigma Ans)} {r : Unit}
    (path : (ConnectedClientsGauge.clearLoop socks).Path t r) :
    t = socks.flatMap fun sock => setLabel sock 0 := by
  induction socks generalizing t with
  | nil => exact ((Prog.path_ret _ _ _).mp path).1
  | cons sock socks ih =>
    obtain ⟨_, _, rfl, sets⟩ := (Prog.path_perform_bind _ _ _ _).mp path
    obtain ⟨_, _, rfl, goes_on⟩ := (Prog.path_perform_bind _ _ _ _).mp sets
    rw [ih goes_on]
    rfl

private theorem path_scrapeSocket {cli : HostapdControlServer} {sock : GoString}
    {t : List (Sigma Ans)} {err : Option GoError}
    (path : (ConnectedClientsGauge.scrapeSocket cli sock).Path t err) :
    ∃ v : Turn, v.sock = sock ∧ v.Ran cli ∧ t = v.calls ++ v.update := by
  obtain ⟨calls, rest, outcome, rfl, listed, goes_on⟩ := (Prog.path_bind _ _ _ _).mp path
  refine ⟨⟨sock, calls, outcome⟩, rfl, listed, ?_⟩
  cases outcome with
  | error err =>
    obtain ⟨rfl, _⟩ := (Prog.path_ret _ _ _).mp goes_on
    rfl
  | ok clis =>
    obtain ⟨_, _, rfl, labels⟩ := (Prog.path_perform_bind _ _ _ _).mp goes_on
    obtain ⟨_, _, rfl, sets⟩ := (Prog.path_perform_bind _ _ _ _).mp labels
    obtain ⟨_, _, rfl, done⟩ := (Prog.path_perform_bind _ _ _ _).mp sets
    obtain ⟨rfl, _⟩ := (Prog.path_ret _ _ _).mp done
    rfl

private theorem path_scrapeLoop {cli : HostapdControlServer} {sockets : List GoString}
    {sErr errs : SocketErrors} {t : List (Sigma Ans)}
    (path : (ConnectedClientsGauge.scrapeLoop cli sockets sErr).Path t errs) :
    ∃ turns : List Turn, turns.map Turn.sock = sockets ∧ (∀ v ∈ turns, v.Ran cli) ∧
      t = turns.flatMap fun v => v.calls ++ v.update := by
  induction sockets generalizing sErr t with
  | nil =>
    obtain ⟨rfl, _⟩ := (Prog.path_ret _ _ _).mp path
    exact ⟨[], rfl, by simp, rfl⟩
  | cons sock sockets ih =>
    obtain ⟨first, rest, err, rfl, one, others⟩ := (Prog.path_bind _ _ _ _).mp path
    obtain ⟨v, rfl, ran, rfl⟩ := path_scrapeSocket one
    -- With an error or without, the loop goes on with the next socket.
    have goes_on : ∃ sErr',
        (ConnectedClientsGauge.scrapeLoop cli sockets sErr').Path rest errs := by
      cases err with
      | none => exact ⟨_, others⟩
      | some err => exact ⟨_, others⟩
    obtain ⟨_, goes_on⟩ := goes_on
    obtain ⟨turns, socks, all_ran, rfl⟩ := ih goes_on
    exact ⟨v :: turns, by simp [socks], List.forall_mem_cons.mpr ⟨ran, all_ran⟩, by simp⟩

/-- Every scrape is a listing of the sockets, and, if that succeeds, the clearing of the known
sockets and a turn for each one listed. -/
theorem exists_scrape {cli : HostapdControlServer} {t : List (Sigma Ans)}
    {err : Option ScrapeError} (path : (ConnectedClientsGauge.scrape cli).Path t err) :
    ∃ s : Scrape, s.Ran cli ∧ s.trace = t := by
  obtain ⟨_, _, rfl, locked⟩ := (Prog.path_perform_bind _ _ _ _).mp path
  obtain ⟨inside, _, _, rfl, held, leave⟩ := (Prog.path_bind _ _ _ _).mp locked
  obtain ⟨_, _, rfl, done⟩ := (Prog.path_perform_bind _ _ _ _).mp leave
  obtain ⟨rfl, _⟩ := (Prog.path_ret _ _ _).mp done
  obtain ⟨calls, rest, listed, rfl, listing, others⟩ := (Prog.path_bind _ _ _ _).mp held
  cases listed with
  -- Without a list of sockets the scrape ends before anything is cleared.
  | error e =>
    obtain ⟨rfl, _⟩ := (Prog.path_ret _ _ _).mp others
    exact ⟨⟨calls, .error e, [], []⟩, ⟨listing, by simp, rfl⟩, by simp [Scrape.trace, Scrape.work]⟩
  | ok names =>
    obtain ⟨clear, _, _, rfl, cleared, onward⟩ := (Prog.path_bind _ _ _ _).mp others
    obtain ⟨known, _, rfl, clearing⟩ := (Prog.path_perform_bind _ _ _ _).mp cleared
    obtain ⟨_, _, errs, rfl, looped, last⟩ := (Prog.path_bind _ _ _ _).mp onward
    obtain ⟨rfl, _⟩ := (Prog.path_ret _ _ _).mp last
    obtain ⟨turns, socks, ran, rfl⟩ := path_scrapeLoop looped
    cases path_clearLoop clearing
    exact ⟨⟨calls, .ok names, known, turns⟩, ⟨listing, ran, socks⟩,
      by simp [Scrape.trace, Scrape.work]⟩

/-! ### What the calls do to the gauge -/

namespace Gauge

/-- All of `known` set to 0 -/
def cleared (g : Gauge) (known : List GoString) : Gauge :=
  { g with vec := known.foldl (fun vec sock => vec.insert sock 0) g.vec }

def turn (g : Gauge) (v : Turn) : Gauge :=
  match v.outcome with
  | .ok clis => ⟨insert v.sock g.sockets, g.vec.insert v.sock clis.length⟩
  | .error _ => g

theorem run_append {g g' : Gauge} {t u : List (Sigma Ans)} :
    Run g (t ++ u) g' ↔ ∃ m, Run g t m ∧ Run m u g' := by
  constructor
  · intro run
    induction t generalizing g with
    | nil => exact ⟨g, .nil g, run⟩
    | cons e t ih =>
      cases run with
      | cons permits rest =>
        obtain ⟨m, first, second⟩ := ih rest
        exact ⟨m, .cons permits first, second⟩
  · rintro ⟨m, first, second⟩
    induction first with
    | nil => exact second
    | cons permits _ ih => exact .cons permits (ih second)

theorem after_free (g : Gauge) {e : Sigma Ans} (free : e.1.ofGauge = false) : g.after e = g := by
  obtain ⟨op, ans⟩ := e
  cases op <;> first | rfl | cases free

theorem run_free {g g' : Gauge} {t : List (Sigma Ans)} (free : ∀ e ∈ t, e.1.ofGauge = false)
    (run : Run g t g') : g' = g := by
  induction run with
  | nil => rfl
  | cons _ _ ih =>
    obtain ⟨here, later⟩ := List.forall_mem_cons.mp free
    rw [ih later, after_free _ here]

/-- A label that is made is set at once. -/
theorem run_setLabel {g g' : Gauge} {sock : GoString} {value : Nat}
    (run : Run g (setLabel sock value) g') : g' = { g with vec := g.vec.insert sock value } := by
  obtain _ | ⟨_, _ | ⟨_, ⟨⟩⟩⟩ := run
  by_cases label : sock ∈ g.vec
  · simp [after, label]
  · simp [after, label, AList.insert_insert]

theorem run_clear {g g' : Gauge} {known : List GoString}
    (run : Run g (known.flatMap fun sock => setLabel sock 0) g') : g' = g.cleared known := by
  induction known generalizing g with
  | nil =>
    cases run
    rfl
  | cons sock known ih =>
    obtain ⟨m, first, rest⟩ := run_append.mp run
    rw [run_setLabel first] at rest
    exact ih rest

theorem run_turns {cli : HostapdControlServer} (free : GaugeFree cli) {turns : List Turn}
    (ran : ∀ v ∈ turns, v.Ran cli) {g g' : Gauge}
    (run : Run g (turns.flatMap fun v => v.calls ++ v.update) g') : g' = turns.foldl turn g := by
  induction turns generalizing g with
  | nil =>
    cases run
    rfl
  | cons v turns ih =>
    obtain ⟨here, later⟩ := List.forall_mem_cons.mp ran
    obtain ⟨m, first, rest⟩ := run_append.mp run
    obtain ⟨m', calls, update⟩ := run_append.mp first
    -- Of a turn, only what comes after its listing concerns the gauge.
    cases run_free ((free.util_listClients v.sock).path here) calls
    have updated : m = g.turn v := by
      unfold Turn.update at update
      unfold turn
      cases outcome : v.outcome with
      | error err =>
        rw [outcome] at update
        cases update
        rfl
      | ok clis =>
        rw [outcome] at update
        cases update with
        | cons _ labels =>
          rw [run_setLabel labels]
          rfl
    subst updated
    exact ih later rest

end Gauge

/-- The scrape takes the gauge from `g` to `g'`. -/
structure ScrapeStep (cli : HostapdControlServer) (g : Gauge) (s : Scrape) (g' : Gauge) : Prop where
  free : GaugeFree cli
  ran : s.Ran cli
  path : ∃ err, (ConnectedClientsGauge.scrape cli).Path s.trace err
  run : g.Run s.trace g'

/-- The mutex and the listing of the sockets do not concern the gauge. -/
theorem ScrapeStep.run_work {cli : HostapdControlServer} {g g' : Gauge} {s : Scrape}
    (step : ScrapeStep cli g s g') : g.Run s.work g' := by
  obtain _ | ⟨_, unlocked⟩ := step.run
  obtain ⟨m, inside, leave⟩ := Gauge.run_append.mp unlocked
  obtain ⟨m', calls, work⟩ := Gauge.run_append.mp inside
  cases Gauge.run_free (step.free.util_listSockets.path step.ran.listing) calls
  obtain _ | ⟨_, ⟨⟩⟩ := leave
  exact work

/-- The step lemma: a scrape without a list of sockets leaves the gauge alone; any other
clears what is known and lets the sockets take their turns. -/
theorem ScrapeStep.effect {cli : HostapdControlServer} {g g' : Gauge} {s : Scrape}
    (step : ScrapeStep cli g s g') :
    (∀ err, s.listed = .error err → g' = g) ∧
      ∀ names, s.listed = .ok names → s.known.toFinset = g.sockets ∧
        g' = s.turns.foldl Gauge.turn (g.cleared s.known) := by
  have work := step.run_work
  constructor
  · intro err listed
    rw [Scrape.work, listed] at work
    cases work
    rfl
  · intro names listed
    rw [Scrape.work, listed] at work
    obtain _ | ⟨permits, rest⟩ := work
    obtain ⟨m', clear, turns⟩ := Gauge.run_append.mp rest
    cases Gauge.run_clear clear
    exact ⟨permits.2, Gauge.run_turns step.free step.ran.turns turns⟩

/-! ### Labels and values -/

/-- Some turn got the list of the clients of `sock`. -/
def Got (turns : List Turn) (sock : GoString) : Prop :=
  ∃ v ∈ turns, v.sock = sock ∧ ∃ clis, v.outcome = .ok clis

namespace Gauge

theorem lookup_cleared (g : Gauge) (known : List GoString) (sock : GoString) :
    (g.cleared known).vec.lookup sock = if sock ∈ known then some 0 else g.vec.lookup sock := by
  unfold cleared
  simp only
  generalize g.vec = vec
  -- The vector changes with every name, so it is general.
  induction known generalizing vec with
  | nil => simp
  | cons name known ih =>
    rw [List.foldl_cons, ih]
    by_cases later : sock ∈ known
    · simp [later]
    · by_cases same : sock = name
      · subst same
        simp [later]
      · simp [later, same, AList.lookup_insert_ne same]

theorem mem_turn (g : Gauge) (v : Turn) (sock : GoString) :
    (sock ∈ (g.turn v).sockets ↔ sock ∈ g.sockets ∨ Got [v] sock) ∧
      (sock ∈ (g.turn v).vec ↔ sock ∈ g.vec ∨ Got [v] sock) := by
  unfold turn Got
  cases outcome : v.outcome with
  | error err => simp [outcome]
  | ok clis => simp [outcome, or_comm, eq_comm]

theorem mem_turns (turns : List Turn) (g : Gauge) (sock : GoString) :
    (sock ∈ (turns.foldl turn g).sockets ↔ sock ∈ g.sockets ∨ Got turns sock) ∧
      (sock ∈ (turns.foldl turn g).vec ↔ sock ∈ g.vec ∨ Got turns sock) := by
  induction turns generalizing g with
  | nil => simp [Got]
  | cons v turns ih =>
    have split : Got (v :: turns) sock ↔ Got [v] sock ∨ Got turns sock := by
      simp [Got]
    obtain ⟨sockets, vec⟩ := ih (g.turn v)
    obtain ⟨sockets', vec'⟩ := g.mem_turn v sock
    rw [List.foldl_cons, sockets, vec, sockets', vec', split, or_assoc, or_assoc]
    exact ⟨Iff.rfl, Iff.rfl⟩

theorem lookup_turns_other {turns : List Turn} {g : Gauge} {sock : GoString}
    (other : ¬ Got turns sock) : (turns.foldl turn g).vec.lookup sock = g.vec.lookup sock := by
  induction turns generalizing g with
  | nil => rfl
  | cons v turns ih =>
    have here : (g.turn v).vec.lookup sock = g.vec.lookup sock := by
      unfold turn
      cases outcome : v.outcome with
      | error err => rfl
      | ok clis =>
        refine AList.lookup_insert_ne fun same => other ?_
        exact ⟨v, List.mem_cons_self, same.symm, clis, outcome⟩
    rw [List.foldl_cons, ih, here]
    rintro ⟨u, member, got⟩
    exact other ⟨u, List.mem_cons_of_mem _ member, got⟩

theorem lookup_turns {turns : List Turn} (distinct : (turns.map Turn.sock).Nodup) {g : Gauge}
    {v : Turn} (member : v ∈ turns) {clis : List Client} (outcome : v.outcome = .ok clis) :
    (turns.foldl turn g).vec.lookup v.sock = some clis.length := by
  induction turns generalizing g with
  | nil => cases member
  | cons u turns ih =>
    obtain ⟨fresh, distinct⟩ := List.nodup_cons.mp distinct
    obtain _ | ⟨_, later⟩ := member
    -- The names are distinct: no later turn sets the label again.
    · rw [List.foldl_cons, lookup_turns_other]
      · simp [turn, outcome]
      · rintro ⟨w, later, same, _⟩
        exact fresh (same ▸ List.mem_map_of_mem later)
    · exact ih distinct later

end Gauge

/-! ### Runs -/

/-- One scrape after the other, each of some server -/
inductive Scrapes : List Scrape → Gauge → Prop where
  | none : Scrapes [] .new
  | scrape {ss : List Scrape} {cli : HostapdControlServer} {g g' : Gauge} {s : Scrape}
      (earlier : Scrapes ss g) (step : ScrapeStep cli g s g') : Scrapes (ss ++ [s]) g'

/-- The invariant: the known sockets are those whose clients some scrape got, and the vector
has a label for exactly those. -/
structure Known (ss : List Scrape) (g : Gauge) : Prop where
  sockets : ∀ sock, sock ∈ g.sockets ↔ ∃ s ∈ ss, Got s.turns sock
  labels : ∀ sock, sock ∈ g.vec ↔ sock ∈ g.sockets

theorem ScrapeStep.none_listed {cli : HostapdControlServer} {g g' : Gauge} {s : Scrape}
    (step : ScrapeStep cli g s g') {err : GoError} (listed : s.listed = .error err) :
    s.turns = [] := by
  refine List.map_eq_nil_iff.mp (step.ran.socks.trans ?_)
  rw [listed]
  rfl

theorem ScrapeStep.known {cli : HostapdControlServer} {ss : List Scrape} {g g' : Gauge} {s : Scrape}
    (step : ScrapeStep cli g s g') (known : Known ss g) : Known (ss ++ [s]) g' := by
  have more : ∀ sock, (∃ s' ∈ ss ++ [s], Got s'.turns sock) ↔
      (∃ s' ∈ ss, Got s'.turns sock) ∨ Got s.turns sock := fun sock => by
    simp [or_and_right, exists_or]
  cases listed : s.listed with
  | error err =>
    cases step.effect.1 err listed
    refine ⟨fun sock => ?_, known.labels⟩
    rw [more, known.sockets, step.none_listed listed]
    simp [Got]
  | ok names =>
    obtain ⟨cleared, rfl⟩ := step.effect.2 names listed
    -- What is cleared is known, and what is known has a label already.
    have labels : ∀ sock, sock ∈ (g.cleared s.known).vec ↔ sock ∈ g.sockets := fun sock => by
      rw [← AList.lookup_isSome, Gauge.lookup_cleared, ← cleared, List.mem_toFinset]
      split
      · next here => simp [here]
      · next absent =>
        rw [AList.lookup_isSome, known.labels, ← cleared, List.mem_toFinset]
    refine ⟨fun sock => ?_, fun sock => ?_⟩
    · rw [more, (Gauge.mem_turns _ _ sock).1, ← known.sockets]
      rfl
    · rw [(Gauge.mem_turns _ _ sock).1, (Gauge.mem_turns _ _ sock).2, labels]
      rfl

/-- The run lemma -/
theorem Scrapes.known {ss : List Scrape} {g : Gauge} (scrapes : Scrapes ss g) : Known ss g := by
  induction scrapes with
  | none => exact ⟨by simp [Gauge.new], by simp [Gauge.new]⟩
  | scrape _ step ih => exact step.known ih

/-- After a scrape that got a list of sockets, the labels are the sockets whose clients this
or an earlier scrape got, with the number of clients that this scrape got, else 0. A scrape
that got no list changes nothing, and none takes a label away. -/
theorem gauge_contents {ss : List Scrape} {g g' : Gauge} {cli : HostapdControlServer} {s : Scrape}
    (earlier : Scrapes ss g) (step : ScrapeStep cli g s g')
    (distinct : ∀ names, s.listed = .ok names → names.Nodup) :
    (∀ names, s.listed = .ok names →
      (∀ sock, sock ∈ g'.vec ↔ ∃ s' ∈ ss ++ [s], Got s'.turns sock) ∧
      (∀ v ∈ s.turns, ∀ clis, v.outcome = .ok clis → g'.vec.lookup v.sock = some clis.length) ∧
      ∀ sock ∈ g'.vec, ¬ Got s.turns sock → g'.vec.lookup sock = some 0) ∧
    (∀ err, s.listed = .error err → g' = g) ∧
    (∀ sock ∈ g.vec, sock ∈ g'.vec) ∧
    ∀ t err, (ConnectedClientsGauge.scrape cli).Path t err →
      ∃ s : Scrape, s.Ran cli ∧ s.trace = t := by
  have before := earlier.known
  have known := step.known before
  refine ⟨fun names listed => ⟨fun sock => ?_, ?_, ?_⟩, step.effect.1, fun sock label => ?_,
    fun t err path => exists_scrape path⟩
  · rw [known.labels, known.sockets]
  · intro v member clis outcome
    obtain ⟨_, rfl⟩ := step.effect.2 names listed
    refine Gauge.lookup_turns ?_ member outcome
    rw [step.ran.socks, listed]
    exact distinct names listed
  -- A label that is not from this scrape is of a known socket, so it was cleared.
  · intro sock label absent
    obtain ⟨cleared, rfl⟩ := step.effect.2 names listed
    have old : sock ∈ g.sockets := by
      rw [known.labels, (Gauge.mem_turns _ _ sock).1] at label
      exact label.resolve_right absent
    rw [Gauge.lookup_turns_other absent, Gauge.lookup_cleared,
      if_pos (by rwa [← List.mem_toFinset, cleared])]
  · rw [known.labels, known.sockets]
    rw [before.labels, before.sockets] at label
    obtain ⟨s', member, got⟩ := label
    exact ⟨s', List.mem_append_left _ member, got⟩

/-- A scrape of one socket with one station -/
def firstScrape : Scrape where
  calls := [⟨.available, .ok [lit "wlan0"]⟩]
  listed := .ok [lit "wlan0"]
  known := []
  turns := [⟨lit "wlan0", [⟨.get (lit "wlan0"), .ok 0⟩,
    ⟨.sendRawCmd 0 (lit "STA-FIRST"), .ok (lit "02:00:00:00:01:00\n")⟩,
    ⟨.sendRawCmd 0 (lit "STA-NEXT 02:00:00:00:01:00"), .ok []⟩],
    .ok [station (lit "wlan0") (lit "02:00:00:00:01:00\n")]⟩]

/-- The next one, when the socket is gone -/
def secondScrape : Scrape where
  calls := [⟨.available, .ok []⟩]
  listed := .ok []
  known := [lit "wlan0"]
  turns := []

theorem firstScrape_step : ScrapeStep (Service.server 1) .new firstScrape
    (firstScrape.turns.foldl Gauge.turn .new) := by
  refine ⟨service_gaugeFree 1, ⟨.call _ (.ret _), ?_, rfl⟩, ⟨none, ?_⟩, ?_⟩
  · rintro v (_ | ⟨_, ⟨⟩⟩)
    exact .call _ (.call _ (.call _ (.ret _)))
  · repeat refine .call _ ?_
    exact .ret _
  · refine .cons trivial (.cons trivial (.cons ⟨List.nodup_nil, rfl⟩ ?_))
    repeat refine .cons trivial ?_
    exact .nil _

theorem gauge_contents_gone : ∃ g g', Scrapes [firstScrape] g ∧
    ScrapeStep (Service.server 1) g secondScrape g' ∧ g'.vec.lookup (lit "wlan0") = some 0 := by
  have second : ScrapeStep (Service.server 1) (firstScrape.turns.foldl Gauge.turn .new) secondScrape
      ((firstScrape.turns.foldl Gauge.turn .new).cleared [lit "wlan0"]) := by
    refine ⟨service_gaugeFree 1, ⟨.call _ (.ret _), by simp [secondScrape], rfl⟩, ⟨none, ?_⟩, ?_⟩
    · repeat refine .call _ ?_
      exact .ret _
    · refine .cons trivial (.cons trivial (.cons ⟨List.nodup_singleton _, rfl⟩ ?_))
      repeat refine .cons trivial ?_
      exact .nil _
  have earlier : Scrapes ([] ++ [firstScrape]) _ := .scrape .none firstScrape_step
  have contents := (gauge_contents earlier second fun names listed => by
    cases listed
    exact List.nodup_nil).1 [] rfl
  refine ⟨_, _, earlier, second, contents.2.2 _ ?_ (by simp [Got, secondScrape])⟩
  refine (contents.1 _).mpr ⟨firstScrape, by simp, _, List.mem_singleton_self _, rfl, _, rfl⟩

end HostapdGrpc.Server
