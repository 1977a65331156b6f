import HostapdGrpc.Server.Service
import HostapdGrpc.Interaction.Walk

/-!
# Listing the stations of a socket

Each reply names the station that the next command asks after, so a listing walks through
the addresses as the peer leads it. The service keeps no record of where it has been.
-/

namespace HostapdGrpc.Server

open Go Interaction

variable (reply : GoString → GoString)

/-- The address in a reply to a listing command; `none` if the reply is the last. -/
def addr? (tok : GoString) : Option GoString :=
  if isLast tok then none else some (parseCli tok).addr

/-- The station after `addr` -/
def staNext (addr : GoString) : Option GoString := addr? (reply (lit "STA-NEXT " ++ addr))

def staFirst : Option GoString := addr? (reply (lit "STA-FIRST"))

/-- The first lines of the peer's replies -/
def firstLines : Set GoString := Set.range fun cmd => (scanLines (reply cmd)).headD []

/-- Every command of `t` is answered by the peer. -/
def Answered (t : List (Sigma Ans)) : Prop :=
  ∀ e ∈ t, ∀ sock cmd ans, e = ⟨.sendRawCmd sock cmd, ans⟩ → ans = .ok (reply cmd)

/-- With `sock` got, the listing makes the calls `t` to the peer and returns. -/
structure Listing (sockName : GoString) (sock : Sock) (fuel : Nat) (t : List (Sigma Ans))
    (res : Except GoError (List Client)) : Prop where
  path : (listClientsOnSock fuel sockName).Path (⟨.get sockName, .ok sock⟩ :: t) res
  answered : Answered reply t

def Op.isCommand : Op → Bool
  | .sendRawCmd _ _ => true
  | _ => false

/-- The commands sent in `t` -/
def commands (t : List (Sigma Ans)) : Nat := t.countP fun e => e.1.isCommand

variable {reply}

@[simp] theorem commands_cons (sock : Sock) (cmd : GoString)
    (ans : Except GoError GoString) (t : List (Sigma Ans)) :
    commands (⟨.sendRawCmd sock cmd, ans⟩ :: t) = commands t + 1 :=
  List.countP_cons_of_pos rfl

theorem answered_cons {sock : Sock} {cmd : GoString} {ans : Except GoError GoString}
    {t : List (Sigma Ans)} :
    Answered reply (⟨.sendRawCmd sock cmd, ans⟩ :: t) ↔
      ans = .ok (reply cmd) ∧ Answered reply t := by
  unfold Answered
  simp only [List.forall_mem_cons]
  constructor
  · rintro ⟨here, rest⟩
    exact ⟨here sock cmd ans rfl, rest⟩
  · rintro ⟨rfl, rest⟩
    refine ⟨?_, rest⟩
    rintro _ _ _ ⟨⟩
    rfl

/-! ### The loop -/

/-- A loop that returns has gone through the walk to its end, by one command a station. -/
private theorem staLoop_walk {sock : Sock} {sockName tok : GoString} {fuel : Nat}
    {clis : List Client} {t : List (Sigma Ans)} {res : Except GoError (List Client)}
    (path : (staLoop sock sockName fuel tok clis).Path t res) (answered : Answered reply t) :
    visit (staNext reply) (addr? tok) (commands t) = none ∧
      ∀ m < commands t, visit (staNext reply) (addr? tok) m ≠ none := by
  induction fuel generalizing tok clis t with
  | zero =>
    unfold staLoop at path
    split at path
    · next last =>
      obtain ⟨rfl, _⟩ := (Prog.path_ret _ _ _).mp path
      simp [commands, addr?, last]
    · obtain ⟨x, _⟩ := (Prog.path_call _ _ _ _).mp path
      exact x.elim
  | succ fuel ih =>
    unfold staLoop at path
    split at path
    · next last =>
      obtain ⟨rfl, _⟩ := (Prog.path_ret _ _ _).mp path
      simp [commands, addr?, last]
    -- One more command: the walk from the next reply is the walk after its first step.
    · next more =>
      obtain ⟨ans, rest, rfl, onward⟩ := (Prog.path_perform_bind _ _ _ _).mp path
      obtain ⟨rfl, others⟩ := answered_cons.mp answered
      obtain ⟨ended, going⟩ := ih onward others
      have start : addr? tok = some (parseCli tok).addr := if_neg more
      have step : visit (staNext reply) (addr? tok) (commands rest + 1) = none := by
        rw [visit_succ, start]
        exact ended
      refine ⟨by simpa only [commands_cons] using step, ?_⟩
      intro m lt
      cases m with
      | zero => simp [start]
      | succ m =>
        rw [visit_succ, start]
        exact going m (by simpa using lt)

/-- A walk that ends is gone through with as much fuel as it has stations. -/
private theorem staLoop_returns (sock : Sock) (sockName : GoString) {tok : GoString} {n : Nat}
    (clis : List Client) (ended : visit (staNext reply) (addr? tok) n = none) :
    ∃ t res, (staLoop sock sockName n tok clis).Path t res ∧ Answered reply t := by
  induction n generalizing tok clis with
  | zero =>
    have last : isLast tok = true := by
      by_contra more
      simp [addr?, more] at ended
    unfold staLoop
    rw [if_pos last]
    exact ⟨[], _, .ret _, by simp [Answered]⟩
  | succ n ih =>
    unfold staLoop
    split
    · exact ⟨[], _, .ret _, by simp [Answered]⟩
    · next more =>
      have start : addr? tok = some (parseCli tok).addr := if_neg more
      rw [visit_succ, start] at ended
      obtain ⟨t, res, path, answered⟩ := ih (clis ++ [station sockName tok]) ended
      exact ⟨_, res, (Prog.path_perform_bind _ _ _ _).mpr ⟨.ok _, t, rfl, path⟩,
        answered_cons.mpr ⟨rfl, answered⟩⟩

/-! ### The listing -/

private theorem listing_walk {sockName : GoString} {sock : Sock} {fuel : Nat}
    {t : List (Sigma Ans)} {res : Except GoError (List Client)}
    (listing : Listing reply sockName sock fuel t res) :
    ∃ n, commands t = n + 1 ∧ visit (staNext reply) (staFirst reply) n = none ∧
      ∀ m < n, visit (staNext reply) (staFirst reply) m ≠ none := by
  obtain ⟨_, _, calls, path⟩ := (Prog.path_perform_bind _ _ _ _).mp listing.path
  cases calls
  obtain ⟨ans, rest, rfl, onward⟩ := (Prog.path_perform_bind _ _ _ _).mp path
  obtain ⟨rfl, others⟩ := answered_cons.mp listing.answered
  obtain ⟨ended, going⟩ := staLoop_walk onward others
  exact ⟨commands rest, commands_cons _ _ _ _, ended, going⟩

private theorem listing_of_walk (sockName : GoString) (sock : Sock) {n : Nat}
    (ended : visit (staNext reply) (staFirst reply) n = none) :
    ∃ t res, Listing reply sockName sock n t res := by
  obtain ⟨t, res, path, answered⟩ := staLoop_returns sock sockName [] ended
  refine ⟨⟨.sendRawCmd sock (lit "STA-FIRST"), .ok (reply (lit "STA-FIRST"))⟩ :: t, res, ?_,
    answered_cons.mpr ⟨rfl, answered⟩⟩
  refine (Prog.path_perform_bind _ _ _ _).mpr ⟨.ok sock, _, rfl, ?_⟩
  exact (Prog.path_perform_bind _ _ _ _).mpr ⟨.ok _, t, rfl, path⟩

theorem listing_iff_walk (sockName : GoString) (sock : Sock) :
    (∃ fuel t res, Listing reply sockName sock fuel t res) ↔
      ∃ n, visit (staNext reply) (staFirst reply) n = none := by
  constructor
  · rintro ⟨fuel, t, res, listing⟩
    obtain ⟨n, _, ended, _⟩ := listing_walk listing
    exact ⟨n, ended⟩
  · rintro ⟨n, ended⟩
    exact ⟨n, listing_of_walk sockName sock ended⟩

private theorem addr?_mem {cmd addr : GoString} (from_reply : addr? (reply cmd) = some addr) :
    addr ∈ firstLines reply := by
  unfold addr? at from_reply
  split at from_reply
  · cases from_reply
  · cases from_reply
    exact ⟨cmd, (parseCli_addr (reply cmd)).symm⟩

/-- A listing comes to addresses that the peer sent. -/
theorem visit_mem_firstLines (n : Nat) (addr : GoString)
    (at_addr : visit (staNext reply) (staFirst reply) n = some addr) :
    addr ∈ firstLines reply := by
  cases n with
  | zero => exact addr?_mem at_addr
  | succ n =>
    rw [Nat.add_comm, visit_add] at at_addr
    obtain ⟨before, _, next⟩ := Option.bind_eq_some_iff.mp at_addr
    exact addr?_mem next

theorem firstLines_finite (finite : (Set.range reply).Finite) : (firstLines reply).Finite := by
  have image : firstLines reply = (fun tok => (scanLines tok).headD []) '' Set.range reply :=
    Set.range_comp (fun tok => (scanLines tok).headD []) reply
  rw [image]
  exact finite.image _

/-- The listing ends exactly if it never comes to an address again. It has then sent at most
one command more than there are addresses. -/
theorem listing_ends_iff (reply : GoString → GoString) (finite : (Set.range reply).Finite)
    (sockName : GoString) (sock : Sock) :
    ((∃ fuel t res, Listing reply sockName sock fuel t res) ↔
        ¬ Returns (staNext reply) (staFirst reply)) ∧
      ∀ fuel t res, Listing reply sockName sock fuel t res →
        commands t ≤ (firstLines reply).ncard + 1 := by
  have addresses := firstLines_finite finite
  constructor
  · rw [listing_iff_walk]
    exact ends_iff addresses visit_mem_firstLines
  · intro fuel t res listing
    obtain ⟨n, sent, ended, going⟩ := listing_walk listing
    have fresh : ¬ Returns (staNext reply) (staFirst reply) := fun again =>
      again.never_ends n ended
    have le := le_ncard_of_not_returns addresses visit_mem_firstLines fresh going
    omega

/-- An access point with two stations -/
def twoStations (cmd : GoString) : GoString :=
  if cmd = lit "STA-FIRST" then lit "02:00:00:00:01:00\nflags=[AUTH]\n"
  else if cmd = lit "STA-NEXT 02:00:00:00:01:00" then lit "02:00:00:00:02:00\nrx_packets=7\n"
  else lit "FAIL\n"

theorem listing_ends_two_stations :
    (Set.range twoStations).Finite ∧
      ∃ fuel t res, Listing twoStations (lit "wlan0") 0 fuel t res := by
  have finite : (Set.range twoStations).Finite := by
    refine Set.Finite.subset (Set.toFinite {lit "02:00:00:00:01:00\nflags=[AUTH]\n",
      lit "02:00:00:00:02:00\nrx_packets=7\n", lit "FAIL\n"}) ?_
    rintro _ ⟨cmd, rfl⟩
    unfold twoStations
    split_ifs <;> simp
  have ended : visit (staNext twoStations) (staFirst twoStations) 2 = none := by
    decide +kernel
  refine ⟨finite, (listing_ends_iff twoStations finite _ 0).1.mpr fun again => ?_⟩
  exact again.never_ends 2 ended

/-- A peer that knows none of the commands says so each time, and its text counts as a
station. -/
theorem listing_endless :
    (Set.range fun _ : GoString => lit "UNKNOWN COMMAND\n").Finite ∧
      ∀ fuel t res, ¬ Listing (fun _ => lit "UNKNOWN COMMAND\n") (lit "wlan0") 0 fuel t res := by
  refine ⟨Set.finite_range_const, ?_⟩
  intro fuel t res listing
  obtain ⟨n, _, ended, _⟩ := listing_walk listing
  have again : Returns (staNext fun _ => lit "UNKNOWN COMMAND\n")
      (staFirst fun _ => lit "UNKNOWN COMMAND\n") :=
    ⟨0, 1, lit "UNKNOWN COMMAND", Nat.zero_lt_one, by decide +kernel, by decide +kernel⟩
  exact again.never_ends n ended

end HostapdGrpc.Server
