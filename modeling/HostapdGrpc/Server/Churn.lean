import HostapdGrpc.Interaction.Cursor
import HostapdGrpc.Server.Roster

/-!
# Listing stations that come and go

A listing goes on from the station it saw last, wherever that stands by then. While none
leaves between the reply that names it and the command after it, what is associated all
along is listed once. The list ends where the station is gone, as at a last one.
-/

namespace HostapdGrpc.Server

open Go Interaction

/-- A station associates, at a place in the list, or leaves, or a command is answered. -/
inductive Event where
  | join (i : Nat) (addr : GoString)
  | leave (addr : GoString)
  | command (cmd reply : GoString)
  deriving DecidableEq

/-- A station is described by its address and any MIB, no station by an empty reply. -/
def Describes (addr : Option GoString) (reply : GoString) : Prop :=
  match addr with
  | none => reply = []
  | some addr => ∃ s : Station, s.addr = addr ∧ reply = s.text

/-- What hostapd replies while it has the stations `stations` -/
structure Replies (stations : List GoString) (cmd reply : GoString) : Prop where
  first : cmd = lit "STA-FIRST" → Describes stations.head? reply
  next : ∀ addr ∈ stations, cmd = lit "STA-NEXT " ++ addr →
    Describes (stations.dropWhile (· ≠ addr)).tail.head? reply
  gone : ∀ addr ∉ stations, cmd = lit "STA-NEXT " ++ addr → reply = lit "FAIL\n"

namespace Event

def after (e : Event) (stations : List GoString) : List GoString :=
  match e with
  | join i addr => stations.insertIdx i addr
  | leave addr => stations.erase addr
  | command _ _ => stations

def Possible (e : Event) (stations : List GoString) : Prop :=
  match e with
  | join i addr => i ≤ stations.length ∧ addr ∉ stations
  | leave addr => addr ∈ stations
  | command cmd reply => Replies stations cmd reply

/-- The station that the last reply names -/
def cursor (e : Event) (before : Option GoString) : Option GoString :=
  match e with
  | command _ reply => addr? reply
  | _ => before

def call (sock : Sock) (e : Event) : Option (Sigma Ans) :=
  match e with
  | command cmd reply => some ⟨.sendRawCmd sock cmd, .ok reply⟩
  | _ => none

theorem after_nodup {e : Event} {stations : List GoString} (possible : e.Possible stations)
    (distinct : stations.Nodup) : (e.after stations).Nodup := by
  cases e with
  | join i addr =>
    exact (List.perm_insertIdx addr stations possible.1).nodup_iff.mpr
      (List.nodup_cons.mpr ⟨possible.2, distinct⟩)
  | leave addr => exact distinct.erase addr
  | command cmd reply => exact distinct

/-- What does not leave stays. -/
theorem mem_after {e : Event} {stations : List GoString} {addr : GoString}
    (member : addr ∈ stations) (stays : e ≠ .leave addr) : addr ∈ e.after stations := by
  cases e with
  | join i other => exact (List.sublist_insertIdx stations i other).subset member
  | leave other =>
    exact (List.mem_erase_of_ne fun same => stays (congrArg leave same.symm)).mpr member
  | command cmd reply => exact member

end Event

/-! ### Runs of events -/

/-- Each event can happen where it does. -/
def AllPossible (stations : List GoString) (es : List Event) : Prop :=
  match es with
  | [] => True
  | e :: es => e.Possible stations ∧ AllPossible (e.after stations) es

/-- No event of the kind `bad` happens to the station that the last reply names. -/
def Never (bad : GoString → Event → Prop) (cursor : Option GoString) (es : List Event) : Prop :=
  match es with
  | [] => True
  | e :: es => (∀ addr ∈ cursor, ¬ bad addr e) ∧ Never bad (e.cursor cursor) es

def Leaves (addr : GoString) (e : Event) : Prop := e = .leave addr

def Rejoins (addr : GoString) (e : Event) : Prop := ∃ i, e = .join i addr

/-- The calls among the events -/
def calls (sock : Sock) (es : List Event) : List (Sigma Ans) := es.filterMap (Event.call sock)

/-- A station that is associated from the first event to the last -/
structure Stays (stations : List GoString) (es : List Event) (addr : GoString) : Prop where
  member : addr ∈ stations
  never_leaves : Event.leave addr ∉ es

theorem Stays.after {stations : List GoString} {e : Event} {es : List Event} {addr : GoString}
    (stays : Stays stations (e :: es) addr) : Stays (e.after stations) es addr where
  member := Event.mem_after stays.member fun same => stays.never_leaves (same ▸ List.mem_cons_self)
  never_leaves leaves := stays.never_leaves (List.mem_cons_of_mem e leaves)

/-- How often an address is listed -/
def listed (clis : List Client) (addr : GoString) : Nat := (clis.map Client.addr).count addr

/-! ### The walk -/

section
variable {stations : List GoString} {es : List Event} {kept : GoString → Prop} {addr : GoString}

/-- Where the walk is with the addresses `seen`: at `addr`, or `addr` has left for good, and
nothing was seen twice. -/
inductive Walk (kept : GoString → Prop) (seen stations : List GoString) (addr : GoString)
    (es : List Event) : Prop where
  | abreast (there : Abreast kept seen stations addr)
  | gone (absent : addr ∉ stations) (once : ∀ a, kept a → seen.count a ≤ 1)
      (away : Never Rejoins (some addr) es)

/-- The step lemma: what happens between two commands leaves the walk where it is. -/
private theorem walk_after {seen : List GoString} {e : Event}
    (walk : Walk kept seen stations addr (e :: es)) (no_command : ∀ b, e.cursor b = b)
    (possible : e.Possible stations) (distinct : stations.Nodup)
    (stays : ∀ a, kept a → Stays stations (e :: es) a)
    (quiet : Never Leaves (some addr) (e :: es) ∨ Never Rejoins (some addr) (e :: es)) :
    Walk kept seen (e.after stations) addr es := by
  have after_distinct := Event.after_nodup possible distinct
  have old : ∀ a, kept a → a ∈ stations := fun a is_kept => (stays a is_kept).member
  cases e with
  | join i other =>
    have longer := List.sublist_insertIdx stations i other
    cases walk with
    | abreast there => exact .abreast (there.insert longer after_distinct old)
    | gone absent once away =>
      refine .gone ?_ once away.2
      intro member
      obtain rfl | member := List.eq_or_mem_of_mem_insertIdx member
      · exact away.1 addr rfl ⟨i, rfl⟩
      · exact absent member
  | leave other =>
    have shorter := List.erase_sublist (a := other) (l := stations)
    cases walk with
    | abreast there =>
      by_cases same : other = addr
      -- The cursor leaves: from here on it must not come back.
      · subst same
        refine .gone (distinct.not_mem_erase) (there.once old) ?_
        obtain never | never := quiet
        · exact absurd rfl (never.1 other rfl)
        · exact never.2
      · refine .abreast (there.remove shorter distinct ?_)
        exact (List.mem_erase_of_ne (Ne.symm same)).mpr there.cursor_mem
    | gone absent once away =>
      exact .gone (fun member => absent (shorter.subset member)) once away.2
  | command cmd reply => cases (no_command none).symm.trans (no_command (some addr))

private theorem staNext_ne_first (addr : GoString) : lit "STA-NEXT " ++ addr ≠ lit "STA-FIRST" := by
  intro same
  have start := congrArg (List.take 5) same
  rw [List.take_append_of_le_length (by decide)] at start
  exact absurd start (by decide)

namespace Replies
variable {reply : GoString}

theorem of_first (described : Describes stations.head? reply) :
    Replies stations (lit "STA-FIRST") reply where
  first _ := described
  next addr _ same := absurd same.symm (staNext_ne_first addr)
  gone addr _ same := absurd same.symm (staNext_ne_first addr)

theorem of_next (member : addr ∈ stations)
    (described : Describes (stations.dropWhile (· ≠ addr)).tail.head? reply) :
    Replies stations (lit "STA-NEXT " ++ addr) reply where
  first same := absurd same (staNext_ne_first addr)
  next other _ same := by
    obtain rfl := List.append_cancel_left same
    exact described
  gone other absent same := by
    obtain rfl := List.append_cancel_left same
    exact absurd member absent

theorem of_gone (absent : addr ∉ stations) :
    Replies stations (lit "STA-NEXT " ++ addr) (lit "FAIL\n") where
  first same := absurd same (staNext_ne_first addr)
  next other member same := by
    obtain rfl := List.append_cancel_left same
    exact absurd member absent
  gone _ _ _ := rfl

/-- The reply to the command after the station of the cursor -/
private theorem behind {before after : List GoString} {cmd reply : GoString}
    (replies : Replies (before ++ addr :: after) cmd reply)
    (distinct : (before ++ addr :: after).Nodup) (asked : cmd = lit "STA-NEXT " ++ addr) :
    Describes after.head? reply := by
  have described := replies.next addr (by simp) asked
  have apart := List.nodup_append.mp distinct
  rw [List.dropWhile_append_of_pos, List.dropWhile_cons_of_neg (by simp)] at described
  · exact described
  · intro a early
    simpa using apart.2.2 a early addr List.mem_cons_self

end Replies

@[simp] private theorem Station.client_addr (sockName : GoString) (s : Station) :
    (s.client sockName).addr = s.addr := rfl

private theorem Station.addr?_text (s : Station) : addr? s.text = some s.addr := by
  unfold addr?
  rw [if_neg (by simp [s.not_last]), s.parse_addr]

/-- At a station, the loop sends one command before it returns. -/
private theorem staLoop_round {sock : Sock} {sockName : GoString} {fuel : Nat} {s : Station}
    {clis res : List Client} {t : List (Sigma Ans)} :
    (staLoop sock sockName fuel s.text clis).Path t (.ok res) ↔ ∃ fuel' reply t',
      fuel = fuel' + 1 ∧ t = ⟨.sendRawCmd sock (lit "STA-NEXT " ++ s.addr), .ok reply⟩ :: t' ∧
        (staLoop sock sockName fuel' reply (clis ++ [s.client sockName])).Path t' (.ok res) := by
  constructor
  · intro path
    cases fuel with
    | zero =>
      unfold staLoop at path
      rw [if_neg (by simp [s.not_last])] at path
      obtain ⟨x, _⟩ := (Prog.path_call _ _ _ _).mp path
      exact x.elim
    | succ fuel =>
      unfold staLoop at path
      rw [if_neg (by simp [s.not_last]), s.station_text] at path
      obtain ⟨ans, t', rfl, onward⟩ := (Prog.path_perform_bind _ _ _ _).mp path
      cases ans with
      | error err => cases onward
      | ok reply => exact ⟨fuel, reply, t', rfl, rfl, onward⟩
  · rintro ⟨fuel, reply, t', rfl, rfl, onward⟩
    unfold staLoop
    rw [if_neg (by simp [s.not_last]), s.station_text]
    exact (Prog.path_perform_bind _ _ _ _).mpr ⟨.ok reply, t', rfl, onward⟩

/-- From a station of the list, the loop returns with every kept station listed once, if no
station leaves the walk, and not twice, if none comes back to it. -/
private theorem staLoop_walk_kept {sock : Sock} {sockName : GoString} {fuel : Nat} (s : Station)
    {clis res : List Client}
    (path : (staLoop sock sockName fuel s.text clis).Path (calls sock es) (.ok res))
    (possible : AllPossible stations es) (distinct : stations.Nodup)
    (stays : ∀ a, kept a → Stays stations es a)
    (walk : Walk kept (clis.map Client.addr ++ [s.addr]) stations s.addr es)
    (quiet : Never Leaves (some s.addr) es ∨ Never Rejoins (some s.addr) es) :
    (∀ a, kept a → listed res a ≤ 1) ∧
      (Never Leaves (some s.addr) es → s.addr ∈ stations → ∀ a, kept a → listed res a = 1) := by
  induction es generalizing stations fuel s clis with
  | nil =>
    obtain ⟨_, _, _, _, none, _⟩ := staLoop_round.mp path
    cases none
  | cons e es ih =>
    obtain ⟨here, rest⟩ := possible
    have later : ∀ a, kept a → Stays (e.after stations) es a := fun a is_kept =>
      (stays a is_kept).after
    have distinct' := Event.after_nodup here distinct
    cases e with
    | join i other =>
      have onward := walk_after walk (fun _ => rfl) here distinct stays quiet
      obtain ⟨once, all⟩ := ih s path rest distinct' later onward
        (quiet.imp (fun never => never.2) fun never => never.2)
      refine ⟨once, fun never member => all never.2 ?_⟩
      exact (List.sublist_insertIdx stations i other).subset member
    | leave other =>
      have onward := walk_after walk (fun _ => rfl) here distinct stays quiet
      obtain ⟨once, all⟩ := ih s path rest distinct' later onward
        (quiet.imp (fun never => never.2) fun never => never.2)
      refine ⟨once, fun never member => all never.2 ?_⟩
      exact (List.mem_erase_of_ne fun same =>
        never.1 s.addr rfl (congrArg Event.leave same.symm)).mpr member
    | command cmd reply =>
      obtain ⟨fuel', _, _, rfl, same, onward⟩ := staLoop_round.mp path
      cases same
      cases walk with
      | gone absent once away =>
        have fail := here.gone s.addr absent rfl
        rw [staLoop_last (by rw [fail]; decide)] at onward
        obtain ⟨_, ⟨⟩⟩ := (Prog.path_ret _ _ _).mp onward
        exact ⟨by simpa [listed] using once, fun _ member => absurd member absent⟩
      | abreast there =>
        obtain ⟨before, after, rfl, _⟩ := id there
        have described := here.behind distinct rfl
        cases after with
        | nil =>
          rw [staLoop_last (by rw [described]; decide)] at onward
          obtain ⟨_, ⟨⟩⟩ := (Prog.path_ret _ _ _).mp onward
          have all := there.complete distinct fun a is_kept => (stays a is_kept).member
          refine ⟨fun a is_kept => ?_, fun _ _ a is_kept => ?_⟩
          · simpa [listed] using Nat.le_of_eq (all a is_kept)
          · simpa [listed] using all a is_kept
        | cons d behind =>
          obtain ⟨s', rfl, rfl⟩ := described
          have cursor : (Event.command (lit "STA-NEXT " ++ s.addr) s'.text).cursor (some s.addr) =
              some s'.addr := s'.addr?_text
          have quiet' := quiet.imp (fun never => never.2) fun never => never.2
          rw [cursor] at quiet'
          have next : Abreast kept ((clis ++ [s.client sockName]).map Client.addr ++ [s'.addr])
              (before ++ s.addr :: s'.addr :: behind) s'.addr := by
            simpa using there.advance distinct
          obtain ⟨once, all⟩ := ih s' onward rest distinct later (.abreast next) quiet'
          refine ⟨once, fun never _ => all ?_ next.cursor_mem⟩
          have never' := never.2
          rwa [cursor] at never'

/-- The same from the start of the call, before its first command -/
private theorem listing_kept {sockName : GoString} {sock : Sock} {fuel : Nat} {res : List Client}
    (path : (listClientsOnSock fuel sockName).Path (⟨.get sockName, .ok sock⟩ :: calls sock es)
      (.ok res))
    (possible : AllPossible stations es) (distinct : stations.Nodup)
    (stays : ∀ a, kept a → Stays stations es a)
    (quiet : Never Leaves none es ∨ Never Rejoins none es) :
    (∀ a, kept a → listed res a ≤ 1) ∧
      (Never Leaves none es → ∀ a, kept a → listed res a = 1) := by
  induction es generalizing stations with
  | nil =>
    obtain ⟨_, _, get, opened⟩ := (Prog.path_perform_bind _ _ _ _).mp path
    cases get
    obtain ⟨_, _, none, _⟩ := (Prog.path_perform_bind _ _ _ _).mp opened
    cases none
  | cons e es ih =>
    obtain ⟨here, rest⟩ := possible
    have later : ∀ a, kept a → Stays (e.after stations) es a := fun a is_kept =>
      (stays a is_kept).after
    have distinct' := Event.after_nodup here distinct
    have quiet' := quiet.imp (fun never => never.2) fun never => never.2
    cases e with
    | join i other =>
      obtain ⟨once, all⟩ := ih path rest distinct' later quiet'
      exact ⟨once, fun never => all never.2⟩
    | leave other =>
      obtain ⟨once, all⟩ := ih path rest distinct' later quiet'
      exact ⟨once, fun never => all never.2⟩
    | command cmd reply =>
      obtain ⟨_, _, get, opened⟩ := (Prog.path_perform_bind _ _ _ _).mp path
      cases get
      obtain ⟨_, _, same, onward⟩ := (Prog.path_perform_bind _ _ _ _).mp opened
      cases same
      have described := here.first rfl
      cases stations with
      | nil =>
        -- Nothing is associated, so nothing stays.
        have nothing : ∀ a, ¬ kept a := fun a is_kept => by cases (stays a is_kept).member
        exact ⟨fun a is_kept => absurd is_kept (nothing a),
          fun _ a is_kept => absurd is_kept (nothing a)⟩
      | cons d behind =>
        obtain ⟨s, rfl, rfl⟩ := described
        have cursor : (Event.command (lit "STA-FIRST") s.text).cursor none = some s.addr :=
          s.addr?_text
        rw [cursor] at quiet'
        obtain ⟨once, all⟩ := staLoop_walk_kept s onward rest distinct later
          (.abreast (Abreast.first behind distinct)) quiet'
        refine ⟨once, fun never => all ?_ List.mem_cons_self⟩
        have never' := never.2
        rwa [cursor] at never'

end

/-! ### The listing -/

/-- Every station that stays is listed, and once. -/
def Complete (stations : List GoString) (es : List Event) (clis : List Client) : Prop :=
  ∀ addr, Stays stations es addr → listed clis addr = 1

/-- A listing between whose commands stations come and go is complete, if no station leaves
between the reply that names it and the next command. No station that stays is listed twice,
if none that has left there has come back by the next command. -/
theorem listing_churn {stations : List GoString} (distinct : stations.Nodup) {es : List Event}
    (possible : AllPossible stations es) {sockName : GoString} {sock : Sock} {fuel : Nat}
    {clis : List Client}
    (path : (listClientsOnSock fuel sockName).Path (⟨.get sockName, .ok sock⟩ :: calls sock es)
      (.ok clis)) :
    (Never Leaves none es → Complete stations es clis) ∧
      (Never Rejoins none es → ∀ addr, Stays stations es addr → listed clis addr ≤ 1) := by
  constructor
  · intro never
    exact (listing_kept path possible distinct (fun _ stays => stays) (.inl never)).2 never
  · intro never
    exact (listing_kept path possible distinct (fun _ stays => stays) (.inr never)).1

private theorem phone_fits :
    (lit "02:00:00:00:01:00" ++ newline :: lit "flags=[AUTH]\n").length ≤ 4096 := by decide

private theorem printer_fits : (lit "02:00:00:00:0b:0C" ++ [newline]).length ≤ 4096 := by decide

def phone : Station := ⟨lit "02:00:00:00:01:00", lit "flags=[AUTH]\n", rfl, phone_fits⟩

def printer : Station := ⟨lit "02:00:00:00:0b:0C", [], rfl, printer_fits⟩

/-- A third station associates while the first one is described, and the first one leaves
while the second one is. -/
def passing : List Event :=
  [.command (lit "STA-FIRST") phone.text, .join 0 (lit "02:00:00:00:02:00"),
    .command (lit "STA-NEXT " ++ phone.addr) printer.text, .leave phone.addr,
    .command (lit "STA-NEXT " ++ printer.addr) []]

theorem listing_churn_passing :
    Stays [phone.addr, printer.addr] passing printer.addr ∧
      ∃ clis, (listClientsOnSock 2 (lit "wlan0")).Path (⟨.get (lit "wlan0"), .ok 0⟩ ::
        calls 0 passing) (.ok clis) ∧ listed clis printer.addr = 1 := by
  have stays : Stays [phone.addr, printer.addr] passing printer.addr :=
    ⟨by decide, by decide⟩
  have possible : AllPossible [phone.addr, printer.addr] passing :=
    ⟨.of_first ⟨phone, rfl, rfl⟩, ⟨by decide, by decide⟩,
      .of_next (by decide) ⟨printer, by decide, rfl⟩, by simp [Event.Possible, Event.after],
      .of_next (by decide) rfl, trivial⟩
  have path : (listClientsOnSock 2 (lit "wlan0")).Path (⟨.get (lit "wlan0"), .ok 0⟩ ::
      calls 0 passing) (.ok [phone.client (lit "wlan0"), printer.client (lit "wlan0")]) := by
    refine .call _ (.call _ ?_)
    refine staLoop_round.mpr ⟨1, _, _, rfl, rfl, ?_⟩
    refine staLoop_round.mpr ⟨0, _, _, rfl, rfl, ?_⟩
    exact .ret _
  have never : Never Leaves none passing := by
    have other : phone.addr ≠ printer.addr := by decide
    simp [Never, passing, Leaves, Event.cursor, Station.addr?_text, other]
  exact ⟨stays, _, path, (listing_churn (by decide) possible path).1 never _ stays⟩

/-- The first station leaves while it is described, and the list ends before the second. -/
theorem listing_churn_cut_short :
    ∃ es clis, [phone.addr, printer.addr].Nodup ∧ AllPossible [phone.addr, printer.addr] es ∧
      (listClientsOnSock 1 (lit "wlan0")).Path (⟨.get (lit "wlan0"), .ok 0⟩ :: calls 0 es)
        (.ok clis) ∧ Stays [phone.addr, printer.addr] es printer.addr ∧
      listed clis printer.addr = 0 ∧ ¬ Complete [phone.addr, printer.addr] es clis := by
  have stays : Stays [phone.addr, printer.addr] [.command (lit "STA-FIRST") phone.text,
      .leave phone.addr, .command (lit "STA-NEXT " ++ phone.addr) (lit "FAIL\n")] printer.addr :=
    ⟨by decide, by decide⟩
  refine ⟨_, [phone.client (lit "wlan0")], by decide, ?_, ?_, stays, by decide, ?_⟩
  · exact ⟨.of_first ⟨phone, rfl, rfl⟩, by simp [Event.Possible, Event.after],
      .of_gone (by decide), trivial⟩
  · refine .call _ (.call _ (staLoop_round.mpr ⟨0, _, _, rfl, rfl, ?_⟩))
    exact .ret _
  · intro complete
    exact absurd (complete _ stays) (by decide)

end HostapdGrpc.Server
