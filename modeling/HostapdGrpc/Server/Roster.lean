import HostapdGrpc.Go.Lines
import HostapdGrpc.Server.Enumeration

/-!
# Listing stations that stay

Against an access point whose stations stay the same, a listing gives each of them once, in
the order in which the access point has them.
-/

namespace HostapdGrpc.Server

open Go Interaction

/-! ### Stations -/

def isHex (b : UInt8) : Bool := isDigit b || (97 ≤ b && b ≤ 102) || (65 ≤ b && b ≤ 70)

/-- Six bytes in hexadecimal with colons between them -/
def isMac (addr : GoString) : Bool :=
  addr.length == 17 && addr.zipIdx.all fun (b, i) => if i % 3 = 2 then b == 58 else isHex b

/-- A station as the access point describes it: its address on the first line, then its MIB.
The reply fits the buffer of `SendRawCmd`. -/
structure Station where
  addr : GoString
  mib : GoString
  mac : isMac addr = true
  fits : (addr ++ newline :: mib).length ≤ 4096

namespace Station

def text (s : Station) : GoString := s.addr ++ newline :: s.mib

/-- What the service makes of the station -/
def client (sockName : GoString) (s : Station) : Client :=
  { parseCli s.text with addr := s.addr, socketName := sockName }

private theorem mac_byte {addr : GoString} (mac : isMac addr = true) {b : UInt8}
    (member : b ∈ addr) : b = 58 ∨ isHex b = true := by
  simp only [isMac, Bool.and_eq_true, List.all_eq_true] at mac
  obtain ⟨i, at_i⟩ := List.mem_iff_getElem?.mp member
  have checked := mac.2 (b, i) (List.mem_zipIdx_iff_getElem?.mpr (by simpa using at_i))
  simp only at checked
  split at checked
  · exact .inl (by simpa using checked)
  · exact .inr checked

private theorem no_break (s : Station) {b : UInt8} (other : b ≠ 58) (not_hex : isHex b = false) :
    b ∉ s.addr := by
  intro member
  obtain colon | hex := mac_byte s.mac member
  · exact other colon
  · rw [not_hex] at hex
    cases hex

theorem length_addr (s : Station) : s.addr.length = 17 := by
  have mac := s.mac
  simp only [isMac, Bool.and_eq_true, beq_iff_eq] at mac
  exact mac.1

/-- The parser reads the address off the first line. -/
theorem parse_addr (s : Station) : (parseCli s.text).addr = s.addr := by
  have short : s.addr.length < maxScanTokenSize := by
    rw [s.length_addr]
    decide
  have last : s.addr.getLast? ≠ some carriageReturn := fun last =>
    s.no_break (by decide) (by decide) (List.mem_of_getLast? last)
  rw [parseCli_addr, text, scanLines_cons (s.no_break (by decide) (by decide)) short,
    dropCR_of_last last]
  rfl

/-- A station's text is none of the two ends. -/
theorem not_last (s : Station) : isLast s.text = false := by
  have length : 17 < s.text.length := by
    simp only [text, List.length_append, List.length_cons, s.length_addr]
    omega
  have not_empty : s.text ≠ [] := List.ne_nil_of_length_pos (by omega)
  have not_fail : s.text ≠ lit "FAIL\n" := by
    intro fail
    rw [fail] at length
    exact absurd length (by decide)
  simp [isLast, not_empty, not_fail]

theorem station_text (sockName : GoString) (s : Station) :
    station sockName s.text = s.client sockName := by
  unfold station client
  rw [← s.parse_addr]

end Station

/-! ### The access point -/

/-- The reply that goes on with the stations `rest`: the text of the first of them, or an end. -/
def Follows (tok : GoString) : List Station → Prop
  | [] => isLast tok = true
  | s :: _ => tok = s.text

/-- The peer answers the listing commands from `stations`. -/
structure Serves (reply : GoString → GoString) (stations : List Station) : Prop where
  first : Follows (reply (lit "STA-FIRST")) stations
  next : ∀ before s rest, stations = before ++ s :: rest →
    Follows (reply (lit "STA-NEXT " ++ s.addr)) rest

/-- An access point that has `stations` and says `last` after them -/
def accessPoint (last : GoString) (stations : List Station) (cmd : GoString) : GoString :=
  if cmd = lit "STA-FIRST" then
    (stations.head?.map Station.text).getD last
  else
    ((stations.dropWhile fun s => cmd ≠ lit "STA-NEXT " ++ s.addr).tail.head?.map
      Station.text).getD last

theorem follows_getD {last : GoString} (is_last : isLast last = true) (rest : List Station) :
    Follows ((rest.head?.map Station.text).getD last) rest := by
  cases rest with
  | nil => exact is_last
  | cons s rest => rfl

/-- With distinct addresses, it answers from its list. -/
theorem accessPoint_serves {last : GoString} (is_last : isLast last = true)
    {stations : List Station} (distinct : (stations.map Station.addr).Nodup) :
    Serves (accessPoint last stations) stations where
  first := follows_getD is_last stations
  next := by
    rintro before s rest rfl
    -- The stations before `s` have other addresses and are skipped.
    have not_first : lit "STA-NEXT " ++ s.addr ≠ lit "STA-FIRST" := by
      intro same
      exact absurd (congrArg List.length same) (by
        rw [List.length_append, s.length_addr]
        decide)
    have skipped : (before ++ s :: rest).dropWhile
        (fun x => lit "STA-NEXT " ++ s.addr ≠ lit "STA-NEXT " ++ x.addr) = s :: rest := by
      rw [List.dropWhile_append_of_pos, List.dropWhile_cons_of_neg (by simp)]
      intro x member
      have other : x.addr ≠ s.addr := by
        rw [List.map_append, List.map_cons] at distinct
        exact fun same => List.disjoint_of_nodup_append distinct (List.mem_map_of_mem member)
          (same ▸ List.mem_cons_self)
      simpa using fun same : s.addr = x.addr => other same.symm
    unfold accessPoint
    rw [if_neg not_first, skipped]
    exact follows_getD is_last rest

/-! ### The walk -/

variable {reply : GoString → GoString}

/-- The call that asks for the station after `s` -/
def asking (reply : GoString → GoString) (sock : Sock) (s : Station) : Sigma Ans :=
  ⟨.sendRawCmd sock (lit "STA-NEXT " ++ s.addr), .ok (reply (lit "STA-NEXT " ++ s.addr))⟩

theorem commands_asking (sock : Sock) (rest : List Station) :
    commands (rest.map (asking reply sock)) = rest.length := by
  induction rest with
  | nil => rfl
  | cons s rest ih => rw [List.map_cons, asking, commands_cons, ih, List.length_cons]

theorem staLoop_last {tok : GoString} (is_last : isLast tok = true) (sock : Sock)
    (sockName : GoString) (fuel : Nat) (clis : List Client) :
    staLoop sock sockName fuel tok clis = pure (.ok clis) := by
  cases fuel <;> exact if_pos is_last

/-- With `rest` to come, the loop returns exactly if it may take a round for each of them. -/
private theorem staLoop_stations {sock : Sock} {sockName tok : GoString} {fuel : Nat}
    {clis : List Client} {rest : List Station} (follows : Follows tok rest)
    (next : ∀ before s after, rest = before ++ s :: after →
      Follows (reply (lit "STA-NEXT " ++ s.addr)) after)
    {t : List (Sigma Ans)} {res : Except GoError (List Client)} :
    (staLoop sock sockName fuel tok clis).Path t res ∧ Answered reply t ↔
      rest.length ≤ fuel ∧ t = rest.map (asking reply sock) ∧
        res = .ok (clis ++ rest.map (Station.client sockName)) := by
  induction rest generalizing fuel tok clis t with
  | nil =>
    rw [staLoop_last follows]
    simp only [Prog.pure_eq, Prog.path_ret, List.length_nil, Nat.zero_le, true_and, List.map_nil,
      List.append_nil]
    constructor
    · exact And.left
    · rintro ⟨rfl, rfl⟩
      exact ⟨⟨rfl, rfl⟩, by simp [Answered]⟩
  | cons s rest ih =>
    cases follows
    have after := next [] s rest rfl
    have later : ∀ before x after, rest = before ++ x :: after →
        Follows (reply (lit "STA-NEXT " ++ x.addr)) after := fun before x after split =>
      next (s :: before) x after (by rw [split, List.cons_append])
    cases fuel with
    | zero =>
      -- No round is left for `s`.
      unfold staLoop
      rw [if_neg (by simp [s.not_last])]
      simp only [List.length_cons, Nat.le_zero, Nat.add_one_ne_zero, false_and, iff_false]
      rintro ⟨path, _⟩
      obtain ⟨x, _⟩ := (Prog.path_call _ _ _ _).mp path
      exact x.elim
    | succ fuel =>
      unfold staLoop
      rw [if_neg (by simp [s.not_last]), s.station_text]
      constructor
      · rintro ⟨path, answered⟩
        obtain ⟨ans, t', rfl, onward⟩ := (Prog.path_perform_bind _ _ _ _).mp path
        obtain ⟨rfl, others⟩ := answered_cons.mp answered
        obtain ⟨enough, rfl, rfl⟩ := (ih after later).mp ⟨onward, others⟩
        exact ⟨Nat.succ_le_succ enough, rfl, by simp⟩
      · rintro ⟨enough, rfl, rfl⟩
        obtain ⟨onward, others⟩ := (ih after later).mpr
          ⟨Nat.le_of_succ_le_succ enough, rfl, by rw [List.map_cons, List.append_cons]⟩
        exact ⟨(Prog.path_perform_bind _ _ _ _).mpr ⟨_, _, rfl, onward⟩,
          answered_cons.mpr ⟨rfl, others⟩⟩

/-- Every listing gives the stations in order, and takes one command more than there are
stations; it returns if it may take a round for each. -/
theorem listing_stations (stations : List Station) (serves : Serves reply stations)
    (sockName : GoString) (sock : Sock) :
    (∀ fuel t res, Listing reply sockName sock fuel t res →
        res = .ok (stations.map (Station.client sockName)) ∧
          commands t = stations.length + 1) ∧
      ∀ fuel, stations.length ≤ fuel → ∃ t res, Listing reply sockName sock fuel t res := by
  constructor
  · rintro fuel t res ⟨path, answered⟩
    obtain ⟨_, _, calls, opened⟩ := (Prog.path_perform_bind _ _ _ _).mp path
    cases calls
    obtain ⟨ans, t', rfl, onward⟩ := (Prog.path_perform_bind _ _ _ _).mp opened
    obtain ⟨rfl, others⟩ := answered_cons.mp answered
    obtain ⟨_, rfl, rfl⟩ := (staLoop_stations serves.first serves.next).mp ⟨onward, others⟩
    exact ⟨by simp, by rw [commands_cons, commands_asking]⟩
  · intro fuel enough
    have walk : (staLoop sock sockName fuel (reply (lit "STA-FIRST")) []).Path
        (stations.map (asking reply sock)) (.ok (stations.map (Station.client sockName))) ∧
          Answered reply (stations.map (asking reply sock)) :=
      (staLoop_stations serves.first serves.next).mpr ⟨enough, rfl, rfl⟩
    obtain ⟨onward, others⟩ := walk
    refine ⟨⟨.sendRawCmd sock (lit "STA-FIRST"), .ok (reply (lit "STA-FIRST"))⟩ ::
      stations.map (asking reply sock), .ok (stations.map (Station.client sockName)), ?_,
      answered_cons.mpr ⟨rfl, others⟩⟩
    refine (Prog.path_perform_bind _ _ _ _).mpr ⟨.ok sock, _, rfl, ?_⟩
    exact (Prog.path_perform_bind _ _ _ _).mpr ⟨.ok _, _, rfl, onward⟩

/-- Two stations, one of them with nothing but its address -/
def phoneAndPrinter : List Station :=
  [⟨lit "02:00:00:00:01:00", lit "flags=[AUTH]\nrx_bytes=17\n", by decide, by decide⟩,
    ⟨lit "02:00:00:00:0b:0C", [], by decide, by decide⟩]

theorem listing_stations_two :
    Serves (accessPoint (lit "FAIL\n") phoneAndPrinter) phoneAndPrinter ∧
      ∃ t res, Listing (accessPoint (lit "FAIL\n") phoneAndPrinter) (lit "wlan0") 0 2 t res ∧
        res = .ok (phoneAndPrinter.map (Station.client (lit "wlan0"))) ∧ commands t = 3 := by
  have serves : Serves (accessPoint (lit "FAIL\n") phoneAndPrinter) phoneAndPrinter :=
    accessPoint_serves (by decide) (by decide)
  obtain ⟨given, returns⟩ := listing_stations phoneAndPrinter serves (lit "wlan0") 0
  obtain ⟨t, res, listing⟩ := returns 2 (by decide)
  exact ⟨serves, t, res, listing, given 2 t res listing⟩

end HostapdGrpc.Server
