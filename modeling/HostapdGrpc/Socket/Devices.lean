import HostapdGrpc.Socket.Manager
import HostapdGrpc.Go.Elements

/-!
# The device of a name

The name a `Get` asks for is the key under which its connection is kept, and an element of the
path that is opened. The path is cleaned, the key is not.
-/

namespace HostapdGrpc.Socket

open Go Interaction

/-! ### What is opened -/

/-- Nothing but `device` is opened. -/
def Op.Within (device clientDir : GoString) : Op → Prop
  | .openSock d c => d = device ∧ c = clientDir
  | _ => True

section
variable {α : Type} {device clientDir : GoString}

/-- The program opens at most `device`. -/
private abbrev Stays (device clientDir : GoString) (p : Act α) : Prop :=
  p.Only (Op.Within device clientDir)

private theorem stays_act {op : Op} {f : Ans op → Act α} (here : op.Within device clientDir)
    (rest : ∀ x, Stays device clientDir (f x)) : Stays device clientDir (act op >>= f) :=
  .call here rest

private theorem stays_panic : Stays device clientDir (panic : Act α) :=
  .call trivial fun x => x.elim

variable (sh : Ptr)

private theorem stays_testClosed : Stays device clientDir (SharedSocket.testClosed sh) := by
  unfold SharedSocket.testClosed
  refine stays_act trivial fun cached => ?_
  cases cached with
  | true => exact .ret _
  | false => exact stays_act trivial fun _ => .ret _

private theorem stays_inc : Stays device clientDir (SharedSocket.inc sh) := by
  unfold SharedSocket.inc
  refine stays_act trivial fun _ => (stays_testClosed sh).bind fun closed => ?_
  cases closed with
  | true => exact stays_act trivial fun _ => .ret _
  | false => exact stays_act trivial fun _ => stays_act trivial fun _ => .ret _

private theorem stays_cache : Stays device clientDir (SharedSocket.cache sh) := by
  unfold SharedSocket.cache
  refine stays_act trivial fun _ => (stays_testClosed sh).bind fun closed => ?_
  cases closed with
  | true => exact stays_act trivial fun _ => .ret _
  | false => exact stays_act trivial fun _ => stays_act trivial fun _ => .ret _

private theorem stays_isOpen : Stays device clientDir (SharedSocket.isOpen sh) := by
  unfold SharedSocket.isOpen
  refine stays_act trivial fun _ => (stays_testClosed sh).bind fun _ => ?_
  exact stays_act trivial fun _ => .ret _

private theorem stays_closeUnderlying :
    Stays device clientDir (SharedSocket.closeUnderlying sh) := by
  unfold SharedSocket.closeUnderlying
  refine stays_act trivial fun _ => stays_act trivial fun _ => stays_act trivial fun _ => ?_
  exact stays_act trivial fun _ => stays_act trivial fun _ => stays_act trivial fun _ => .ret _

private theorem stays_uncache : Stays device clientDir (SharedSocket.uncache sh) := by
  unfold SharedSocket.uncache
  refine stays_act trivial fun _ => stays_act trivial fun cached => ?_
  cases cached with
  | false => exact stays_act trivial fun _ => stays_act trivial fun _ => .ret _
  | true =>
    refine stays_act trivial fun _ => stays_act trivial fun refs => ?_
    split
    · exact (stays_closeUnderlying sh).bind fun _ => .ret _
    · exact stays_act trivial fun _ => .ret _

variable (m : Manager)

private theorem stays_evictLoop (need : Int) (entries : List (GoString × Ptr)) :
    Stays device clientDir (m.evictLoop need entries) := by
  induction entries with
  | nil => exact .ret _
  | cons entry rest ih =>
    obtain ⟨k, sock⟩ := entry
    unfold Manager.evictLoop
    refine (stays_isOpen sock).bind fun closed => ?_
    cases closed with
    | false => exact stays_act trivial fun _ => ih
    | true =>
      refine stays_act trivial fun count => ?_
      split
      · refine stays_act trivial fun cached => ?_
        cases cached with
        | false => exact ih
        | true =>
          refine stays_act trivial fun _ => (stays_uncache sock).bind fun res => ?_
          obtain ⟨closed, err⟩ := res
          cases closed with
          | true => exact stays_act trivial fun _ => ih
          | false => exact ih
      · exact ih

private theorem stays_storeEntry (name : GoString) (s : Ptr) :
    Stays device clientDir (Manager.storeEntry name s) := by
  unfold Manager.storeEntry
  refine stays_act trivial fun cached => ?_
  cases cached with
  | true => exact stays_act trivial fun _ => .ret _
  | false =>
    refine (stays_cache s).bind fun closed => ?_
    cases closed with
    | true => exact stays_panic
    | false => exact stays_act trivial fun _ => stays_act trivial fun _ => .ret _

private theorem stays_store (name : GoString) (s : Ptr) :
    Stays device clientDir (m.store name s) := by
  unfold Manager.store
  split
  · refine stays_act trivial fun size => ?_
    split
    · refine Prog.Only.bind ?_ fun _ => stays_storeEntry name s
      exact stays_act trivial fun entries => stays_evictLoop m 1 entries
    · exact stays_storeEntry name s
  · exact stays_storeEntry name s

private theorem stays_reuse (name : GoString) :
    Stays device clientDir (Manager.reuse name) := by
  unfold Manager.reuse
  refine stays_act trivial fun found => ?_
  cases found with
  | none => exact .ret _
  | some s =>
    refine (stays_inc s).bind fun closed => ?_
    cases closed <;> exact .ret _

/-- A `Get` opens at most the path of its name. -/
theorem get_stays (name : GoString) :
    (m.get name).Only (Op.Within (Path.join m.hostapdDir name) m.clientDir) := by
  unfold Manager.get
  refine stays_act trivial fun _ => (stays_reuse name).bind fun found => ?_
  cases found with
  | some s =>
    exact (stays_store m name s).bind fun _ => stays_act trivial fun _ => .ret _
  | none =>
    refine Prog.Only.bind ?_ fun opened => ?_
    · unfold openShared
      refine stays_act ⟨rfl, rfl⟩ fun ans => ?_
      cases ans with
      | error err => exact .ret _
      | ok s => exact stays_act trivial fun _ => .ret _
    · cases opened with
      | error err => exact stays_act trivial fun _ => .ret _
      | ok s => exact (stays_store m name s).bind fun _ => stays_act trivial fun _ => .ret _

end

/-- Some `Get` of `name` goes on to open `device`. -/
def Opens (m : Manager) (name device : GoString) : Prop :=
  ∃ t res ans, (m.get name).Path t res ∧ ⟨.openSock device m.clientDir, ans⟩ ∈ t

theorem get_opens_iff (m : Manager) (name device : GoString) :
    Opens m name device ↔ device = Path.join m.hostapdDir name := by
  constructor
  · rintro ⟨t, res, ans, path, member⟩
    exact ((get_stays m name).path path _ member).1
  · rintro rfl
    -- The name is not in the map, and the device cannot be opened.
    have refused : (m.get name).Path [⟨.lock .mu, ()⟩, ⟨.lookup name, none⟩,
        ⟨.openSock (Path.join m.hostapdDir name) m.clientDir, .error (.errno 2)⟩,
        ⟨.unlock .mu, ()⟩] (.error (.errno 2)) := by
      unfold Manager.get
      exact .call _ (.call _ (.call _ (.call _ (.ret _))))
    exact ⟨_, _, .error (.errno 2), refused, by simp⟩

/-! ### Names and devices -/

variable {m : Manager} {name name' device device' : GoString}

/-- The devices of two names are beneath the directory, and different if the names are, just if
both names lead into it and not to one place. -/
theorem devices_iff (opens : Opens m name device) (opens' : Opens m name' device') :
    ((∃ inside, Path.Beneath m.hostapdDir device inside) ∧
      (∃ inside, Path.Beneath m.hostapdDir device' inside) ∧ (name ≠ name' → device ≠ device')) ↔
    ∃ inside inside', Path.LeadsTo m.hostapdDir name inside ∧
      Path.LeadsTo m.hostapdDir name' inside' ∧ (name ≠ name' → inside ≠ inside') := by
  obtain rfl := (get_opens_iff m name device).mp opens
  obtain rfl := (get_opens_iff m name' device').mp opens'
  simp only [Path.beneath_join_iff]
  constructor
  · rintro ⟨⟨inside, leads⟩, ⟨inside', leads'⟩, apart⟩
    exact ⟨inside, inside', leads, leads',
      fun names => mt (Path.join_eq_iff leads leads').mpr (apart names)⟩
  · rintro ⟨inside, inside', leads, leads', apart⟩
    exact ⟨⟨inside, leads⟩, ⟨inside', leads'⟩,
      fun names => mt (Path.join_eq_iff leads leads').mp (apart names)⟩

def hostapdRun : Manager := ⟨lit "/var/run/hostapd", lit "/tmp", 10⟩

/-- Two names as `Available` lists them -/
theorem devices_iff_listed :
    (∃ inside, Path.Beneath (lit "/var/run/hostapd") (lit "/var/run/hostapd/wlan0") inside) ∧
    (∃ inside, Path.Beneath (lit "/var/run/hostapd") (lit "/var/run/hostapd/wlan1") inside) ∧
    (lit "wlan0" ≠ lit "wlan1" →
      lit "/var/run/hostapd/wlan0" ≠ lit "/var/run/hostapd/wlan1") :=
  (devices_iff ((get_opens_iff hostapdRun _ _).mpr rfl)
    ((get_opens_iff hostapdRun _ _).mpr rfl)).mpr
    ⟨[lit "wlan0"], [lit "wlan1"],
      Path.leadsTo_plain _ ⟨by decide, by decide, by decide, by decide⟩,
      Path.leadsTo_plain _ ⟨by decide, by decide, by decide, by decide⟩, fun _ => by decide⟩

/-- A name that leads out of the directory, and two names of one device -/
theorem opens_outside_and_twice :
    (Opens hostapdRun (lit "../wpa_supplicant/wlan0") (lit "/var/run/wpa_supplicant/wlan0") ∧
      ¬ ∃ inside, Path.Beneath hostapdRun.hostapdDir (lit "/var/run/wpa_supplicant/wlan0") inside) ∧
    (lit "wlan0" ≠ lit "./wlan0" ∧
      Opens hostapdRun (lit "wlan0") (lit "/var/run/hostapd/wlan0") ∧
      Opens hostapdRun (lit "./wlan0") (lit "/var/run/hostapd/wlan0")) := by
  refine ⟨⟨(get_opens_iff _ _ _).mpr rfl, ?_⟩, by decide, (get_opens_iff _ _ _).mpr rfl,
    (get_opens_iff _ _ _).mpr rfl⟩
  rintro ⟨inside, beneath⟩
  have third := congrArg (·[2]?) beneath.elements
  have kept : (Path.elements hostapdRun.hostapdDir ++ inside)[2]? = some (lit "hostapd") := rfl
  have other : (Path.elements (lit "/var/run/wpa_supplicant/wlan0"))[2]? =
      some (lit "wpa_supplicant") := rfl
  rw [kept, other] at third
  exact absurd third (by decide)

end HostapdGrpc.Socket
