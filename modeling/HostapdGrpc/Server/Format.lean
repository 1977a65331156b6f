import HostapdGrpc.Go.Lines
import HostapdGrpc.Server.Station
import Mathlib.Data.List.Perm.Basic

/-!
# The format of station replies

How hostapd writes a station, and what `parseCli` makes of such a text: the fields may come
in any order between lines that say something else.
-/

namespace HostapdGrpc.Server

open Go

/-! ### Fields -/

/-- The fields of a `Client` that are numbers -/
inductive Counter where
  | connectedTime
  | idleMsec
  | rxPackets
  | txPackets
  | rxBytes
  | txBytes
  deriving DecidableEq

namespace Counter

def key : Counter → GoString
  | .connectedTime => lit "connected_time"
  | .idleMsec => lit "idle_msec"
  | .rxPackets => lit "rx_packets"
  | .txPackets => lit "tx_packets"
  | .rxBytes => lit "rx_bytes"
  | .txBytes => lit "tx_bytes"

def get (cli : Client) : Counter → UInt32
  | .connectedTime => cli.connectedTime
  | .idleMsec => cli.idleMsec
  | .rxPackets => cli.rxPackets
  | .txPackets => cli.txPackets
  | .rxBytes => cli.rxBytes
  | .txBytes => cli.txBytes

def set (n : UInt32) (cli : Client) : Counter → Client
  | .connectedTime => { cli with connectedTime := n }
  | .idleMsec => { cli with idleMsec := n }
  | .rxPackets => { cli with rxPackets := n }
  | .txPackets => { cli with txPackets := n }
  | .rxBytes => { cli with rxBytes := n }
  | .txBytes => { cli with txBytes := n }

@[simp] theorem get_set (c : Counter) (n : UInt32) (cli : Client) : c.get (c.set n cli) = n := by
  cases c <;> rfl

theorem get_set_of_ne {c d : Counter} (other : c ≠ d) (n : UInt32) (cli : Client) :
    c.get (d.set n cli) = c.get cli := by
  cases c <;> cases d <;> first | rfl | exact absurd rfl other

end Counter

/-- The fields that a line can write -/
inductive Field where
  | flags
  | counter (c : Counter)
  deriving DecidableEq

namespace Field

def all : List Field :=
  [.flags, .counter .connectedTime, .counter .idleMsec, .counter .rxPackets,
    .counter .txPackets, .counter .rxBytes, .counter .txBytes]

def key : Field → GoString
  | .flags => lit "flags"
  | .counter c => c.key

/-- Keys are words of small letters without `=`. -/
theorem key_word (f : Field) :
    f.key ≠ [] ∧ f.key.all graphic = true ∧ equals ∉ f.key := by
  cases f with
  | flags => decide
  | counter c => cases c <;> decide

end Field

/-- The key of a line: the text before the first `=`, if there is one, as `parseCliKV`
compares it. -/
def keyOf (line : GoString) : GoString := toLower (trimSpace (line.takeWhile (· ≠ equals)))

def HasKey (f : Field) (line : GoString) : Prop := equals ∈ line ∧ keyOf line = f.key

/-! ### What a line does -/

/-- What a line with the key of `f` and the text `v` after the `=` does -/
def Field.store (v : GoString) (cli : Client) : Field → Client
  | .flags => { cli with flag := cli.flag ++ findFlags none v }
  | .counter c => c.set (parseUint32 (trimSpace v)) cli

theorem parseCliKV_of_key {f : Field} {k : GoString} (key : toLower (trimSpace k) = f.key)
    (v : GoString) (cli : Client) : parseCliKV k v cli = f.store v cli := by
  unfold parseCliKV
  simp only [key]
  cases f with
  | flags => rfl
  | counter c =>
    cases c <;> rfl

theorem parseCliKV_of_no_key {k : GoString} (other : ∀ f : Field, toLower (trimSpace k) ≠ f.key)
    (v : GoString) (cli : Client) : parseCliKV k v cli = cli := by
  unfold parseCliKV
  simp only
  split_ifs
  · next key => exact absurd key (other .flags)
  · next key => exact absurd key (other (.counter .connectedTime))
  · next key => exact absurd key (other (.counter .idleMsec))
  · next key => exact absurd key (other (.counter .rxPackets))
  · next key => exact absurd key (other (.counter .txPackets))
  · next key => exact absurd key (other (.counter .rxBytes))
  · next key => exact absurd key (other (.counter .txBytes))
  · rfl

theorem parseLine_of_key {f : Field} {k : GoString} (key : toLower (trimSpace k) = f.key)
    (bare : equals ∉ k) (v : GoString) (cli : Client) :
    parseLine cli (k ++ equals :: v) = f.store v cli := by
  unfold parseLine
  rw [splitEquals_of_key bare]
  exact parseCliKV_of_key key v cli

/-- A line with no key of a field changes nothing. -/
theorem parseLine_of_no_key {line : GoString} (other : ∀ f, ¬ HasKey f line) (cli : Client) :
    parseLine cli line = cli := by
  unfold parseLine
  cases split : splitEquals line with
  | none => rfl
  | some kv =>
    obtain ⟨k, v⟩ := kv
    obtain ⟨member, rfl⟩ := splitEquals_some split
    exact parseCliKV_of_no_key (fun f key => other f ⟨member, key⟩) v cli

/-- The carriage return that the scanner drops is in no key. -/
theorem hasKey_dropCR {f : Field} {line : GoString} (key : HasKey f (dropCR line)) :
    HasKey f line := by
  unfold dropCR at key
  split at key
  · next last =>
    obtain ⟨rest, rfl⟩ : ∃ rest, line = rest ++ [carriageReturn] :=
      ⟨line.dropLast, (List.dropLast_append_getLast? _ last).symm⟩
    rw [List.dropLast_concat] at key
    obtain ⟨member, same⟩ := key
    refine ⟨List.mem_append_left _ member, ?_⟩
    rw [← same]
    unfold keyOf
    -- What remains has a `=`, so the key ends before the carriage return.
    rw [List.takeWhile_append, if_neg]
    intro full
    have kept := List.takeWhile_eq_self_iff.mp
      ((List.takeWhile_prefix _).eq_of_length full) equals member
    simp at kept
  · exact key

/-! ### Stations as hostapd writes them -/

/-- `key` in letters of any case, with blanks around it -/
structure WritesKey (key s : GoString) : Prop where
  padded : ∃ left word right, s = left ++ word ++ right ∧ word.map small = key ∧
    (∀ b ∈ left, blank b = true) ∧ ∀ b ∈ right, blank b = true

/-- A decimal number with blanks around it -/
structure WritesNumber (n : Nat) (s : GoString) : Prop where
  padded : ∃ left digits right, s = left ++ digits ++ right ∧ IsDecimal digits n ∧
    (∀ b ∈ left, blank b = true) ∧ ∀ b ∈ right, blank b = true

/-- `[f1][f2]...` -/
def writeFlags (flags : List GoString) : GoString := flags.flatMap fun f => 91 :: f ++ [93]

/-- What hostapd can write as a flag: some text without `]` and line breaks -/
structure IsFlag (f : GoString) : Prop where
  nonempty : f ≠ []
  open_ended : 93 ∉ f
  one_line : newline ∉ f ∧ carriageReturn ∉ f

/-- A line of a reply about `cli`: it writes the field `f`, or none of the fields. -/
inductive Content (cli : Client) : Option Field → GoString → Prop where
  | flags {k : GoString} (key : WritesKey (lit "flags") k) :
      Content cli (some .flags) (k ++ equals :: writeFlags cli.flag)
  | counter {c : Counter} {k v : GoString} (key : WritesKey c.key k)
      (number : WritesNumber (c.get cli).toNat v) :
      Content cli (some (.counter c)) (k ++ equals :: v)
  | other {line : GoString} (none_of : ∀ f, ¬ HasKey f line) : Content cli none line

structure Line (cli : Client) where
  text : GoString
  field : Option Field
  content : Content cli field text
  whole : newline ∉ text
  short : text.length < maxScanTokenSize

/-- `text` is a reply about `cli` with the lines `lines` after the address: every field is on
one of them. -/
structure Written (cli : Client) (lines : List (Line cli)) (text : GoString) : Prop where
  written : HasLines text (cli.addr :: lines.map Line.text)
  each : (lines.filterMap Line.field).Perm Field.all
  addr_whole : newline ∉ cli.addr
  addr_end : cli.addr.getLast? ≠ some carriageReturn
  addr_short : cli.addr.length < maxScanTokenSize
  flags : ∀ f ∈ cli.flag, IsFlag f

/-! ### Reading a written line -/

theorem WritesKey.reads (f : Field) {k : GoString} (key : WritesKey f.key k) :
    toLower (trimSpace k) = f.key ∧ equals ∉ k ∧
      ∀ b, blank b = false → graphic b = false → b ∉ k := by
  obtain ⟨left, word, right, rfl, cased, before, after⟩ := key
  obtain ⟨nonempty, printed, bare⟩ := f.key_word
  -- What holds of the letters in small holds of them as they are written.
  rw [← cased] at nonempty printed bare
  have word_printed : ∀ b ∈ word, graphic b = true := fun b member =>
    graphic_of_small (List.all_eq_true.mp printed _ (List.mem_map_of_mem member))
  have trimmed := trimSpace_padded before (by simpa using nonempty) word_printed after
  refine ⟨?_, ?_, ?_⟩
  · rw [trimmed, toLower_graphic word_printed, cased]
  · simp only [List.mem_append, not_or]
    refine ⟨⟨not_mem_of_all before rfl, fun member => bare ?_⟩, not_mem_of_all after rfl⟩
    simpa only [small_equals] using List.mem_map_of_mem (f := small) member
  · intro b not_blank not_graphic
    simp only [List.mem_append, not_or]
    exact ⟨⟨not_mem_of_all before not_blank, not_mem_of_all word_printed not_graphic⟩,
      not_mem_of_all after not_blank⟩

theorem WritesNumber.reads {n : UInt32} {v : GoString} (number : WritesNumber n.toNat v) :
    parseUint32 (trimSpace v) = n ∧ carriageReturn ∉ v := by
  obtain ⟨left, digits, right, rfl, decimal, before, after⟩ := number
  have printed : ∀ b ∈ digits, graphic b = true := fun b member =>
    graphic_of_digit (List.all_eq_true.mp decimal.digits b member)
  refine ⟨?_, ?_⟩
  · unfold parseUint32
    rw [trimSpace_padded before decimal.nonempty printed after, parseUint_of_decimal decimal,
      if_pos n.toNat_lt]
    simp
  · simp only [List.mem_append, not_or]
    exact ⟨⟨not_mem_of_all before rfl, not_mem_of_all printed rfl⟩, not_mem_of_all after rfl⟩

/-! ### Flags -/

private theorem findFlags_open {f : GoString} (closing : 93 ∉ f) (sofar rest : GoString)
    (nonempty : sofar ++ f ≠ []) :
    findFlags (some sofar) (f ++ 93 :: rest) = (sofar ++ f) :: findFlags none rest := by
  -- Each byte of the flag moves over to `sofar`.
  induction f generalizing sofar with
  | nil =>
    have some_flag : sofar ≠ [] := by simpa using nonempty
    simp [findFlags, some_flag]
  | cons b f ih =>
    have other : b ≠ 93 := by
      rintro rfl
      simp at closing
    simp only [List.cons_append, findFlags, if_neg other]
    rw [ih (fun member => closing (List.mem_cons_of_mem _ member)) _ (by simp)]
    simp

/-- The match loop finds the flags as they were written. -/
theorem findFlags_writeFlags {flags : List GoString} (good : ∀ f ∈ flags, IsFlag f) :
    findFlags none (writeFlags flags) = flags := by
  induction flags with
  | nil => rfl
  | cons f flags ih =>
    obtain ⟨here, rest⟩ := List.forall_mem_cons.mp good
    have step : writeFlags (f :: flags) = 91 :: (f ++ 93 :: writeFlags flags) := by
      simp [writeFlags]
    rw [step]
    simp only [findFlags, if_true]
    rw [findFlags_open here.open_ended [] _ (by simpa using here.nonempty), ih rest]
    rfl

theorem carriageReturn_not_mem_writeFlags {flags : List GoString}
    (good : ∀ f ∈ flags, IsFlag f) : carriageReturn ∉ writeFlags flags := by
  have brackets : carriageReturn ≠ 91 ∧ carriageReturn ≠ 93 := by decide
  simp only [writeFlags, List.mem_flatMap, not_exists, not_and]
  intro f member
  simpa [brackets] using (good f member).one_line.2

/-! ### Reading a written station -/

/-- Taking one field over from `cli` -/
def Field.copy (cli acc : Client) : Field → Client
  | .flags => { acc with flag := acc.flag ++ cli.flag }
  | .counter c => c.set (c.get cli) acc

/-- The order in which fields are taken over does not matter. -/
instance (cli : Client) : RightCommutative (Field.copy cli) where
  right_comm acc f g := by
    cases f with
    | flags =>
      cases g with
      | flags => rfl
      | counter d => cases d <;> rfl
    | counter c =>
      cases g with
      | flags => cases c <;> rfl
      | counter d => cases c <;> cases d <;> rfl

theorem copy_all (cli : Client) :
    Field.all.foldl (Field.copy cli) { Client.empty with addr := cli.addr } =
      { cli with socketName := [] } := by
  simp only [Field.all, List.foldl, Field.copy, Counter.set, Counter.get, Client.empty,
    List.nil_append]

theorem Content.parse {cli : Client} {field : Option Field} {line : GoString}
    (content : Content cli field line) (flags : ∀ f ∈ cli.flag, IsFlag f) (acc : Client) :
    parseLine acc (dropCR line) = field.elim acc (Field.copy cli acc) := by
  cases content with
  | @flags k key =>
    obtain ⟨same, bare, no⟩ := key.reads .flags
    have kept : carriageReturn ∉ k ++ equals :: writeFlags cli.flag := by
      have ne : carriageReturn ≠ equals := by decide
      simpa [ne] using ⟨no _ rfl rfl, carriageReturn_not_mem_writeFlags flags⟩
    rw [dropCR_of_last fun last => kept (List.mem_of_getLast? last), parseLine_of_key same bare]
    simp only [Field.store, Field.copy, findFlags_writeFlags flags, Option.elim]
  | @counter c k v key number =>
    obtain ⟨same, bare, no⟩ := key.reads (.counter c)
    obtain ⟨value, noCR⟩ := number.reads
    have kept : carriageReturn ∉ k ++ equals :: v := by
      have ne : carriageReturn ≠ equals := by decide
      simpa [ne] using ⟨no _ rfl rfl, noCR⟩
    rw [dropCR_of_last fun last => kept (List.mem_of_getLast? last), parseLine_of_key same bare]
    simp only [Field.store, Field.copy, value, Option.elim]
  | other none_of => exact parseLine_of_no_key (fun f key => none_of f (hasKey_dropCR key)) acc

private theorem parse_lines {cli : Client} (flags : ∀ f ∈ cli.flag, IsFlag f)
    (lines : List (Line cli)) (acc : Client) :
    ((lines.map Line.text).map dropCR).foldl parseLine acc =
      (lines.filterMap Line.field).foldl (Field.copy cli) acc := by
  induction lines generalizing acc with
  | nil => rfl
  | cons l lines ih =>
    simp only [List.map_cons, List.foldl_cons, l.content.parse flags, ih]
    cases field : l.field with
    | none => simp [field]
    | some f => simp [field]

/-- The parser gives back what was written, in whatever order and between whatever lines. -/
theorem parseCli_written {cli : Client} {lines : List (Line cli)} {text : GoString}
    (written : Written cli lines text) : parseCli text = { cli with socketName := [] } := by
  have scanned : scanLines text = cli.addr :: (lines.map Line.text).map dropCR := by
    rw [scanLines_of_lines written.written, List.map_cons, dropCR_of_last written.addr_end]
    · rintro l (_ | ⟨_, member⟩)
      · exact written.addr_whole
      · obtain ⟨line, _, rfl⟩ := List.mem_map.mp member
        exact line.whole
    · rintro l (_ | ⟨_, member⟩)
      · exact written.addr_short
      · obtain ⟨line, _, rfl⟩ := List.mem_map.mp member
        exact line.short
  unfold parseCli
  rw [scanned]
  simp only
  -- Every field is taken over once, in some order.
  rw [parse_lines written.flags, written.each.foldl_eq, copy_all]

section
variable (cli : Client) (c : Counter)

private theorem plain_content :
    Content cli (some (.counter c)) (c.key ++ equals :: itoa (c.get cli).toNat) := by
  refine .counter ⟨[], c.key, [], by simp, ?_, by simp, by simp⟩
    ⟨[], _, [], (by simp), itoa_isDecimal _, by simp, by simp⟩
  cases c <;> decide

private theorem plain_whole : newline ∉ c.key ++ equals :: itoa (c.get cli).toNat := by
  have digits : newline ∉ itoa (c.get cli).toNat :=
    not_mem_of_all (List.all_eq_true.mp (itoa_isDecimal _).digits) rfl
  have key : newline ∉ c.key := by cases c <;> decide
  have ne : newline ≠ equals := by decide
  simpa [ne] using ⟨key, digits⟩

private theorem plain_short :
    (c.key ++ equals :: itoa (c.get cli).toNat).length < maxScanTokenSize := by
  have key : c.key.length ≤ 14 := by cases c <;> decide
  have digits : (itoa (c.get cli).toNat).length ≤ 10 := by
    simp only [itoa, List.length_map]
    rw [Nat.length_toDigits_le_iff (by decide) (by decide)]
    exact Nat.lt_trans (c.get cli).toNat_lt (by decide)
  simp only [List.length_append, List.length_cons, maxScanTokenSize]
  omega

/-- A counter as hostapd itself writes it -/
def Line.plain : Line cli where
  text := c.key ++ equals :: itoa (c.get cli).toNat
  field := some (.counter c)
  content := plain_content cli c
  whole := plain_whole cli c
  short := plain_short cli c

end

/-- A station whose reply has the fields in another order, a key in capital letters with
blanks, and a line of another kind -/
def laptop : Client :=
  ⟨lit "02:00:00:00:01:00", [lit "AUTH", lit "A[=B"], 60, 0, 7, 8, 4294967295, 5, []⟩

def laptopLines : List (Line laptop) :=
  have blanks : ∀ s : GoString, s.all blank = true → ∀ b ∈ s, blank b = true := fun _ =>
    List.all_eq_true.mp
  [.plain laptop .txBytes,
    ⟨lit " RX_Bytes\t" ++ equals :: lit " 4294967295 ", some (.counter .rxBytes),
      .counter ⟨lit " ", lit "RX_Bytes", lit "\t", rfl, by decide, blanks _ rfl, blanks _ rfl⟩
        ⟨lit " ", lit "4294967295", lit " ", rfl, ⟨by decide, by decide, by decide⟩, blanks _ rfl,
          blanks _ rfl⟩, by decide, by decide⟩,
    ⟨lit "supported_rates 02 04", none, .other fun _ key => absurd key.1 (by decide), by decide,
      by decide⟩,
    ⟨lit "flags" ++ equals :: writeFlags laptop.flag, some .flags,
      .flags ⟨[], lit "flags", [], rfl, by decide, blanks _ rfl, blanks _ rfl⟩, by decide,
      by decide⟩,
    .plain laptop .idleMsec, .plain laptop .rxPackets, .plain laptop .connectedTime,
    .plain laptop .txPackets]

def laptopText : GoString :=
  lit "02:00:00:00:01:00\ntx_bytes=5\n RX_Bytes\t= 4294967295 \nsupported_rates 02 04\n" ++
    lit "flags=[AUTH][A[=B]\nidle_msec=0\nrx_packets=7\nconnected_time=60\ntx_packets=8\n"

theorem parseCli_written_laptop :
    Written laptop laptopLines laptopText ∧ parseCli laptopText = laptop := by
  have written : Written laptop laptopLines laptopText :=
    ⟨.inl (by decide +kernel), by decide, by decide, by decide, by decide, by
      rintro f (_ | ⟨_, _ | ⟨_, ⟨⟩⟩⟩) <;> exact ⟨by decide, by decide, by decide⟩⟩
  exact ⟨written, parseCli_written written⟩

end HostapdGrpc.Server
