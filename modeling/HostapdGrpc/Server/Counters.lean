import HostapdGrpc.Server.Format

/-!
# Counters beyond 32 bits

hostapd counts in 64 bits what a `Client` holds in 32. A number that does not fit is an error
of `strconv.ParseUint`, for which `parseUint32` gives 0.
-/

namespace HostapdGrpc.Server

open Go

/-! ### Two replies that differ in one number -/

/-- A line that writes the counter `c`, but for its digits -/
structure CounterLine (c : Counter) where
  key : GoString
  before : GoString
  after : GoString
  writes : WritesKey c.key key
  blanks : (∀ b ∈ before, blank b = true) ∧ ∀ b ∈ after, blank b = true

def CounterLine.write {c : Counter} (l : CounterLine c) (n : Nat) : GoString :=
  l.key ++ equals :: (l.before ++ itoa n ++ l.after)

/-- A reply with `line` between what comes `before` it, at least the address, and `after` it -/
def replyText (before line : GoString) (after : Option GoString) : GoString :=
  before ++ newline :: (line ++ after.elim [] (newline :: ·))

/-- The other lines -/
def otherLines (before : GoString) (after : Option GoString) : List GoString :=
  before.splitOn newline ++ after.elim [] (·.splitOn newline)

section
variable {c : Counter}

theorem CounterLine.ne_nil (l : CounterLine c) (n : Nat) : l.write n ≠ [] := by
  simp [CounterLine.write]

private theorem CounterLine.digits_printed (n : Nat) : ∀ b ∈ itoa n, graphic b = true :=
  fun b member => graphic_of_digit (List.all_eq_true.mp (itoa_isDecimal n).digits b member)

theorem CounterLine.no_breaks (l : CounterLine c) (n : Nat) :
    newline ∉ l.write n ∧ carriageReturn ∉ l.write n := by
  obtain ⟨_, _, no⟩ := l.writes.reads (.counter c)
  -- Neither is in the key, among the blanks or among the digits.
  have ends : ∀ b, blank b = false → graphic b = false → b ≠ equals → b ∉ l.write n := by
    intro b not_blank not_graphic ne
    simp only [CounterLine.write, List.mem_append, List.mem_cons, not_or]
    exact ⟨no b not_blank not_graphic, ne, ⟨not_mem_of_all l.blanks.1 not_blank,
      not_mem_of_all (digits_printed n) not_graphic⟩, not_mem_of_all l.blanks.2 not_blank⟩
  exact ⟨ends _ rfl rfl (by decide), ends _ rfl rfl (by decide)⟩

theorem CounterLine.parse (l : CounterLine c) (n : Nat) (cli : Client) :
    parseLine cli (dropCR (l.write n)) = c.set (parseUint32 (itoa n)) cli := by
  obtain ⟨same, bare, _⟩ := l.writes.reads (.counter c)
  rw [dropCR_of_last fun last => (l.no_breaks n).2 (List.mem_of_getLast? last)]
  unfold CounterLine.write
  rw [parseLine_of_key same bare]
  simp only [Field.store]
  rw [trimSpace_padded l.blanks.1 (itoa_isDecimal n).nonempty (digits_printed n) l.blanks.2]

theorem CounterLine.length_mono (l : CounterLine c) {n m : Nat} (le : n ≤ m) :
    (l.write n).length ≤ (l.write m).length := by
  have digits := itoa_length_mono le
  simp only [CounterLine.write, List.length_append, List.length_cons]
  omega

end

/-- What is stored of a number -/
theorem parseUint32_itoa (n : Nat) :
    parseUint32 (itoa n) = if n < UInt32.size then UInt32.ofNat n else 0 := by
  unfold parseUint32
  rw [parseUint_of_decimal (itoa_isDecimal n)]
  by_cases fits : n < UInt32.size
  · rw [if_pos fits, if_pos (by exact fits)]
    rfl
  · rw [if_neg fits, if_neg (by exact fits)]
    rfl

/-! ### One counter through the lines -/

/-- A line sets the counter to a value of its own or leaves it as it is. -/
theorem get_parseLine (c : Counter) (line : GoString) :
    ∃ y : Option UInt32, (¬ HasKey (.counter c) line → y = none) ∧
      ∀ cli, c.get (parseLine cli line) = y.getD (c.get cli) := by
  by_cases other : ∀ f, ¬ HasKey f line
  · exact ⟨none, fun _ => rfl, fun cli => by rw [parseLine_of_no_key other]; rfl⟩
  push Not at other
  obtain ⟨f, member, key⟩ := other
  obtain ⟨v, whole⟩ := exists_splitEquals member
  have parsed : ∀ cli, parseLine cli line = f.store v cli := fun cli => by
    conv_lhs => rw [whole]
    exact parseLine_of_key key (fun inside => by simpa using List.mem_takeWhile_imp inside) v cli
  by_cases same : f = .counter c
  -- The value comes from the line alone.
  · subst same
    refine ⟨some (parseUint32 (trimSpace v)), fun absent => absurd ⟨member, key⟩ absent, ?_⟩
    intro cli
    rw [parsed]
    exact Counter.get_set c _ cli
  · refine ⟨none, fun _ => rfl, fun cli => ?_⟩
    rw [parsed]
    cases f with
    | flags => cases c <;> rfl
    | counter d => exact Counter.get_set_of_ne (fun eq => same (congrArg _ eq.symm)) _ cli

/-- So do any number of lines. -/
theorem get_foldl (c : Counter) (lines : List GoString) :
    ∃ y : Option UInt32, ∀ cli, c.get (lines.foldl parseLine cli) = y.getD (c.get cli) := by
  induction lines with
  | nil => exact ⟨none, fun _ => rfl⟩
  | cons line lines ih =>
    obtain ⟨y, -, first⟩ := get_parseLine c line
    obtain ⟨z, rest⟩ := ih
    -- The last line that sets the counter decides.
    refine ⟨z.or y, fun cli => ?_⟩
    rw [List.foldl_cons, rest, first]
    cases z <;> rfl

/-- A counter that every line leaves at zero is zero. -/
theorem get_foldl_zero {c : Counter} {lines : List GoString}
    (zero : ∀ line ∈ lines, ∀ cli, c.get cli = 0 → c.get (parseLine cli line) = 0) (cli : Client)
    (start : c.get cli = 0) : c.get (lines.foldl parseLine cli) = 0 := by
  induction lines generalizing cli with
  | nil => exact start
  | cons line lines ih =>
    obtain ⟨here, rest⟩ := List.forall_mem_cons.mp zero
    exact ih rest _ (here cli start)

/-! ### The line in its reply -/

private theorem splitOn_reply (before : GoString) {line : GoString} (after : Option GoString)
    (whole : newline ∉ line) : (replyText before line after).splitOn newline =
      before.splitOn newline ++ line :: after.elim [] (·.splitOn newline) := by
  unfold replyText
  rw [List.splitOn_append_cons_self]
  cases after with
  | none => simp [List.splitOn_eq_singleton whole]
  | some rest => simp [List.splitOn_append_cons_self_of_not_mem whole]

private theorem pieces_reply (before : GoString) {line : GoString} (after : Option GoString)
    (whole : newline ∉ line) (nonempty : line ≠ []) :
    pieces (replyText before line after) =
      before.splitOn newline ++ line :: after.elim [] pieces := by
  cases after with
  | none =>
    have split : (replyText before line none).splitOn newline = before.splitOn newline ++ [line] :=
      splitOn_reply before none whole
    rw [pieces_of_splitOn split, if_neg (by simpa using nonempty)]
    rfl
  | some rest =>
    have split : (replyText before line (some rest)).splitOn newline =
        before.splitOn newline ++ line :: rest.splitOn newline :=
      splitOn_reply before (some rest) whole
    have some_piece : rest.splitOn newline ≠ [] := List.splitOn_ne_nil _ _
    have last : (before.splitOn newline ++ line :: rest.splitOn newline).getLast? =
        (rest.splitOn newline).getLast? := by
      rw [List.getLast?_append_of_ne_nil _ (List.cons_ne_nil _ _),
        List.getLast?_cons_of_ne_nil some_piece]
    change _ = before.splitOn newline ++ line :: pieces rest
    rw [pieces_of_splitOn split, pieces_of_splitOn (s := rest) rfl]
    -- A newline at the end of the reply is one at the end of what follows the line.
    by_cases final : (rest.splitOn newline).getLast? = some []
    · rw [if_pos (last.trans final), if_pos final, List.dropLast_append_cons,
        List.dropLast_cons_of_ne_nil some_piece]
    · rw [if_neg (last ▸ final), if_neg final]

/-- The scanner stops before the line, whatever it is, or the line is read between the same
others. -/
private theorem parseCli_reply (before : GoString) (after : Option GoString) :
    (∃ cli, ∀ line, newline ∉ line → line ≠ [] → parseCli (replyText before line after) = cli) ∨
      ∃ (cli : Client) (tail : List GoString), ∀ line, newline ∉ line → line ≠ [] →
        line.length < maxScanTokenSize → parseCli (replyText before line after) =
          tail.foldl parseLine (parseLine cli (dropCR line)) := by
  by_cases scanned : ∀ l ∈ before.splitOn newline, decide (l.length < maxScanTokenSize) = true
  -- The scanner comes to the line.
  · obtain ⟨addr, head, split⟩ := List.exists_cons_of_ne_nil (List.splitOn_ne_nil newline before)
    refine .inr ⟨(head.map dropCR).foldl parseLine { Client.empty with addr := dropCR addr },
      ((after.elim [] pieces).takeWhile fun l => l.length < maxScanTokenSize).map dropCR, ?_⟩
    intro line whole nonempty short
    have tokens : scanLines (replyText before line after) =
        dropCR addr :: (head.map dropCR ++ dropCR line ::
          ((after.elim [] pieces).takeWhile fun l => l.length < maxScanTokenSize).map dropCR) := by
      unfold scanLines
      rw [pieces_reply before after whole nonempty, List.takeWhile_append_of_pos scanned,
        List.takeWhile_cons_of_pos (by simpa using short), split]
      simp
    unfold parseCli
    rw [tokens]
    simp only [List.foldl_append, List.foldl_cons]
  -- A line before it does not fit the buffer, so that the scanner stops there.
  · have stops : ∀ line, newline ∉ line → line ≠ [] → scanLines (replyText before line after) =
        ((before.splitOn newline).takeWhile fun l => l.length < maxScanTokenSize).map dropCR := by
      intro line whole nonempty
      unfold scanLines
      rw [pieces_reply before after whole nonempty, List.takeWhile_append, if_neg]
      intro full
      exact scanned (List.takeWhile_eq_self_iff.mp
        ((List.takeWhile_prefix _).eq_of_length full))
    refine .inl ⟨parseCli (replyText before (lit "=") after), fun line whole nonempty => ?_⟩
    unfold parseCli
    rw [stops line whole nonempty, stops (lit "=") (by decide) (by decide)]

/-- What comes around the line decides whether its number is what is stored. -/
private theorem get_reply {c : Counter} (l : CounterLine c) (before : GoString)
    (after : Option GoString) :
    ∃ y : Option UInt32, ∀ n, (l.write n).length < maxScanTokenSize →
      c.get (parseCli (replyText before (l.write n) after)) = y.getD (parseUint32 (itoa n)) := by
  obtain ⟨cli, same⟩ | ⟨cli, tail, read⟩ := parseCli_reply before after
  · refine ⟨some (c.get cli), fun n _ => ?_⟩
    rw [same _ (l.no_breaks n).1 (l.ne_nil n)]
    rfl
  · obtain ⟨y, later⟩ := get_foldl c tail
    refine ⟨y, fun n short => ?_⟩
    rw [read _ (l.no_breaks n).1 (l.ne_nil n) short, later, l.parse, Counter.get_set]

private theorem get_reply_wide {c : Counter} (l : CounterLine c) {before : GoString}
    {after : Option GoString} (alone : ∀ line ∈ otherLines before after, ¬ HasKey (.counter c) line)
    {n : Nat} (wide : UInt32.size ≤ n) :
    c.get (parseCli (replyText before (l.write n) after)) = 0 := by
  have zero : ∀ line ∈ scanLines (replyText before (l.write n) after), ∀ cli, c.get cli = 0 →
      c.get (parseLine cli line) = 0 := by
    intro line scanned cli start
    obtain ⟨piece, member, rfl⟩ := mem_scanLines scanned
    rw [splitOn_reply before after (l.no_breaks n).1] at member
    by_cases own : piece = l.write n
    -- The number is out of range, which counts as 0.
    · subst own
      rw [l.parse, Counter.get_set, parseUint32_itoa, if_neg (Nat.not_lt.mpr wide)]
    · have other : piece ∈ otherLines before after := by
        simp only [List.mem_append, List.mem_cons, own, false_or] at member
        exact List.mem_append.mpr member
      obtain ⟨y, unset, read⟩ := get_parseLine c (dropCR piece)
      rw [read, unset fun key => alone piece other (hasKey_dropCR key)]
      exact start
  unfold parseCli
  split
  · cases c <;> rfl
  · next addr rest tokens =>
    rw [tokens] at zero
    refine get_foldl_zero (fun line member => zero line (List.mem_cons_of_mem _ member)) _ ?_
    cases c <;> rfl

/-- Among the numbers that fit 32 bits, and among those that do not, a larger one is never
stored as a smaller one. One that does not fit is stored as 0. -/
theorem counter_monotone (c : Counter) (l : CounterLine c) (before : GoString)
    (after : Option GoString) {n m : Nat} (le : n ≤ m)
    (fits : (l.write m).length < maxScanTokenSize) :
    (m < UInt32.size ∨ UInt32.size ≤ n →
        c.get (parseCli (replyText before (l.write n) after)) ≤
          c.get (parseCli (replyText before (l.write m) after))) ∧
      ((∀ line ∈ otherLines before after, ¬ HasKey (.counter c) line) → UInt32.size ≤ m →
        c.get (parseCli (replyText before (l.write m) after)) = 0) := by
  refine ⟨fun same_side => ?_, fun alone wide => get_reply_wide l alone wide⟩
  obtain ⟨y, read⟩ := get_reply l before after
  rw [read n (Nat.lt_of_le_of_lt (l.length_mono le) fits), read m fits]
  cases y with
  | some y => exact UInt32.le_refl _
  | none =>
    simp only [Option.getD_none, parseUint32_itoa]
    obtain narrow | wide := same_side
    · rw [if_pos (Nat.lt_of_le_of_lt le narrow), if_pos narrow]
      rw [UInt32.ofNat_le_iff (Nat.lt_of_le_of_lt le narrow), UInt32.toNat_ofNat_of_lt' narrow]
      exact le
    · rw [if_neg (Nat.not_lt.mpr wide), if_neg (Nat.not_lt.mpr (Nat.le_trans wide le))]
      exact UInt32.le_refl _

/-- The line of a station whose counter has just passed the limit -/
def plainRxBytes : CounterLine .rxBytes :=
  ⟨lit "rx_bytes", [], [],
    ⟨[], lit "rx_bytes", [], rfl, by decide, List.all_eq_true.mp rfl, List.all_eq_true.mp rfl⟩,
    List.all_eq_true.mp rfl, List.all_eq_true.mp rfl⟩

/-- The reply of a station that has received `n` bytes, and of which it says nothing else -/
def received (n : Nat) : GoString :=
  replyText (lit "02:00:00:00:01:00") (plainRxBytes.write n) (some [])

theorem counter_monotone_narrow :
    9 ≤ 4294967295 ∧
      Counter.get (parseCli (received 9)) .rxBytes ≤
        Counter.get (parseCli (received 4294967295)) .rxBytes :=
  ⟨by decide, (counter_monotone .rxBytes plainRxBytes _ _ (by decide) (by decide)).1
    (.inl (by decide))⟩

theorem counter_backwards :
    4294967295 ≤ 4294967296 ∧
      ¬ Counter.get (parseCli (received 4294967295)) .rxBytes ≤
        Counter.get (parseCli (received 4294967296)) .rxBytes := by
  decide +kernel

end HostapdGrpc.Server
