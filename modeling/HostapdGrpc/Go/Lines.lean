import HostapdGrpc.Go.Strings
import Mathlib.Data.List.TakeDrop
import Mathlib.Data.List.TakeWhile
import Mathlib.Data.List.Induction

/-!
# Texts of lines

What the string functions give on a text that is written line by line, with padded words,
`key=value` and decimal numbers.
-/

namespace HostapdGrpc.Go

/-! ### Lines -/

/-- The lines of `s` are `ls`. The newline after the last may be missing, unless that line is
empty. -/
def HasLines (s : GoString) (ls : List GoString) : Prop :=
  s = ls.flatMap (· ++ [newline]) ∨
    (s ++ [newline] = ls.flatMap (· ++ [newline]) ∧ ls.getLast? ≠ some [])

private theorem splitOn_lines (ls : List GoString) (whole : ∀ l ∈ ls, newline ∉ l) :
    (ls.flatMap (· ++ [newline])).splitOn newline = ls ++ [[]] := by
  induction ls with
  | nil => rfl
  | cons l ls ih =>
    obtain ⟨here, rest⟩ := List.forall_mem_cons.mp whole
    simp only [List.flatMap_cons, List.append_assoc, List.cons_append, List.nil_append]
    rw [List.splitOn_append_cons_self_of_not_mem here, ih rest]

theorem pieces_of_splitOn {s : GoString} {ps : List GoString} (split : s.splitOn newline = ps) :
    pieces s = if ps.getLast? = some [] then ps.dropLast else ps := by
  subst split
  rfl

theorem pieces_of_lines {s : GoString} {ls : List GoString} (lines : HasLines s ls)
    (whole : ∀ l ∈ ls, newline ∉ l) : pieces s = ls := by
  have split := splitOn_lines ls whole
  obtain rfl | ⟨full, last⟩ := lines
  · rw [pieces_of_splitOn split, if_pos (by simp), List.dropLast_concat]
  · rw [← full, List.splitOn_append_cons_self] at split
    have same : s.splitOn newline = ls := List.append_cancel_right split
    rw [pieces_of_splitOn same, if_neg last]

theorem scanLines_of_lines {s : GoString} {ls : List GoString} (lines : HasLines s ls)
    (whole : ∀ l ∈ ls, newline ∉ l) (short : ∀ l ∈ ls, l.length < maxScanTokenSize) :
    scanLines s = ls.map dropCR := by
  unfold scanLines
  rw [pieces_of_lines lines whole, List.takeWhile_eq_self_iff.mpr (by simpa using short)]

theorem mem_scanLines {s token : GoString} (member : token ∈ scanLines s) :
    ∃ l ∈ s.splitOn newline, token = dropCR l := by
  obtain ⟨l, scanned, rfl⟩ := List.mem_map.mp member
  have piece : l ∈ pieces s := (List.takeWhile_sublist _).subset scanned
  refine ⟨l, ?_, rfl⟩
  rw [pieces_of_splitOn rfl] at piece
  split at piece
  · exact List.dropLast_subset _ piece
  · exact piece

theorem dropCR_of_last {l : GoString} (last : l.getLast? ≠ some carriageReturn) : dropCR l = l :=
  if_neg last

/-- The first line is a token of its own. -/
theorem scanLines_cons {l : GoString} (whole : newline ∉ l) (short : l.length < maxScanTokenSize)
    (rest : GoString) : scanLines (l ++ newline :: rest) = dropCR l :: scanLines rest := by
  have split := List.splitOn_append_cons_self_of_not_mem whole rest
  have some_piece : rest.splitOn newline ≠ [] := List.splitOn_ne_nil _ _
  have first : pieces (l ++ newline :: rest) = l :: pieces rest := by
    rw [pieces_of_splitOn split, pieces_of_splitOn (s := rest) rfl,
      List.getLast?_cons_of_ne_nil some_piece]
    split
    · rw [List.dropLast_cons_of_ne_nil some_piece]
    · rfl
  unfold scanLines
  rw [first, List.takeWhile_cons_of_pos (by simpa using short), List.map_cons]

/-! ### Words -/

def blank (b : UInt8) : Bool := b == 32 || b == 9

/-- A printed ASCII character -/
def graphic (b : UInt8) : Bool := 33 ≤ b && b ≤ 126

theorem not_mem_of_all {p : UInt8 → Bool} {s : GoString} (all : ∀ b ∈ s, p b = true) {b : UInt8}
    (other : p b = false) : b ∉ s := by
  intro member
  rw [all b member] at other
  cases other

private theorem find_prefix_blank {b : UInt8} (pad : blank b = true) (s : GoString) :
    spaces.find? (·.isPrefixOf (b :: s)) = some [b] := by
  have cases_b : b = 32 ∨ b = 9 := by simpa [blank] using pad
  rcases cases_b with rfl | rfl <;> simp [spaces, List.find?, List.isPrefixOf]

private theorem find_suffix_blank {b : UInt8} (pad : blank b = true) (s : GoString) :
    spaces.find? (·.isSuffixOf (s ++ [b])) = some [b] := by
  have cases_b : b = 32 ∨ b = 9 := by simpa [blank] using pad
  rcases cases_b with rfl | rfl <;>
    simp [spaces, List.find?, List.isSuffixOf, List.isPrefixOf]

/-- No white space rune has a printed character as its first or last byte. -/
private theorem spaces_edges : ∀ sp ∈ spaces,
    (sp.head?.all fun b => !graphic b) = true ∧ (sp.getLast?.all fun b => !graphic b) = true ∧
      sp ≠ [] := by
  decide

private theorem find_prefix_graphic {b : UInt8} (word : graphic b = true) (s : GoString) :
    spaces.find? (·.isPrefixOf (b :: s)) = none := by
  rw [List.find?_eq_none]
  intro sp member front
  obtain ⟨rest, whole⟩ := List.isPrefixOf_iff_prefix.mp front
  obtain ⟨head, -, nonempty⟩ := spaces_edges sp member
  cases sp with
  | nil => exact nonempty rfl
  | cons c sp =>
    obtain ⟨rfl, -⟩ := List.cons.inj whole
    simp [word] at head

private theorem find_suffix_graphic {b : UInt8} (word : graphic b = true) (s : GoString) :
    spaces.find? (·.isSuffixOf (s ++ [b])) = none := by
  rw [List.find?_eq_none]
  intro sp member back
  obtain ⟨rest, whole⟩ := List.isSuffixOf_iff_suffix.mp back
  obtain ⟨-, last, nonempty⟩ := spaces_edges sp member
  have same : sp.getLast? = some b := by
    have := congrArg List.getLast? whole
    simpa [List.getLast?_append, List.getLast?_eq_some_getLast nonempty] using this
  simp [same, word] at last

private theorem trimLeft_blanks {pad s : GoString} (blanks : ∀ b ∈ pad, blank b = true)
    {c : UInt8} (word : graphic c = true) {n : Nat} (enough : pad.length ≤ n) :
    trimLeftFuel n (pad ++ c :: s) = c :: s := by
  induction pad generalizing n with
  | nil =>
    cases n with
    | zero => rfl
    | succ n => simp [trimLeftFuel, find_prefix_graphic word]
  | cons b pad ih =>
    obtain ⟨here, rest⟩ := List.forall_mem_cons.mp blanks
    cases n with
    | zero => simp at enough
    | succ n =>
      simp only [List.cons_append, trimLeftFuel, find_prefix_blank here, List.length_singleton,
        List.drop_one, List.tail_cons]
      exact ih rest (by simpa using enough)

private theorem trimRight_blanks {pad s : GoString} (blanks : ∀ b ∈ pad, blank b = true)
    {c : UInt8} (word : graphic c = true) {n : Nat} (enough : pad.length ≤ n) :
    trimRightFuel n (s ++ [c] ++ pad) = s ++ [c] := by
  induction pad using List.reverseRec generalizing n with
  | nil =>
    cases n with
    | zero => simp [trimRightFuel]
    | succ n => simp [trimRightFuel, find_suffix_graphic word]
  | append_singleton pad b ih =>
    cases n with
    | zero => simp at enough
    | succ n =>
      rw [← List.append_assoc]
      have cut : (s ++ [c] ++ pad ++ [b]).take ((s ++ [c] ++ pad ++ [b]).length - [b].length) =
          s ++ [c] ++ pad := by
        rw [List.length_append, Nat.add_sub_cancel, List.take_left]
      simp only [trimRightFuel, find_suffix_blank (blanks b (by simp))]
      rw [cut]
      exact ih (fun b member => blanks b (by simp [member])) (by simpa using enough)

/-- Trimming takes the blanks around a word off. -/
theorem trimSpace_padded {left word right : GoString} (before : ∀ b ∈ left, blank b = true)
    (nonempty : word ≠ []) (printed : ∀ b ∈ word, graphic b = true)
    (after : ∀ b ∈ right, blank b = true) : trimSpace (left ++ word ++ right) = word := by
  have front : trimLeftFuel (left ++ word ++ right).length (left ++ word ++ right) =
      word ++ right := by
    cases word with
    | nil => exact absurd rfl nonempty
    | cons c word =>
      rw [List.append_assoc]
      exact trimLeft_blanks before (printed c (by simp)) (by simp)
  unfold trimSpace
  rw [front, ← List.dropLast_append_getLast nonempty]
  exact trimRight_blanks after (printed _ (List.getLast_mem nonempty)) (by simp; omega)

/-! ### Letters -/

/-- A byte with a capital letter made small -/
def small (b : UInt8) : UInt8 := if 65 ≤ b ∧ b ≤ 90 then b + 32 else b

theorem toLower_graphic {s : GoString} (printed : ∀ b ∈ s, graphic b = true) :
    toLower s = s.map small := by
  induction s with
  | nil => rfl
  | cons b s ih =>
    obtain ⟨here, rest⟩ := List.forall_mem_cons.mp printed
    -- The first bytes of the two runes with a small letter in ASCII are not printed ones.
    have other : b ≠ 0xE2 ∧ b ≠ 0xC4 := by
      constructor <;> rintro rfl <;> simp [graphic] at here
    unfold toLower
    split
    · next same => exact absurd (List.cons.inj same).1 other.1
    · next same => exact absurd (List.cons.inj same).1 other.2
    · next same =>
      obtain ⟨rfl, rfl⟩ := List.cons.inj same
      rw [ih rest]
      rfl
    · next same => cases same

theorem graphic_of_small {b : UInt8} (printed : graphic (small b) = true) : graphic b = true := by
  unfold small at printed
  split at printed
  · next capital =>
    simp only [graphic, Bool.and_eq_true, decide_eq_true_eq, UInt8.le_iff_toNat_le] at capital ⊢
    simp at capital ⊢
    omega
  · exact printed

theorem small_equals : small equals = equals := rfl

/-! ### `key=value` -/

theorem splitEquals_of_key {k : GoString} (key : equals ∉ k) (v : GoString) :
    splitEquals (k ++ equals :: v) = some (k, v) := by
  have before : ∀ b ∈ k, decide (b ≠ equals) = true := by
    intro b member
    simp only [ne_eq, decide_eq_true_eq]
    rintro rfl
    exact key member
  unfold splitEquals
  rw [List.span_eq_takeWhile_dropWhile, List.takeWhile_append_of_pos before,
    List.dropWhile_append_of_pos before]
  simp

/-- The first part is the text before the first `=`. -/
theorem splitEquals_some {s k v : GoString} (split : splitEquals s = some (k, v)) :
    equals ∈ s ∧ k = s.takeWhile (· ≠ equals) := by
  unfold splitEquals at split
  rw [List.span_eq_takeWhile_dropWhile] at split
  split at split
  · next same =>
    obtain ⟨rfl, rest⟩ := Prod.mk.inj same
    cases split
    refine ⟨?_, rfl⟩
    by_contra absent
    have all : ∀ b ∈ s, decide (b ≠ equals) = true := fun b member => by
      simpa using fun same : b = equals => absent (same ▸ member)
    rw [List.dropWhile_eq_nil_iff.mpr all] at rest
    cases rest
  · cases split

theorem exists_splitEquals {s : GoString} (member : equals ∈ s) :
    ∃ v, s = s.takeWhile (· ≠ equals) ++ equals :: v := by
  induction s with
  | nil => cases member
  | cons b s ih =>
    by_cases here : b = equals
    · subst here
      exact ⟨s, by simp⟩
    · obtain ⟨v, rest⟩ := ih (List.mem_of_ne_of_mem (Ne.symm here) member)
      refine ⟨v, ?_⟩
      rw [List.takeWhile_cons_of_pos (by simpa using here), List.cons_append, ← rest]

/-! ### Decimal numbers -/

theorem graphic_of_digit {b : UInt8} (digit : isDigit b = true) : graphic b = true := by
  simp only [isDigit, graphic, Bool.and_eq_true, decide_eq_true_eq, UInt8.le_iff_toNat_le] at *
  simp at *
  omega

/-- `s` writes `n` in decimal digits. -/
structure IsDecimal (s : GoString) (n : Nat) : Prop where
  nonempty : s ≠ []
  digits : s.all isDigit = true
  value : decimal s = n

theorem parseUint_of_decimal {s : GoString} {n : Nat} (written : IsDecimal s n) (bits : Nat) :
    parseUint s bits = if n < Nat.pow 2 bits then some n else none := by
  unfold parseUint
  rw [if_pos ⟨written.nonempty, written.digits⟩, written.value]

private theorem toNat_digit {n : Nat} {c : Char} (member : c ∈ Nat.toDigits 10 n) :
    c.toNat.toUInt8.toNat = c.toNat ∧ 48 ≤ c.toNat ∧ c.toNat ≤ 57 := by
  have digit := Char.isDigit_iff_toNat.mp
    (Nat.isDigit_of_mem_toDigits (by decide) (by decide) member)
  simp only [Char.reduceToNat] at digit
  refine ⟨?_, digit⟩
  rw [Nat.toUInt8_eq, UInt8.toNat_ofNat']
  omega

theorem itoa_isDecimal (n : Nat) : IsDecimal (itoa n) n where
  nonempty := by simp [itoa, Nat.toDigits_ne_nil]
  digits := by
    simp only [itoa, List.all_map, List.all_eq_true, Function.comp_apply, isDigit]
    intro c member
    obtain ⟨same, low, high⟩ := toNat_digit member
    simp [UInt8.le_iff_toNat_le, same, low, high]
  value := by
    unfold decimal itoa
    rw [List.foldl_map]
    refine Eq.trans (List.foldl_ext _ _ 0 fun m c member => ?_) Nat.ofDigitChars_ten_toDigits
    rw [(toNat_digit member).1]
    rfl

theorem itoa_length_mono {n m : Nat} (le : n ≤ m) : (itoa n).length ≤ (itoa m).length := by
  have pos : 0 < (Nat.toDigits 10 m).length := Nat.length_toDigits_pos
  simp only [itoa, List.length_map]
  rw [Nat.length_toDigits_le_iff (by decide) pos]
  exact Nat.lt_of_le_of_lt le ((Nat.length_toDigits_le_iff (by decide) pos).mp le_rfl)

end HostapdGrpc.Go
