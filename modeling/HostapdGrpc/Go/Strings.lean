import Mathlib.Data.List.Basic

/-!
# Go strings

A Go string is a sequence of bytes. This module has the parts of Go's `strings`,
`strconv`, `bufio` and `regexp` packages that the server uses, on byte lists.
-/

namespace HostapdGrpc.Go

abbrev GoString := List UInt8

/-- The bytes of a literal; every literal of the source is ASCII. -/
def lit (s : String) : GoString := s.toList.map fun c => c.toNat.toUInt8

abbrev newline : UInt8 := 10
abbrev carriageReturn : UInt8 := 13
abbrev equals : UInt8 := 61

/-- Decimal digits of a natural number, as `strconv.Itoa` and `%d` print it. -/
def itoa (n : Nat) : GoString := (Nat.toDigits 10 n).map fun c => c.toNat.toUInt8

def itoaInt (z : Int) : GoString :=
  if z < 0 then lit "-" ++ itoa z.natAbs else itoa z.natAbs

/-! ### Trimming and lower case -/

/-- The UTF-8 encodings of the runes with `unicode.IsSpace`. -/
def spaces : List GoString :=
  [[9], [10], [11], [12], [13], [32], [0xC2, 0x85], [0xC2, 0xA0], [0xE1, 0x9A, 0x80],
   [0xE2, 0x80, 0x80], [0xE2, 0x80, 0x81], [0xE2, 0x80, 0x82], [0xE2, 0x80, 0x83],
   [0xE2, 0x80, 0x84], [0xE2, 0x80, 0x85], [0xE2, 0x80, 0x86], [0xE2, 0x80, 0x87],
   [0xE2, 0x80, 0x88], [0xE2, 0x80, 0x89], [0xE2, 0x80, 0x8A], [0xE2, 0x80, 0xA8],
   [0xE2, 0x80, 0xA9], [0xE2, 0x80, 0xAF], [0xE2, 0x81, 0x9F], [0xE3, 0x80, 0x80]]

/-- Drop white space runes from the front; the fuel is the length of the string. -/
def trimLeftFuel : Nat → GoString → GoString
  | 0, s => s
  | n + 1, s =>
    match spaces.find? (·.isPrefixOf s) with
    | some sp => trimLeftFuel n (s.drop sp.length)
    | none => s

/-- As `trimLeftFuel` for the back: no byte of a space is the start of another rune. -/
def trimRightFuel : Nat → GoString → GoString
  | 0, s => s
  | n + 1, s =>
    match spaces.find? (·.isSuffixOf s) with
    | some sp => trimRightFuel n (s.take (s.length - sp.length))
    | none => s

/-- `strings.TrimSpace` -/
def trimSpace (s : GoString) : GoString :=
  trimRightFuel s.length (trimLeftFuel s.length s)

/-- `strings.ToLower`, as far as its result can be ASCII: besides the capital letters,
the Kelvin sign and the dotted capital I have a lower case in ASCII. Other runes are
left as they are, since their lower case is no ASCII text either. -/
def toLower : GoString → GoString
  | 0xE2 :: 0x84 :: 0xAA :: rest => 107 :: toLower rest
  | 0xC4 :: 0xB0 :: rest => 105 :: toLower rest
  | b :: rest => (if 65 ≤ b ∧ b ≤ 90 then b + 32 else b) :: toLower rest
  | [] => []

/-! ### Splitting and scanning -/

/-- `strings.SplitN(s, "=", 2)`, which has two parts only if there is a `=`. -/
def splitEquals (s : GoString) : Option (GoString × GoString) :=
  match s.span (· ≠ equals) with
  | (k, _ :: v) => some (k, v)
  | (_, []) => none

/-- `bufio.MaxScanTokenSize` -/
def maxScanTokenSize : Nat := 64 * 1024

/-- The pieces between newlines; a final newline does not start another piece. -/
def pieces (s : GoString) : List GoString :=
  let ps := s.splitOn newline
  if ps.getLast? = some [] then ps.dropLast else ps

/-- `dropCR` of `bufio.ScanLines` -/
def dropCR (line : GoString) : GoString :=
  if line.getLast? = some carriageReturn then line.dropLast else line

/-- The tokens of a `bufio.Scanner` that scans lines. It stops for good at a line that
does not fit its buffer. -/
def scanLines (s : GoString) : List GoString :=
  ((pieces s).takeWhile fun line => line.length < maxScanTokenSize).map dropCR

/-! ### Numbers -/

def isDigit (b : UInt8) : Bool := 48 ≤ b && b ≤ 57

/-- The value of a string of decimal digits. -/
def decimal (s : GoString) : Nat := s.foldl (fun n b => 10 * n + (b.toNat - 48)) 0

/-- `strconv.ParseUint(s, 10, bits)`: `none` is a syntax or a range error. -/
def parseUint (s : GoString) (bits : Nat) : Option Nat :=
  if s ≠ [] ∧ s.all isDigit then
    if decimal s < Nat.pow 2 bits then some (decimal s) else none
  else none

end HostapdGrpc.Go
