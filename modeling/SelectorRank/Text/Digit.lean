import SelectorRank.Text.Blank

/-! Decimal numerals, written with ASCII digits and read with the decimal digits of every script. -/
namespace SelectorRank.Text

def digitZeros : List Nat := [
  0x30, 0x660, 0x6f0, 0x7c0, 0x966, 0x9e6, 0xa66, 0xae6, 0xb66, 0xbe6,
  0xc66, 0xce6, 0xd66, 0xde6, 0xe50, 0xed0, 0xf20, 0x1040, 0x1090, 0x17e0,
  0x1810, 0x1946, 0x19d0, 0x1a80, 0x1a90, 0x1b50, 0x1bb0, 0x1c40, 0x1c50, 0xa620,
  0xa8d0, 0xa900, 0xa9d0, 0xa9f0, 0xaa50, 0xabf0, 0xff10, 0x104a0, 0x10d30, 0x11066,
  0x110f0, 0x11136, 0x111d0, 0x112f0, 0x11450, 0x114d0, 0x11650, 0x116c0, 0x11730, 0x118e0,
  0x11950, 0x11c50, 0x11d50, 0x11da0, 0x16a60, 0x16ac0, 0x16b50, 0x1d7ce, 0x1d7d8, 0x1d7e2,
  0x1d7ec, 0x1d7f6, 0x1e140, 0x1e2f0, 0x1e950, 0x1fbf0]

def digitValue? (c : Char) : Option Nat :=
  (digitZeros.find? (fun first => first ≤ c.toNat && c.toNat < first + 10)).map (c.toNat - ·)

def isDigit (c : Char) : Bool := (digitValue? c).isSome

def numeralLimit : Nat := 4300

def numeralFault : String :=
  "Exceeds the limit (4300 digits) for integer string conversion; " ++
    "use sys.set_int_max_str_digits() to increase the limit"

def natural (n : Nat) : List Char := Nat.toDigits 10 n

def integer (i : Int) : List Char :=
  if i < 0 then '-' :: natural i.natAbs else natural i.natAbs

def ofDigitValues (ds : List Nat) : Nat := ds.foldl (fun n d => 10 * n + d) 0

def groupedDigits : List Char → Option (List Nat)
  | [] => none
  | c :: cs => do
      let d ← digitValue? c
      match cs with
      | [] => some [d]
      | '_' :: rest => (groupedDigits rest).map (d :: ·)
      | rest => (groupedDigits rest).map (d :: ·)

def unsigned? (cs : List Char) : Option Nat := do
  let ds ← groupedDigits cs
  if ds.length ≤ numeralLimit then some (ofDigitValues ds) else none

/-- Blanks around a numeral. The four separator controls are not among them. -/
def isNumeralBlank (c : Char) : Bool := isBlank c && !(0x1c ≤ c.toNat && c.toNat ≤ 0x1f)

def integer? (cs : List Char) : Option Int :=
  match trim isNumeralBlank cs with
  | '+' :: rest => (unsigned? rest).map Int.ofNat
  | '-' :: rest => (unsigned? rest).map (fun n => -Int.ofNat n)
  | rest => (unsigned? rest).map Int.ofNat

end SelectorRank.Text
