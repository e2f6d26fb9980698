import MemPort.Word

/-!
# Hexadecimal text

Numbers and bytes in base sixteen, with lower-case digits.

## Main definitions

* `Hex.number` — a number with the mark `0x` and no leading zeros.
* `Hex.padded` — a number with at least a given count of digits and no mark.
* `Hex.byteList` — bytes as pairs of digits, in brackets.
* `Hex.ofBytes`, `Hex.toBytes?` — bytes as one run of digits, and back.

## References

`SPEC_FULL.md`, section 10.2: a diagnostic names the address or the request that
it is about.
-/

namespace MemPort.Hex

/-- The digit of a value below sixteen. -/
def digit (n : Nat) : Char := Nat.digitChar n

/-- The digits of a number, highest first. -/
def digits (n : Nat) : List Char := Nat.toDigits 16 n

/-- A number with the mark `0x` before its digits. -/
def number (n : Nat) : String := "0x" ++ String.ofList (digits n)

/-- A number written with at least `width` digits. -/
def padded (width n : Nat) : String :=
  let ds := digits n
  String.ofList (List.replicate (width - ds.length) '0' ++ ds)

/-- The two digits of a byte, highest first. -/
def byteDigits (b : UInt8) : List Char := [digit (b.toNat / 16), digit (b.toNat % 16)]

/-- A byte as two digits. -/
def byte (b : UInt8) : String := String.ofList (byteDigits b)

/-- Bytes as pairs of digits, in brackets and divided by commas. -/
def byteList (bs : Bytes) : String := "[" ++ ", ".intercalate (bs.map byte) ++ "]"

/-- Bytes as one run of digits. -/
def ofBytes (bs : Bytes) : String := String.ofList (bs.flatMap byteDigits)

/-- The value of a digit of either case. -/
def digitValue? (c : Char) : Option Nat :=
  if '0' ≤ c ∧ c ≤ '9' then some (c.toNat - '0'.toNat)
  else if 'a' ≤ c ∧ c ≤ 'f' then some (c.toNat - 'a'.toNat + 10)
  else if 'A' ≤ c ∧ c ≤ 'F' then some (c.toNat - 'A'.toNat + 10)
  else none

/-- The bytes written by pairs of digits. -/
def pairs? : List Char → Option Bytes
  | [] => some []
  | [_] => none
  | hi :: lo :: rest => do
      let h ← digitValue? hi
      let l ← digitValue? lo
      let bs ← pairs? rest
      return (16 * h + l).toUInt8 :: bs

/-- The bytes that a run of digits stands for. -/
def toBytes? (text : String) : Option Bytes := pairs? text.toList

end MemPort.Hex
