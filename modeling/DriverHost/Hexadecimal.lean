/-!
# Hexadecimal text

Addresses and words are printed with lower-case digits after `0x`.  A width counts the two
leading characters and is filled with zeros behind them, so a number too long for its width
is printed whole.

Main results:

- Definition `hexText` prints a number and `hexTextWide` prints it in a width.
- Definition `bytesOfHex?` reads pairs of digits as bytes.
-/

namespace DriverHost

/-- The lower-case hexadecimal digits of a number, most significant first. -/
def hexDigits (n : Nat) : List Char :=
  Nat.toDigits 16 n

/-- A number after `0x`, with at least `width` characters in all. -/
def hexTextWide (width n : Nat) : String :=
  let digits := hexDigits n
  "0x" ++ String.ofList (List.replicate (width - 2 - digits.length) '0' ++ digits)

/-- A number after `0x`, with as many digits as it needs. -/
def hexText (n : Nat) : String :=
  hexTextWide 0 n

/-- The value of a hexadecimal digit of either case. -/
def hexDigit? (c : Char) : Option Nat :=
  if '0' ≤ c ∧ c ≤ '9' then some (c.toNat - '0'.toNat)
  else if 'a' ≤ c ∧ c ≤ 'f' then some (c.toNat - 'a'.toNat + 10)
  else if 'A' ≤ c ∧ c ≤ 'F' then some (c.toNat - 'A'.toNat + 10)
  else none

/-- The bytes that pairs of digits spell, if the digits come in pairs. -/
def bytesOfHex? : List Char → Option (List UInt8)
  | [] => some []
  | [_] => none
  | high :: low :: rest => do
      let upper ← hexDigit? high
      let lower ← hexDigit? low
      let bytes ← bytesOfHex? rest
      return UInt8.ofNat (16 * upper + lower) :: bytes

/-- Two digits for each byte. -/
def hexOfBytes (bytes : List UInt8) : String :=
  String.ofList (bytes.flatMap fun byte =>
    [Nat.digitChar (byte.toNat / 16), Nat.digitChar (byte.toNat % 16)])

end DriverHost
