import DriverHost.Fault

/-!
# Alignment

Rounding of addresses and sizes to a power of two, by bit masks: below a power of two every
bit is set in `a - 1`, so clearing those bits rounds down and filling them before adding one
rounds up.  Asking for another alignment breaks the functions' precondition, and rounding up
past the top of the address space overflows.

Main results:

- Definitions `alignDown`, `alignUp` and `isAligned` with their page forms.
- Definition `ByteCount.ofSize` names a size in the largest unit it reaches, rounded up.
-/

namespace DriverHost

/-- Bytes of a page, the unit in which memory is described to the VideoCore. -/
def pageSize : UInt64 := 4096

/-- A power of two has exactly one bit set. -/
def isPowerOfTwo (a : UInt64) : Bool :=
  a != 0 && a &&& (a - 1) == 0

/-- The fault of asking for an alignment that is not a power of two. -/
def badAlignment : Fault := .panic "`alignment` must be a power of two"

/-- The low bits an alignment rules out. -/
def alignMask (alignment : UInt64) : Except Fault UInt64 :=
  if isPowerOfTwo alignment then .ok (alignment - 1) else .error badAlignment

/-- The greatest multiple of the alignment that is at most the value. -/
def alignDown (value alignment : UInt64) : Except Fault UInt64 := do
  let mask ← alignMask alignment
  return value &&& ~~~mask

/-- The least multiple of the alignment that is at least the value. -/
def alignUp (value alignment : UInt64) : Except Fault UInt64 := do
  let mask ← alignMask alignment
  if value &&& mask == 0 then return value
  else addWords (value ||| mask) 1

/-- The value is a multiple of the alignment. -/
def isAligned (value alignment : UInt64) : Except Fault Bool := do
  let mask ← alignMask alignment
  return value &&& mask == 0

/-- A size rounded up to whole pages. -/
def pageAlign (size : UInt64) : Except Fault UInt64 :=
  alignUp size pageSize

/-- The offset of an address inside its page. -/
def pageOffset (address : UInt64) : UInt64 :=
  address &&& (pageSize - 1)

/-- The address of the page that holds an address. -/
def pageBase (address : UInt64) : UInt64 :=
  address &&& ~~~(pageSize - 1)

/-! ## Sizes for people -/

/-- A size as a person reads it. -/
structure ByteCount where
  /-- How many of the unit, rounded up. -/
  amount : UInt64
  /-- The unit's name. -/
  unit : String
deriving DecidableEq, Repr

/-- The size in a unit of the given number of bytes, rounded up. -/
def ByteCount.inUnit (size unitBytes : UInt64) (unit : String) : Except Fault ByteCount := do
  let padded ← addWords size unitBytes
  return ⟨(padded - 1) / unitBytes, unit⟩

/-- A size in mebibytes from one mebibyte on, in kibibytes from one kibibyte on, else in
bytes. -/
def ByteCount.ofSize (size : UInt64) : Except Fault ByteCount :=
  if size ≥ 1048576 then ByteCount.inUnit size 1048576 "MiB"
  else if size ≥ 1024 then ByteCount.inUnit size 1024 "KiB"
  else .ok ⟨size, "Byte"⟩

/-- The text of a size: the amount, a blank and the unit. -/
def ByteCount.text (count : ByteCount) : String :=
  toString count.amount.toNat ++ " " ++ count.unit

end DriverHost
