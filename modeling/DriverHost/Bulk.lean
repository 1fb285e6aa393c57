import DriverHost.TransferPlatform

/-!
# Transfers

A transfer as the protocol engine tracks it.  Preparing one describes its buffer by a page
list, which the transfer then owns; completing it gives the page list up.  A buffer that
cannot be described leaves the transfer as it was, and completing a transfer without a page
list does nothing.

Main results:

- Structure `Bulk` and definition `Bulk.withPageList`.
- Definitions `Kernel.prepareBulk` and `Kernel.completeBulk` are the code that runs.
-/

namespace DriverHost

/-- Which way a transfer goes. -/
inductive BulkDirection where
  /-- To the VideoCore. -/
  | transmit
  /-- From the VideoCore. -/
  | receive
deriving DecidableEq, Repr

/-- What a transfer means for the device. -/
def BulkDirection.direction : BulkDirection → Direction
  | transmit => .write
  | receive => .read

/-- A name of memory that belongs to the VideoCore, which this platform does not use. -/
abbrev MemoryHandle : Type := UInt32

namespace MemoryHandle

/-- The handle of no memory. -/
def invalid : MemoryHandle := 0

/-- The text of a handle in the log. -/
def text (handle : MemoryHandle) : String :=
  "MemHandle(" ++ toString handle.toNat ++ ")"

end MemoryHandle

/-- A transfer as the engine tracks it. -/
structure Bulk where
  /-- The memory handle it was prepared with. -/
  handle : MemoryHandle := MemoryHandle.invalid
  /-- The bus address of the page list. -/
  data : UInt32 := 0
  /-- Bytes to transfer. -/
  size : UInt64
  /-- Bytes transferred, negative if the transfer was given up. -/
  actual : Int32 := 0
  direction : BulkDirection
  /-- The page list, until the transfer is complete. -/
  pageList : Option PageList := none
deriving DecidableEq, Repr

/-- A transfer with the handle and the page list it was prepared with. -/
def Bulk.withPageList (bulk : Bulk) (handle : MemoryHandle) (list : PageList) : Bulk :=
  { bulk with handle, data := list.busAddress, pageList := some list }

namespace Kernel

variable {η κ : Type}

/-- Describe a number of bytes at a buffer for a transfer. -/
def prepareBulk {ε : Type} (busOf : UInt64 → UInt32) (bulk : Bulk)
    (handle : MemoryHandle) (buffer size : UInt64) (direction : BulkDirection) :
    Coroutine ε (Kernel η κ) (TransferStatus × Bulk) := do
  if handle ≠ MemoryHandle.invalid then
    Coroutine.act (report .warning
      ("bulk memory handle " ++ MemoryHandle.text handle ++ " ignored"))
  match ← (PageList.create busOf buffer size direction.direction).zoom transferView with
  | .error e =>
      Coroutine.act (report .warning ("create_pagelist failed: " ++ e.message))
      return (.error, bulk)
  | .ok list => return (.success, bulk.withPageList handle list)

/-- Give up the page list of a transfer that is over, if it has one. -/
def completeBulk {ε : Type} (bulk : Bulk) : Coroutine ε (Kernel η κ) Bulk := do
  match bulk.pageList with
  | none => return bulk
  | some list =>
      (PageList.finish list bulk.actual).zoom transferView
      return { bulk with pageList := none }

/-- Transfers are started by the VideoCore only. -/
def transferBulk {α : Type} : Except Fault α :=
  .error (.bug none)

end Kernel

/-- Copy as much of one buffer into another as both hold; the driver's buffers need no
check. -/
def copyFromUser (target source : List UInt8) : List UInt8 :=
  let count := min target.length source.length
  source.take count ++ target.drop count

end DriverHost
