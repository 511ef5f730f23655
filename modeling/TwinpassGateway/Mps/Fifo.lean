import Mathlib.Data.List.Basic
import Mathlib.Tactic
import TwinpassGateway.Foundation.Word

/-!
The mailbox FIFO shared by the two CPUs: `ifx_mpsdrv_fifo_*` of `mps_tpe_device.c`.
Offsets count 32-bit words from `pstart`, `size` counts bytes. A write is given as its result and
the word stores it performs, in program order, so that its intermediate states can be named.
-/

namespace TwinpassGateway.Mps

open Foundation

inductive MpsCpuId where
  | cpu0
  | cpu1
  deriving DecidableEq

def mpsMinMargin : Nat := 2

/-- `MPS_MSGHDR_LEN`, the size of `mps_message` in bytes. -/
def mpsMsghdrLen : Nat := 8

/-! ### Header fields, all in the second header word `val1` -/

def msgReady (val1 : U32) : Bool := val1.getLsbD 15

def msgNextWrapped (val1 : U32) : Bool := val1.getLsbD 14

def msgLen (val1 : U32) : Nat := (val1.extractLsb' 0 8).toNat

/-- `msg_4bytes` as every reader of the mailbox computes it from the header. -/
def msg4bytes (val1 : U32) : Nat := (mpsMsghdrLen + msgLen val1 + 3) / 4

/-- `mps_fifo`, with the words behind `pstart` and the two offsets it points to. -/
structure MpsFifo where
  mem : Nat → U32
  size : Nat
  preadOff : Nat
  pwriteOff : Nat
  size_lt : size < 2 ^ 32

/-- One store of a mailbox write: a word of the FIFO, or the shared write offset. -/
inductive Store where
  | word (index : Nat) (value : U32)
  | writeOff (off : Nat)

namespace MpsFifo

/-- The FIFO after its memory has been zeroed and `ifx_mpsdrv_fifo_clear` has run. -/
def zeroed (size : Nat) (size_lt : size < 2 ^ 32) : MpsFifo :=
  { mem := fun _ => 0, size, preadOff := 0, pwriteOff := 0, size_lt }

/-- `((mps_message_alias *) (pstart + off))->val1`. -/
def val1 (f : MpsFifo) (off : Nat) : U32 := f.mem (off + 1)

def apply (f : MpsFifo) : Store → MpsFifo
  | .word index value => { f with mem := Function.update f.mem index value }
  | .writeOff off => { f with pwriteOff := off }

def applyAll (f : MpsFifo) (stores : List Store) : MpsFifo := stores.foldl apply f

@[simp] theorem applyAll_nil (f : MpsFifo) : f.applyAll [] = f := rfl

@[simp] theorem applyAll_cons (f : MpsFifo) (st : Store) (rest : List Store) :
    f.applyAll (st :: rest) = (f.apply st).applyAll rest := rfl

theorem applyAll_append (f : MpsFifo) (xs ys : List Store) :
    f.applyAll (xs ++ ys) = (f.applyAll xs).applyAll ys := List.foldl_append

@[simp] theorem apply_size (f : MpsFifo) (st : Store) : (f.apply st).size = f.size := by cases st <;> rfl

@[simp] theorem apply_preadOff (f : MpsFifo) (st : Store) : (f.apply st).preadOff = f.preadOff := by
  cases st <;> rfl

@[simp] theorem applyAll_size (f : MpsFifo) (stores : List Store) : (f.applyAll stores).size = f.size := by
  induction stores generalizing f with
  | nil => rfl
  | cons st rest ih => rw [applyAll_cons, ih, apply_size]

@[simp] theorem applyAll_preadOff (f : MpsFifo) (stores : List Store) :
    (f.applyAll stores).preadOff = f.preadOff := by
  induction stores generalizing f with
  | nil => rfl
  | cons st rest ih => rw [applyAll_cons, ih, apply_preadOff]

end MpsFifo

/-! ### The reader -/

/-- The position the reader looks at: offset 0 once it meets the wrap-around marker. -/
def readPosition (f : MpsFifo) : Nat := if msgNextWrapped (f.val1 f.preadOff) then 0 else f.preadOff

def ifxMpsdrvFifoNotEmpty (f : MpsFifo) : Bool × MpsFifo :=
  let f := { f with preadOff := readPosition f }
  (msgReady (f.val1 f.preadOff), f)

/-- `ifx_mpsdrv_fifo_read`: the offset of the message it returns a pointer to. -/
def ifxMpsdrvFifoRead (f : MpsFifo) : Option Nat × MpsFifo :=
  let f := { f with preadOff := readPosition f }
  (if msgReady (f.val1 f.preadOff) then some f.preadOff else none, f)

def ifxMpsdrvFifoReadPtrInc (f : MpsFifo) (increment : Nat) : MpsFifo :=
  if increment > f.size then f
  else
    { f with
      mem := Function.update f.mem (f.preadOff + 1) (f.val1 f.preadOff &&& ~~~0x8000#32)
      preadOff := u32 (f.preadOff + increment) }

def MpsFifo.message (f : MpsFifo) (off : Nat) : List U32 :=
  (List.range (msg4bytes (f.val1 off))).map fun i => f.mem (off + i)

/-! ### The writer -/

def ifxMpsdrvFifoMemAvailable (f : MpsFifo) : Nat :=
  if f.preadOff > f.pwriteOff then u32 ((f.preadOff - f.pwriteOff) * 4)
  else u32 (f.size + 2 ^ 32 - u32 ((f.pwriteOff - f.preadOff) * 4))

def ifxMpsdrvFifoMemRequest (f : MpsFifo) (bytes : Nat) : Bool := ifxMpsdrvFifoMemAvailable f ≥ bytes

def copyStores (off : Nat) (data : List U32) (words : Nat) : List Store :=
  (List.range words).map fun i => .word (off + i) (data.getD i 0)

/-- The tail of `ifx_mpsdrv_fifo_write` once a place is found: copy, mark ready, move the write
offset, clear the header that follows (`val0 = val1 = 0` stores `val1` first). -/
def entryStores (f : MpsFifo) (off : Nat) (data : List U32) (words : Nat) : List Store :=
  let copied := f.applyAll (copyStores off data words)
  let next := u32 (off + words)
  copyStores off data words ++
    [.word (off + 1) (copied.val1 off ||| 0x8000#32), .writeOff next, .word (next + 1) 0, .word next 0]

/-- The marker left behind when the writer goes back to the beginning. -/
def wrapStores (f : MpsFifo) : List Store := [.word (f.pwriteOff + 1) 0x4000#32, .writeOff 0]

/-- `ifx_mpsdrv_fifo_write`: whether it returns `OK`, and its stores in program order. -/
def ifxMpsdrvFifoWrite (f : MpsFifo) (data : List U32) (length : Nat) : Bool × List Store :=
  if length > f.size then (false, [])
  else if msgReady (f.val1 f.pwriteOff) then (false, [])
  else
    let words := u32 (length + 3) / 4
    if f.pwriteOff < f.preadOff then
      if u32 (f.pwriteOff + words + mpsMinMargin) > f.preadOff then (false, [])
      else (true, entryStores f f.pwriteOff data words)
    else if u32 (f.pwriteOff + words + mpsMinMargin) ≥ f.size / 4 then
      let wrapped := f.applyAll (wrapStores f)
      if msgReady (wrapped.val1 0) then (false, wrapStores f)
      else if u32 (wrapped.pwriteOff + words + mpsMinMargin) > wrapped.preadOff then (false, wrapStores f)
      else (true, wrapStores f ++ entryStores wrapped 0 data words)
    else (true, entryStores f f.pwriteOff data words)

end TwinpassGateway.Mps
