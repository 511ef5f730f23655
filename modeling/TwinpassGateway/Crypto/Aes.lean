import Mathlib
import TwinpassGateway.Crypto.AesCipher
import TwinpassGateway.Foundation.Run

/-!
The AES driver of the DEU: `ifxdeu-aes.c`, built without DMA. The key is in the registers of the one engine;
the context argument is not used.
-/

namespace TwinpassGateway.Crypto

open Foundation

structure Quad where
  r3 : U32
  r2 : U32
  r1 : U32
  r0 : U32
  deriving DecidableEq

def Quad.words (q : Quad) : List U32 := [q.r3, q.r2, q.r1, q.r0]

def Quad.bytes (q : Quad) : List U8 := q.words.flatMap bytes32

def word (p : List U8) (i : Nat) : U32 := be32 (p.drop (4 * i))

def quad (p : List U8) : Quad := ⟨word p 0, word p 1, word p 2, word p 3⟩

/-! ### The engine -/

/-- `aes_t`, with the bits of `controlr` the driver uses. -/
structure AesT where
  sm : Bool
  k : BitVec 2
  /-- `E_D`: decrypt when set. -/
  eD : Bool
  o : BitVec 3
  kv : Bool
  dau : Bool
  id : Quad
  /-- `K7R` to `K4R`. -/
  kHigh : Quad
  /-- `K3R` to `K0R`. -/
  kLow : Quad
  iv : Quad
  od : Quad

/-- What the engine computes from mode, direction, key, initialisation vector and data: the output and the
next initialisation vector. -/
abbrev Crypt := BitVec 3 → Bool → List U32 → Quad → Quad → Quad × Quad

def aesCrypt : Crypt := fun o decrypt key iv data =>
  let (out, iv) := aesBytes o.toNat decrypt key iv.bytes data.bytes
  (quad out, quad iv)

def AesT.keyFor (aes : AesT) (k : BitVec 2) : List U32 :=
  if k = 0 then aes.kLow.words
  else if k = 1 then [aes.kHigh.r1, aes.kHigh.r0] ++ aes.kLow.words
  else if k = 2 then aes.kHigh.words ++ aes.kLow.words
  else []

def AesT.start (crypt : Crypt) (aes : AesT) : AesT :=
  if aes.sm then
    let (od, iv) := crypt aes.o aes.eD (aes.keyFor aes.k) aes.iv aes.id
    { aes with od, iv := if aes.dau then aes.iv else iv }
  else aes

/-! ### The driver -/

def einval : Int := -22

def cryptoTfmResBadKeyLen : U32 := 0x00200000#32

def keyLenField (keyLen : Nat) : BitVec 2 := BitVec.ofInt 2 (keyLen / 8 - 2 : Int)

def aesSetKey (aes : AesT) (inKey : List U8) (flags : U32) : Int × U32 × AesT :=
  let keyLen := inKey.length
  let aes := { aes with sm := true, k := keyLenField keyLen }
  if keyLen ≠ 16 ∧ keyLen ≠ 24 ∧ keyLen ≠ 32 then (einval, flags ||| cryptoTfmResBadKeyLen, aes)
  else
    let w := word inKey
    let aes :=
      if keyLen = 128 / 8 then { aes with kLow := ⟨w 0, w 1, w 2, w 3⟩ }
      else if keyLen = 192 / 8 then
        { aes with kHigh := { aes.kHigh with r1 := w 0, r0 := w 1 }, kLow := ⟨w 2, w 3, w 4, w 5⟩ }
      else { aes with kHigh := ⟨w 0, w 1, w 2, w 3⟩, kLow := ⟨w 4, w 5, w 6, w 7⟩ }
    -- `PNK` lets the hardware prepare the decryption key, and `KV` says that it has
    (0, flags, { aes with kv := true })

/-- `ENDIAN_SWAP`, which swaps on the chip revisions from 1.4 on. -/
def endianSwap (rev14 : Bool) (x : U32) : U32 := if rev14 then be32 (bytes32 x).reverse else x

def AesT.input (rev14 : Bool) (aes : AesT) (inArg : List U8) (nbytes : Nat) : AesT :=
  let w (i : Nat) : U32 := endianSwap rev14 (word inArg i)
  match nbytes with
  | 16 => { aes with id := ⟨w 0, w 1, w 2, w 3⟩ }
  | 8 => { aes with id := { aes.id with r1 := w 0, r0 := w 1 } }
  | 4 => { aes with id := { aes.id with r0 := w 0 } }
  | 2 => { aes with id := { aes.id with r0 := endianSwap rev14 (0#16 ++ inArg.getD 0 0 ++ inArg.getD 1 0) } }
  | 1 => { aes with id := { aes.id with r0 := endianSwap rev14 (0#24 ++ inArg.getD 0 0) } }
  | _ => aes

/-- The registers as they are when the engine is about to start, or `none` when the call does not get there:
it waits for `KV` with interrupts off, or it reads a vector through a null pointer. -/
def aesPrepare (rev14 : Bool) (aes : AesT) (inArg : List U8) (ivArg : Option (List U8)) (nbytes : Nat)
    (encdec mode : Int) : Option AesT :=
  let aes := { aes with eD := encdec == 0, o := BitVec.ofInt 3 (mode - 1) }
  if encdec = 0 ∧ aes.kv = false then none
  else if 1 < mode ∧ (aes.dau = true ∨ ivArg.isSome = true) then
    ivArg.map fun iv => { aes with iv := quad iv }.input rev14 inArg nbytes
  else some (aes.input rev14 inArg nbytes)

/-- The lengths for which a case of the switch writes `ID0R`. -/
def startLengths : List Nat := [16, 8, 4, 2, 1]

def aesIfxdeu (crypt : Crypt) (rev14 : Bool) (aes : AesT) (inArg : List U8) (ivArg : Option (List U8)) (nbytes : Nat)
    (encdec mode : Int) : Option (List U8 × AesT) :=
  (aesPrepare rev14 aes inArg ivArg nbytes encdec mode).map fun aes =>
    let aes := if nbytes ∈ startLengths then aes.start crypt else aes
    (aes.od.bytes, aes)

/-! ### Contexts -/

def keyWords (key : List U8) : List U32 := (List.range (key.length / 4)).map (word key)

/-- The arguments of an encrypt or decrypt call, but for the context. -/
structure AesJob where
  inArg : List U8
  ivArg : Option (List U8)
  nbytes : Nat
  encdec : Int
  mode : Int

namespace AesJob

def o (job : AesJob) : BitVec 3 := BitVec.ofInt 3 (job.mode - 1)

def decrypt (job : AesJob) : Bool := job.encdec == 0

/-- The data of the call and nothing else, as the input registers take it. -/
def data (rev14 : Bool) (job : AesJob) : Quad :=
  let w (i : Nat) : U32 := endianSwap rev14 (word job.inArg i)
  match job.nbytes with
  | 16 => ⟨w 0, w 1, w 2, w 3⟩
  | 8 => ⟨0, 0, w 0, w 1⟩
  | 4 => ⟨0, 0, 0, w 0⟩
  | 2 => ⟨0, 0, 0, endianSwap rev14 (0#16 ++ job.inArg.getD 0 0 ++ job.inArg.getD 1 0)⟩
  | 1 => ⟨0, 0, 0, endianSwap rev14 (0#24 ++ job.inArg.getD 0 0)⟩
  | _ => ⟨0, 0, 0, 0⟩

def passed (job : AesJob) : Option Quad := if 1 < job.mode then job.ivArg.map quad else none

end AesJob

/-- A context with an engine of its own: the key last set without an error, and the vector that its operations go on
with when none is passed. -/
structure AesOwn where
  key : Option (List U8) := none
  vector : Option Quad := none

namespace AesOwn

variable (crypt : Crypt) (rev14 : Bool)

def compute (own : AesOwn) (key : List U8) (job : AesJob) : Quad × Quad :=
  crypt job.o job.decrypt (keyWords key) ((job.passed.or own.vector).getD ⟨0, 0, 0, 0⟩) (job.data rev14)

def next (dau : Bool) (own : AesOwn) (job : AesJob) : AesOwn where
  key := own.key
  vector := own.key.bind fun key => (job.passed.or own.vector).map fun vector =>
    if dau then vector else (own.compute crypt rev14 key job).2

end AesOwn

inductive AesCall where
  | setKey (c : Nat) (inKey : List U8) (flags : U32)
  | crypt (c : Nat) (job : AesJob)

structure AesResult where
  ctx : Nat
  /-- The context before the call, as its own calls alone have left it. -/
  own : AesOwn
  job : AesJob
  out : List U8

structure AesDeu where
  aes : AesT
  own : Nat → AesOwn := fun _ => {}
  /-- The key last set on any context without an error. -/
  lastKey : Option (List U8) := none
  /-- The key length of the last call of `aes_set_key`, with or without an error. -/
  lastLen : Nat := 0
  /-- The context of the last operation that passed a vector or was not in ECB mode. -/
  vectorOf : Option Nat := none
  results : List AesResult := []

def AesDeu.step (crypt : Crypt) (rev14 : Bool) (s : AesDeu) : AesCall → AesDeu
  | .setKey c inKey flags =>
    let (ret, _, aes) := aesSetKey s.aes inKey flags
    if ret = 0 then
      { s with
        aes
        own := Function.update s.own c { s.own c with key := some inKey }
        lastKey := some inKey
        lastLen := inKey.length }
    else { s with aes, lastLen := inKey.length }
  | .crypt c job =>
    match aesIfxdeu crypt rev14 s.aes job.inArg job.ivArg job.nbytes job.encdec job.mode with
    | some (out, aes) =>
      { s with
        aes
        own := Function.update s.own c ((s.own c).next crypt rev14 s.aes.dau job)
        vectorOf := if job.o = 0 ∧ job.passed = none then s.vectorOf else some c
        results := s.results ++ [⟨c, s.own c, job, out⟩] }
    | none => s

/-- The result is the one that the context's own engine would give under a key. -/
def AesResult.Under (crypt : Crypt) (rev14 : Bool) (r : AesResult) (key : List U8) : Prop :=
  r.out = (r.own.compute crypt rev14 key r.job).1.bytes

/-- The input registers that an operation of this length does not write hold zero. -/
def Quad.ClearBeside (id : Quad) (nbytes : Nat) : Prop :=
  match nbytes with
  | 16 => True
  | 8 => id.r3 = 0 ∧ id.r2 = 0
  | _ => id.r3 = 0 ∧ id.r2 = 0 ∧ id.r1 = 0

/-- A data operation of a length that starts the engine, on a context whose key is the one that was last set on
any context, and since then no call with a wrong key length has changed the field `K`. What the call does not write
is as it would be in an engine of its own: the other input registers, and the vector when it is used and not passed. -/
def AesDeu.InPlace (s : AesDeu) : AesCall → Prop
  | .setKey .. => True
  | .crypt c job => ∀ key ∈ (s.own c).key,
    job.nbytes ∈ startLengths ∧ s.lastKey = some key ∧ keyLenField s.lastLen = keyLenField key.length ∧
      s.aes.id.ClearBeside job.nbytes ∧
      (job.o = 0 ∨ job.passed ≠ none ∨ s.vectorOf = some c ∧ (s.own c).vector ≠ none)

end TwinpassGateway.Crypto
