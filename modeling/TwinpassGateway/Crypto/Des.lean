import TwinpassGateway.Crypto.Aes

/-!
The DES driver of the DEU: `ifxdeu-des.c`, built without DMA.
-/

namespace TwinpassGateway.Crypto

open Foundation

structure Pair where
  hr : U32
  lr : U32
  deriving DecidableEq

def Pair.bytes (p : Pair) : List U8 := bytes32 p.hr ++ bytes32 p.lr

def pairAt (p : List U8) (i : Nat) : Pair := ⟨word p i, word p (i + 1)⟩

/-! ### The engine -/

/-- `des_t`, with the bits of `controlr` the driver uses. -/
structure DesT where
  m : BitVec 3
  sm : Bool
  ars : Bool
  /-- `E_D`: decrypt when set. -/
  eD : Bool
  o : BitVec 3
  dau : Bool
  /-- `IHR` and `ILR`. -/
  input : Pair
  k1 : Pair
  k2 : Pair
  k3 : Pair
  iv : Pair
  out : Pair
  deriving DecidableEq

/-- What the engine computes from algorithm, mode, direction, keys, initialisation vector and data: the output
and the next initialisation vector. -/
abbrev DesCrypt := BitVec 3 → BitVec 3 → Bool → List Pair → Pair → Pair → Pair × Pair

def DesT.keys (des : DesT) : List Pair :=
  if des.m = 3 then [des.k1, des.k2] else if des.m = 4 then [des.k1, des.k2, des.k3] else [des.k1]

def DesT.start (crypt : DesCrypt) (des : DesT) : DesT :=
  if des.sm then
    let (out, iv) := crypt des.m des.o des.eD des.keys des.iv des.input
    { des with out, iv := if des.dau then des.iv else iv }
  else des

/-! ### Setting a key -/

/-- What the set-key operations of the drivers work on: the registers, the context and whether interrupts are
enabled. The context argument is not used. -/
structure Deu (R : Type) where
  regs : R
  ctx : List U32
  irq : Bool
  deriving DecidableEq

structure KeySet (R : Type) where
  ret : Int
  flags : U32
  deu : Deu R
  deriving DecidableEq

def cryptoTfmReqWeakKey : U32 := 0x00000100#32

def cryptoTfmResWeakKey : U32 := 0x00100000#32

def parityTable : List Nat :=
  [8, 1, 0, 8, 0, 8, 8, 0, 0, 8, 8, 0, 8, 0, 2, 8, 0, 8, 8, 0, 8, 0, 0, 8, 8, 0, 0, 8, 0, 8, 8, 3,
   0, 8, 8, 0, 8, 0, 0, 8, 8, 0, 0, 8, 0, 8, 8, 0, 8, 0, 0, 8, 0, 8, 8, 0, 0, 8, 8, 0, 8, 0, 0, 8,
   0, 8, 8, 0, 8, 0, 0, 8, 8, 0, 0, 8, 0, 8, 8, 0, 8, 0, 0, 8, 0, 8, 8, 0, 0, 8, 8, 0, 8, 0, 0, 8,
   8, 0, 0, 8, 0, 8, 8, 0, 0, 8, 8, 0, 8, 0, 0, 8, 0, 8, 8, 0, 8, 0, 0, 8, 8, 0, 0, 8, 0, 8, 8, 0,
   0, 8, 8, 0, 8, 0, 0, 8, 8, 0, 0, 8, 0, 8, 8, 0, 8, 0, 0, 8, 0, 8, 8, 0, 0, 8, 8, 0, 8, 0, 0, 8,
   8, 0, 0, 8, 0, 8, 8, 0, 0, 8, 8, 0, 8, 0, 0, 8, 0, 8, 8, 0, 8, 0, 0, 8, 8, 0, 0, 8, 0, 8, 8, 0,
   8, 0, 0, 8, 0, 8, 8, 0, 0, 8, 8, 0, 8, 0, 0, 8, 0, 8, 8, 0, 8, 0, 0, 8, 8, 0, 0, 8, 0, 8, 8, 0,
   4, 8, 8, 0, 8, 0, 0, 8, 8, 0, 0, 8, 0, 8, 8, 0, 8, 5, 0, 8, 0, 8, 8, 0, 0, 8, 8, 0, 8, 0, 6, 8]

def parity (b : U8) : U32 := BitVec.ofNat 32 (parityTable.getD b.toNat 0)

def keyParity (key : List U8) : U32 := (key.take 8).foldl (fun n b => (n <<< 4) ||| parity b) 0

def weakTree (n : U32) : Bool :=
  if n < 0x41415151#32 then
    if n < 0x31312121#32 then
      if n < 0x14141515#32 then n == 0x11111111#32 || n == 0x13131212#32
      else n == 0x14141515#32 || n == 0x16161616#32
    else
      if n < 0x34342525#32 then n == 0x31312121#32 || n == 0x33332222#32
      else n == 0x34342525#32 || n == 0x36362626#32
  else
    if n < 0x61616161#32 then
      if n < 0x44445555#32 then n == 0x41415151#32 || n == 0x43435252#32
      else n == 0x44445555#32 || n == 0x46465656#32
    else
      if n < 0x64646565#32 then n == 0x61616161#32 || n == 0x63636262#32
      else n == 0x64646565#32 || n == 0x66666666#32

def initdes (des : DesT) : DesT := { des with ars := true }

def setkey (s : Deu DesT) (key : List U8) (flags : U32) : KeySet DesT :=
  let keylen := key.length
  -- `flag` is what `local_irq_save` stores
  let flag := s.irq
  let s := { s with irq := false }
  let s := { s with regs := initdes { s.regs with m := 0, sm := true } }
  let s := { s with irq := flag }
  if keylen ≠ 8 then ⟨einval, flags, s⟩
  else
    let n := keyParity key
    let w := 0x88888888#32
    if flags &&& cryptoTfmReqWeakKey ≠ 0 ∧ (n - (w >>> 3)) &&& w = 0 ∧ weakTree n then
      ⟨einval, flags ||| cryptoTfmResWeakKey, s⟩
    else
      let flag := s.irq
      let s := { s with irq := false }
      let s := { s with regs := { s.regs with k1 := pairAt key 0 } }
      ⟨0, flags, { s with irq := flag }⟩

def desSetkey (s : Deu DesT) (key : List U8) (flags : U32) : KeySet DesT := setkey s key flags

/-- `des3_ede_setkey`: the cases of the switch fall through. -/
def des3EdeSetkey (s : Deu DesT) (key : List U8) (flags : U32) : KeySet DesT :=
  let keylen := key.length
  let flag := s.irq
  let s := { s with irq := false }
  if keylen ≠ 24 ∧ keylen ≠ 16 ∧ keylen ≠ 8 then ⟨einval, flags, s⟩
  else
    let des := s.regs
    let des := if keylen = 24 then { des with k3 := pairAt key 4 } else des
    let des := if keylen = 24 ∨ keylen = 16 then { des with k2 := pairAt key 2 } else des
    let des := { des with k1 := pairAt key 0 }
    let des := initdes { des with m := BitVec.ofNat 3 (keylen / 8 + 1), sm := true }
    ⟨0, flags, { s with regs := des, irq := flag }⟩

/-! ### The data -/

/-- The loop of `des_incaip1`, `turns` further turns from word `i` on: the bytes stored, and the registers. -/
def desLoop (crypt : DesCrypt) (rev14 : Bool) (inArg : List U8) : Nat → Nat → DesT → List U8 × DesT
  | 0, _, des => ([], des)
  | turns + 1, i, des =>
    let input := ⟨endianSwap rev14 (word inArg i), endianSwap rev14 (word inArg (i + 1))⟩
    let des := { des with input }.start crypt
    let (rest, after) := desLoop crypt rev14 inArg turns (i + 2) des
    (des.out.bytes ++ rest, after)

/-- `des_incaip1`: the bytes stored from `out_arg` on, and the registers. `in_arg` runs to the end of the readable
memory. -/
def desIncaip1 (crypt : DesCrypt) (rev14 : Bool) (des : DesT) (inArg ivArg : List U8) (nbytes : Nat)
    (encdec mode : Int) : List U8 × DesT :=
  let des := { des with eD := encdec == 0, o := BitVec.ofInt 3 (mode - 1) }
  let des := if 1 < mode then { des with iv := pairAt ivArg 0 } else des
  let nblocks := nbytes / 4
  desLoop crypt rev14 inArg ((nblocks + 1) / 2) 0 des

def cryptoTfmModeCbc : Int := 2

def desIncaip1Cbc (crypt : DesCrypt) (rev14 : Bool) (des : DesT) (src iv : List U8) (nbytes : Nat) (encdec : Int) :
    List U8 × DesT :=
  desIncaip1 crypt rev14 des src iv nbytes encdec cryptoTfmModeCbc

end TwinpassGateway.Crypto
