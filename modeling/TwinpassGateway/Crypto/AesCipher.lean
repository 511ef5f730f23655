import TwinpassGateway.Foundation.Word

/-!
AES on one block, and the block modes: what the AES engine of the DEU computes.
-/

namespace TwinpassGateway.Crypto

open Foundation

/-! ### Bytes -/

def xtime (a : U8) : U8 := (a <<< 1) ^^^ (if a.msb then 0x1b#8 else 0)

/-- The product of `a` with a factor below sixteen. -/
def gfMul (a : U8) (factor : Nat) : U8 :=
  let term (bit : Nat) (multiple : U8) : U8 := if factor.testBit bit then multiple else 0
  term 0 a ^^^ term 1 (xtime a) ^^^ term 2 (xtime (xtime a)) ^^^ term 3 (xtime (xtime (xtime a)))

def lookup (rows : List Nat) (a : U8) : U8 :=
  BitVec.ofNat 8 (rows.getD (a.toNat / 16) 0 >>> (8 * (15 - a.toNat % 16)))

def sbox : U8 → U8 := lookup
  [0x637c777bf26b6fc53001672bfed7ab76, 0xca82c97dfa5947f0add4a2af9ca472c0, 0xb7fd9326363ff7cc34a5e5f171d83115,
   0x04c723c31896059a071280e2eb27b275, 0x09832c1a1b6e5aa0523bd6b329e32f84, 0x53d100ed20fcb15b6acbbe394a4c58cf,
   0xd0efaafb434d338545f9027f503c9fa8, 0x51a3408f929d38f5bcb6da2110fff3d2, 0xcd0c13ec5f974417c4a77e3d645d1973,
   0x60814fdc222a908846eeb814de5e0bdb, 0xe0323a0a4906245cc2d3ac629195e479, 0xe7c8376d8dd54ea96c56f4ea657aae08,
   0xba78252e1ca6b4c6e8dd741f4bbd8b8a, 0x703eb5664803f60e613557b986c11d9e, 0xe1f8981169d98e949b1e87e9ce5528df,
   0x8ca1890dbfe6426841992d0fb054bb16]

def invSbox : U8 → U8 := lookup
  [0x52096ad53036a538bf40a39e81f3d7fb, 0x7ce339829b2fff87348e4344c4dee9cb, 0x547b9432a6c2233dee4c950b42fac34e,
   0x082ea16628d924b2765ba2496d8bd125, 0x72f8f66486689816d4a45ccc5d65b692, 0x6c704850fdedb9da5e154657a78d9d84,
   0x90d8ab008cbcd30af7e45805b8b34506, 0xd02c1e8fca3f0f02c1afbd0301138a6b, 0x3a9111414f67dcea97f2cfcef0b4e673,
   0x96ac7422e7ad3585e2f937e81c75df6e, 0x47f11a711d29c5896fb7620eaa18be1b, 0xfc563e4bc6d279209adbc0fe78cd5af4,
   0x1fdda8338807c731b11210592780ec5f, 0x60517fa919b54a0d2de57a9f93c99cef, 0xa0e03b4dae2af5b0c8ebbb3c83539961,
   0x172b047eba77d626e169146355210c7d]

/-! ### The key schedule -/

def subWord (w : U32) : U32 := be32 ((bytes32 w).map sbox)

def rcon : Nat → U8
  | 0 => 0x8d#8
  | i + 1 => xtime (rcon i)

def expandKey (nk : Nat) : Nat → List U32 → List U32
  | 0, w => w
  | more + 1, w =>
    let i := w.length
    let last := w.getD (i - 1) 0
    let temp :=
      if i % nk = 0 then subWord (last.rotateLeft 8) ^^^ (rcon (i / nk) ++ 0#24)
      else if 6 < nk ∧ i % nk = 4 then subWord last
      else last
    expandKey nk more (w ++ [w.getD (i - nk) 0 ^^^ temp])

def roundKeys (key : List U32) : List (List U8) :=
  let rounds := key.length + 6
  let w := expandKey key.length (4 * (rounds + 1) - key.length) key
  (List.range (rounds + 1)).map fun r => ((w.drop (4 * r)).take 4).flatMap bytes32

/-! ### One block -/

def xorBytes (xs ys : List U8) : List U8 := List.zipWith (· ^^^ ·) xs ys

def shiftRows (k : Nat) (s : List U8) : List U8 := (List.range 16).map fun i => s.getD ((i + 4 * k * (i % 4)) % 16) 0

def mixColumns (row : List Nat) (s : List U8) : List U8 :=
  (List.range 16).map fun i =>
    let product (k : Nat) : U8 := gfMul (s.getD (4 * (i / 4) + k) 0) (row.getD ((k + 4 - i % 4) % 4) 0)
    product 0 ^^^ product 1 ^^^ product 2 ^^^ product 3

def encryptRounds : List (List U8) → List U8 → List U8
  | [], s => s
  | [last], s => xorBytes (shiftRows 1 (s.map sbox)) last
  | k :: rest, s => encryptRounds rest (xorBytes (mixColumns [2, 3, 1, 1] (shiftRows 1 (s.map sbox))) k)

def encryptBlock (key : List U32) (block : List U8) : List U8 :=
  match roundKeys key with
  | [] => block
  | first :: rest => encryptRounds rest (xorBytes block first)

def decryptRounds : List (List U8) → List U8 → List U8
  | [], s => s
  | [last], s => xorBytes ((shiftRows 3 s).map invSbox) last
  | k :: rest, s => decryptRounds rest (mixColumns [14, 11, 13, 9] (xorBytes ((shiftRows 3 s).map invSbox) k))

def decryptBlock (key : List U32) (block : List U8) : List U8 :=
  match (roundKeys key).reverse with
  | [] => block
  | first :: rest => decryptRounds rest (xorBytes block first)

example : encryptBlock [0x00010203#32, 0x04050607#32, 0x08090a0b#32, 0x0c0d0e0f#32]
    ([0x00112233#32, 0x44556677#32, 0x8899aabb#32, 0xccddeeff#32].flatMap bytes32) =
    [0x69c4e0d8#32, 0x6a7b0430#32, 0xd8cdb780#32, 0x70b4c55a#32].flatMap bytes32 := by decide +kernel

/-! ### Block modes -/

/-- The result and the next initialisation vector. The mode numbers are those of the control register. -/
def aesBytes (mode : Nat) (decrypt : Bool) (key : List U32) (iv data : List U8) : List U8 × List U8 :=
  match mode, decrypt with
  | 0, false => (encryptBlock key data, iv)
  | 0, true => (decryptBlock key data, iv)
  | 1, false =>
    let out := encryptBlock key (xorBytes data iv)
    (out, out)
  | 1, true => (xorBytes (decryptBlock key data) iv, data)
  | 2, _ =>
    let stream := encryptBlock key iv
    (xorBytes data stream, stream)
  | 3, false =>
    let out := xorBytes data (encryptBlock key iv)
    (out, out)
  | 3, true => (xorBytes data (encryptBlock key iv), data)
  | _, _ => (xorBytes data (encryptBlock key iv), iv)

end TwinpassGateway.Crypto
