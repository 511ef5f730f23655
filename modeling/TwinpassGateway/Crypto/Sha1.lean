import TwinpassGateway.Foundation.Blocks
import TwinpassGateway.Foundation.Run
import TwinpassGateway.Foundation.Word

/-!
SHA-1 on the hash engine of the DEU: `ifxdeu-sha1.c`, built without DMA. The engine holds one running
state; a context holds the length and the bytes that do not fill a block yet.
-/

namespace TwinpassGateway.Crypto

open Foundation

/-! ### SHA-1 -/

structure Digest where
  d1 : U32
  d2 : U32
  d3 : U32
  d4 : U32
  d5 : U32
  deriving DecidableEq

def sha1Iv : Digest := ⟨0x67452301#32, 0xEFCDAB89#32, 0x98BADCFE#32, 0x10325476#32, 0xC3D2E1F0#32⟩

def bytes64 (n : Nat) : List U8 := (List.range 8).map fun i => BitVec.ofNat 8 (n >>> (8 * (7 - i)))

def Digest.bytes (d : Digest) : List U8 := bytes32 d.d1 ++ bytes32 d.d2 ++ bytes32 d.d3 ++ bytes32 d.d4 ++ bytes32 d.d5

def words16 (block : List U8) : List U32 := (List.range 16).map fun i => be32 (block.drop (4 * i))

def roundTerm (t : Nat) (x y z : U32) : U32 :=
  if t < 20 then ((x &&& (y ^^^ z)) ^^^ z) + 0x5A827999#32
  else if t < 40 then (x ^^^ y ^^^ z) + 0x6ED9EBA1#32
  else if t < 60 then (((x ||| y) &&& z) ||| (x &&& y)) + 0x8F1BBCDC#32
  else (x ^^^ y ^^^ z) + 0xCA62C1D6#32

/-- The rounds from `t` on, with the sixteen schedule words that are next. -/
def sha1Rounds : Nat → Nat → Digest → List U32 → Digest
  | 0, _, s, _ => s
  | more + 1, t, s, w =>
    let next := s.d1.rotateLeft 5 + roundTerm t s.d2 s.d3 s.d4 + s.d5 + w.getD 0 0
    let extra := (w.getD 13 0 ^^^ w.getD 8 0 ^^^ w.getD 2 0 ^^^ w.getD 0 0).rotateLeft 1
    sha1Rounds more (t + 1) ⟨next, s.d1, s.d2.rotateLeft 30, s.d3, s.d4⟩ (w.drop 1 ++ [extra])

def compress (s : Digest) (block : List U8) : Digest :=
  let r := sha1Rounds 80 0 s (words16 block)
  ⟨s.d1 + r.d1, s.d2 + r.d2, s.d3 + r.d3, s.d4 + r.d4, s.d5 + r.d5⟩

def sha1Pad (message : List U8) : List U8 :=
  message ++ (0x80#8 :: List.replicate ((119 - message.length % 64) % 64) 0) ++ bytes64 (8 * message.length % 2 ^ 64)

def sha1 (message : List U8) : List U8 := ((blocks 64 (sha1Pad message)).foldl compress sha1Iv).bytes

/-! ### The engine -/

structure DeuHash where
  sm : Bool
  /-- `ALGO`: MD5 when set. -/
  algo : Bool
  digest : Digest
  /-- The blocks that the engine has processed since the last write to `INIT`, while it is started. -/
  fed : Option (List (List U8)) := none

/-- `sha1_transform`: the sixteen words start the engine if its start mode is on. -/
def sha1Transform (h : DeuHash) (block : List U8) : DeuHash :=
  if h.sm && !h.algo then
    { h with digest := compress h.digest (block.take 64), fed := h.fed.map (· ++ [block.take 64]) }
  else h

structure Sha1HwCtx where
  count : Nat
  buffer : List U8

def Sha1HwCtx.zero : Sha1HwCtx := { count := 0, buffer := List.replicate 64 0 }

def sha1Init (h : DeuHash) : DeuHash × Sha1HwCtx :=
  ({ h with sm := true, algo := false, digest := sha1Iv, fed := some [] }, .zero)

def memcpyTo (buffer : List U8) (off : Nat) (src : List U8) : List U8 :=
  buffer.take off ++ src ++ buffer.drop (off + src.length)

/-- The loop of `sha1_update`; `data.length` turns are always enough. -/
def transformLoop (data : List U8) : Nat → DeuHash → Nat → DeuHash × Nat
  | 0, h, i => (h, i)
  | turns + 1, h, i =>
    if u32 (i + 63) < data.length then transformLoop data turns (sha1Transform h (data.drop i)) (i + 64) else (h, i)

def sha1Update (h : DeuHash) (sctx : Sha1HwCtx) (data : List U8) : DeuHash × Sha1HwCtx :=
  let len := data.length
  let j := (sctx.count / 8) % 64
  let count := (sctx.count + u32 (len * 8)) % 2 ^ 64
  if u32 (j + len) > 63 then
    let buffer := memcpyTo sctx.buffer j (data.take (64 - j))
    let (h, i) := transformLoop data len (sha1Transform h buffer) (64 - j)
    (h, { count, buffer := memcpyTo buffer 0 (data.drop i) })
  else (h, { count, buffer := memcpyTo sctx.buffer j data })

def padding : List U8 := 0x80#8 :: List.replicate 63 0

/-- `sha1_final`: the digest, and the engine and the context afterwards. -/
def sha1Final (h : DeuHash) (sctx : Sha1HwCtx) : List U8 × DeuHash × Sha1HwCtx :=
  let bits := bytes64 sctx.count
  let index := (sctx.count / 8) % 64
  let padlen := if index < 56 then 56 - index else (64 + 56) - index
  let (h, sctx) := sha1Update h sctx (padding.take padlen)
  let (h, _) := sha1Update h sctx bits
  (h.digest.bytes, { h with sm := false, fed := none }, .zero)

/-! ### Contexts -/

inductive Sha1Call where
  | init (c : Nat)
  | update (c : Nat) (data : List U8)
  | final (c : Nat)

structure Sha1Deu where
  hash : DeuHash
  ctx : Nat → Sha1HwCtx := fun _ => .zero
  /-- The data passed to each context since it was initialised or finished. -/
  message : Nat → List U8 := fun _ => []
  /-- Every digest produced, with the data it is for. -/
  digests : List (List U8 × List U8) := []

def Sha1Deu.step (s : Sha1Deu) : Sha1Call → Sha1Deu
  | .init c =>
    let (hash, sctx) := sha1Init s.hash
    { s with hash, ctx := Function.update s.ctx c sctx, message := Function.update s.message c [] }
  | .update c data =>
    let (hash, sctx) := sha1Update s.hash (s.ctx c) data
    { s with hash, ctx := Function.update s.ctx c sctx, message := Function.update s.message c (s.message c ++ data) }
  | .final c =>
    let (out, hash, sctx) := sha1Final s.hash (s.ctx c)
    { s with
      hash
      ctx := Function.update s.ctx c sctx
      message := Function.update s.message c []
      digests := s.digests ++ [(s.message c, out)] }

/-- What the calls alone say about the engine. -/
structure Sha1Use where
  /-- Whose calls completed the blocks since the last `sha1_init`, while no `sha1_final` has followed it. -/
  feeders : Option (List Nat) := none
  /-- How much was passed to each context since it was initialised or finished. -/
  length : Nat → Nat := fun _ => 0

def Sha1Use.step (u : Sha1Use) : Sha1Call → Sha1Use
  | .init c => { feeders := some [], length := Function.update u.length c 0 }
  | .update c data =>
    { feeders := u.feeders.map (· ++ List.replicate ((u.length c % 64 + data.length) / 64) c)
      length := Function.update u.length c (u.length c + data.length) }
  | .final c => { feeders := none, length := Function.update u.length c 0 }

/-- A chunk whose length in bits is a `u32`, and a final call with no final call since the last initialisation of
any context and no block completed since then by another context, or before it by this one. -/
def Sha1Use.Undisturbed (u : Sha1Use) : Sha1Call → Prop
  | .init _ => True
  | .update _ data => data.length < 2 ^ 29
  | .final c => u.feeders = some (List.replicate (u.length c / 64) c)

instance (u : Sha1Use) : ∀ call, Decidable (u.Undisturbed call)
  | .init _ => instDecidableTrue
  | .update _ data => inferInstanceAs (Decidable (data.length < 2 ^ 29))
  | .final c => inferInstanceAs (Decidable (u.feeders = some (List.replicate (u.length c / 64) c)))

end TwinpassGateway.Crypto
