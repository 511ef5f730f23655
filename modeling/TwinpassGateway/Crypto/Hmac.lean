import TwinpassGateway.Crypto.Md5
import TwinpassGateway.Crypto.Sha1Contexts
import TwinpassGateway.Foundation.Hmac

/-!
HMAC through the security API: `hmac_set_key` and `hmac_hash` of `sec_api.c` for MD5 and SHA-1.
`stack` stands for what an uninitialised buffer holds.
-/

namespace TwinpassGateway.Crypto

open Foundation

structure HmacContext where
  kOpad : List U8
  kIpad : List U8
  deriving DecidableEq

def xorPad (c : U8) : Nat → List U8 → List U8
  | _, [] => []
  | 0, pad => pad
  | n + 1, b :: pad => (b ^^^ c) :: xorPad c n pad

def hmacSetKey (e : Hasher) (blockSize digestSize : Nat) (s : e.State) (stack key : List U8) :
    Int × HmacContext × e.State :=
  let (key_, keylen, s) :=
    if key.length > blockSize then
      let (out, s) := e.final (e.update (e.init s) key)
      (memcpyTo stack 0 out, digestSize, s)
    else (memcpyTo stack 0 key, key.length, s)
  let pad := memcpyTo (List.replicate (blockSize + 1) 0) 0 (key_.take keylen)
  (0, { kOpad := xorPad 0x5C#8 blockSize pad, kIpad := xorPad 0x36#8 blockSize pad }, s)

def hmacPasses (e : Hasher) (blockSize digestSize : Nat) (s : e.State) (ctx : HmacContext) (stack dat : List U8) :
    List U8 × e.State :=
  let (out, s) := e.final (e.update (e.update (e.init s) (ctx.kIpad.take blockSize)) dat)
  let digest := (memcpyTo stack 0 out).take digestSize
  e.final (e.update (e.update (e.init s) (ctx.kOpad.take blockSize)) digest)

def md5TwinpassHmacSetKey (e : Hasher) (s : e.State) (stack key : List U8) : Int × HmacContext × e.State :=
  hmacSetKey e 64 16 s stack key

/-- `_md5_twinpass_hmac_hash`: its result and what it leaves at `hash`; it does not look at `hashlen`. -/
def md5TwinpassHmacHash (e : Hasher) (s : e.State) (ctx : HmacContext) (stack dat hash : List U8) (_hashlen : Nat) :
    Int × List U8 × e.State :=
  let (out, s) := hmacPasses e 64 16 s ctx stack dat
  (0, memcpyTo hash 0 out, s)

def sha1TwinpassHmacSetKey (e : Hasher) (s : e.State) (stack key : List U8) : Int × HmacContext × e.State :=
  hmacSetKey e 64 20 s stack key

/-- `_sha1_twinpass_hmac_hash`: its result and what it leaves at `hash`. -/
def sha1TwinpassHmacHash (e : Hasher) (s : e.State) (ctx : HmacContext) (stack dat hash : List U8) (hashlen : Nat) :
    Int × List U8 × e.State :=
  let (out, s) := hmacPasses e 64 20 s ctx stack dat
  if hashlen = 20 then (0, memcpyTo hash 0 out, s)
  else
    let hashBuf := memcpyTo stack 0 out
    (0, memcpyTo hash 0 (hashBuf.take hashlen), s)

/-! ### The pads -/

theorem sha1_length (message : List U8) : (sha1 message).length = 20 := rfl

theorem xorPad_take (c : U8) (n : Nat) (pad : List U8) : (xorPad c n pad).take n = (pad.take n).map (· ^^^ c) := by
  induction n generalizing pad with
  | zero => rfl
  | succ n ih =>
    cases pad with
    | nil => rfl
    | cons b pad => exact congrArg _ (ih pad)

/-- What `key_` holds, copied into a zeroed pad, is the key as it fills a block. -/
theorem pad_blockKey {H : List U8 → List U8} {n : Nat} {key short : List U8} (fits : short.length ≤ n)
    (same : short = if key.length > n then H key else key) :
    (memcpyTo (List.replicate (n + 1) 0) 0 short).take n = blockKey H n key := by
  have zeros : (List.replicate (n + 1) (0 : U8)).drop short.length = List.replicate (n + 1 - short.length) 0 :=
    List.drop_replicate
  rw [memcpyTo, List.take_zero, List.nil_append, Nat.zero_add, zeros, List.take_append, List.take_of_length_le fits,
    List.take_replicate, blockKey, ← same]
  congr 2
  omega

variable {e : Hasher} {H : List U8 → List U8} {ok : List U8 → Prop} {blockSize digestSize : Nat}

theorem setKey_pads (computes : e.Computes H ok) (size : ∀ message, (H message).length = digestSize)
    (less : digestSize ≤ blockSize) (s : e.State) (stack : List U8) {key : List U8} (fine : ok key) :
    (hmacSetKey e blockSize digestSize s stack key).2.1.kIpad.take blockSize =
        (blockKey H blockSize key).map (· ^^^ ipad) ∧
      (hmacSetKey e blockSize digestSize s stack key).2.1.kOpad.take blockSize =
        (blockKey H blockSize key).map (· ^^^ opad) := by
  have digest := computes.one s fine
  by_cases long : key.length > blockSize
  · have kept : (memcpyTo stack 0 (H key)).take digestSize = H key := by
      rw [← size key]
      exact memcpyTo_start
    have filled : (memcpyTo (List.replicate (blockSize + 1) 0) 0 (H key)).take blockSize = blockKey H blockSize key :=
      pad_blockKey (by rw [size]; exact less) (if_pos long).symm
    simp only [hmacSetKey, long, if_true, digest, kept, xorPad_take, filled, ipad, opad, and_self]
  · have filled : (memcpyTo (List.replicate (blockSize + 1) 0) 0 key).take blockSize = blockKey H blockSize key :=
      pad_blockKey (by omega) (if_neg long).symm
    simp only [hmacSetKey, long, if_false, memcpyTo_start, xorPad_take, filled, ipad, opad, and_self]

/-! ### The two calls -/

/-- The engine may be in different states in the two calls. -/
theorem passes_hmac (computes : e.Computes H ok) (size : ∀ message, (H message).length = digestSize)
    (less : digestSize ≤ blockSize) (s s' : e.State) (stack stack' key text : List U8) (fine : ok key)
    (fine' : ok text) (small : ∀ piece : List U8, piece.length ≤ blockSize → ok piece) :
    (hmacPasses e blockSize digestSize s' (hmacSetKey e blockSize digestSize s stack key).2.1 stack' text).1 =
      hmac H blockSize key text := by
  obtain ⟨inner, outer⟩ := setKey_pads computes size less s stack fine
  have padded : ∀ pad : List U8, ok (pad.take blockSize) := fun pad => small _ (List.length_take_le _ _)
  have first := computes.two s' (padded (hmacSetKey e blockSize digestSize s stack key).2.1.kIpad) fine'
  have kept : ∀ message, (memcpyTo stack' 0 (H message)).take digestSize = H message := by
    intro message
    rw [← size message]
    exact memcpyTo_start
  show (e.final (e.update (e.update (e.init _) _) _)).1 = _
  rw [first, kept, computes.two _ (padded _) (small _ (by rw [size]; exact less)), inner, outer]
  rfl

theorem memcpyTo_start_take {buffer src : List U8} {k : Nat} (short : k ≤ src.length) :
    (memcpyTo buffer 0 src).take k = src.take k := by
  rw [memcpyTo, List.take_zero, List.nil_append]
  exact List.take_append_of_le_length short

theorem sha1Hash_take {e : Hasher} {s : e.State} {ctx : HmacContext} {stack dat hash mac : List U8} {hashlen : Nat}
    (same : (hmacPasses e 64 20 s ctx stack dat).1 = mac) (size : mac.length = 20) :
    (sha1TwinpassHmacHash e s ctx stack dat hash hashlen).2.1.take (min hashlen 20) = mac.take hashlen := by
  unfold sha1TwinpassHmacHash
  dsimp only
  rw [same]
  by_cases whole : hashlen = 20
  · rw [if_pos whole, whole, Nat.min_self]
    exact memcpyTo_start_take (Nat.le_of_eq size.symm)
  · have copied : min hashlen 20 ≤ ((memcpyTo stack 0 mac).take hashlen).length := by
      simp [memcpyTo, size]
    rw [if_neg whole]
    calc (memcpyTo hash 0 ((memcpyTo stack 0 mac).take hashlen)).take (min hashlen 20)
        = ((memcpyTo stack 0 mac).take hashlen).take (min hashlen 20) := memcpyTo_start_take copied
      _ = (memcpyTo stack 0 mac).take (min hashlen 20) := by rw [List.take_take, Nat.min_right_comm, Nat.min_self]
      _ = mac.take (min hashlen 20) := memcpyTo_start_take (by omega)
      _ = mac.take hashlen := by rw [← size, ← List.take_eq_take_min]

theorem hmac_hash_is_hmac {md5Engine sha1Engine : Hasher} (isMd5 : md5Engine.Computes md5 fun _ => True)
    (isSha1 : sha1Engine.Computes sha1 fun _ => True) (m m' : md5Engine.State) (s s' : sha1Engine.State)
    (stack stack' key text hash : List U8) (hashlen : Nat) :
    (md5TwinpassHmacHash md5Engine m' (md5TwinpassHmacSetKey md5Engine m stack key).2.1 stack' text hash hashlen).2.1 =
        memcpyTo hash 0 (hmac md5 64 key text) ∧
      (sha1TwinpassHmacHash sha1Engine s' (sha1TwinpassHmacSetKey sha1Engine s stack key).2.1 stack' text hash
          hashlen).2.1.take (min hashlen 20) =
        (hmac sha1 64 key text).take hashlen := by
  have md5Mac := passes_hmac isMd5 md5_length (show 16 ≤ 64 by decide) m m' stack stack' key text trivial trivial
    fun _ _ => trivial
  have sha1Mac := passes_hmac isSha1 sha1_length (show 20 ≤ 64 by decide) s s' stack stack' key text trivial trivial
    fun _ _ => trivial
  constructor
  · exact congrArg (memcpyTo hash 0) md5Mac
  · exact sha1Hash_take sha1Mac (sha1_length _)

/-- A key of 65 bytes, one more than a block, and a hash length of twelve. -/
theorem hmac_hash_long_key :
    (md5TwinpassHmacHash (.collecting md5) []
        (md5TwinpassHmacSetKey (.collecting md5) [] [] (List.replicate 65 0x6B#8)).2.1 [] [0x48#8, 0x69#8] [] 12).2.1 =
        memcpyTo [] 0 (hmac md5 64 (List.replicate 65 0x6B#8) [0x48#8, 0x69#8]) ∧
      (sha1TwinpassHmacHash (.collecting sha1) []
          (sha1TwinpassHmacSetKey (.collecting sha1) [] [] (List.replicate 65 0x6B#8)).2.1 [] [0x48#8, 0x69#8] []
          12).2.1.take (min 12 20) =
        (hmac sha1 64 (List.replicate 65 0x6B#8) [0x48#8, 0x69#8]).take 12 :=
  hmac_hash_is_hmac (Hasher.collecting_computes md5) (Hasher.collecting_computes sha1) [] [] [] [] [] [] _ _ [] 12

/-! ### On the SHA-1 driver -/

def sha1Driver : Hasher where
  State := DeuHash × Sha1HwCtx
  init s := sha1Init s.1
  update s data := sha1Update s.1 s.2 data
  final s :=
    let (out, hash, sctx) := sha1Final s.1 s.2
    (out, hash, sctx)

theorem sha1Updates_digest {state : DeuHash × Sha1HwCtx} {message : List U8} {pieces : List (List U8)}
    (small : ∀ piece ∈ pieces, piece.length < 2 ^ 29) (running : state.1.Running) (holds : state.2.Holds message)
    (fed : state.1.fed = some (blocks 64 message)) :
    (sha1Final (pieces.foldl (fun s data => sha1Update s.1 s.2 data) state).1
      (pieces.foldl (fun s data => sha1Update s.1 s.2 data) state).2).1 = sha1 (message ++ pieces.flatten) := by
  induction pieces generalizing state message with
  | nil =>
    rw [List.flatten_nil, List.append_nil]
    exact sha1Final_digest running holds fed
  | cons piece rest ih =>
    obtain ⟨fits, later⟩ := List.forall_mem_cons.mp small
    rw [List.foldl_cons, List.flatten_cons, ← List.append_assoc]
    apply ih later
    · exact sha1Update_running running holds fits
    · exact (sha1Update_holds holds fits).2
    · exact sha1Update_fed running holds fits fed

theorem sha1Driver_computes : sha1Driver.Computes sha1 fun piece => piece.length < 2 ^ 29 := by
  intro s pieces small
  have empty : (sha1Init s.1).1.fed = some (blocks 64 []) := rfl
  have digest := sha1Updates_digest small (sha1Init_running s.1) zero_holds empty
  rw [List.nil_append] at digest
  rw [← digest]
  rfl

/-- HMAC-SHA-1 on the engine, whatever state either call finds it in. -/
theorem sha1_driver_hmac (s s' : sha1Driver.State) (stack stack' : List U8) {key text : List U8}
    (small : key.length < 2 ^ 29) (small' : text.length < 2 ^ 29) :
    (hmacPasses sha1Driver 64 20 s' (sha1TwinpassHmacSetKey sha1Driver s stack key).2.1 stack' text).1 =
      hmac sha1 64 key text :=
  passes_hmac sha1Driver_computes sha1_length (show 20 ≤ 64 by decide) s s' stack stack' key text small small'
    fun _ less => by omega

end TwinpassGateway.Crypto
