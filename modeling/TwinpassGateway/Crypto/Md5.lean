import TwinpassGateway.Foundation.Blocks
import TwinpassGateway.Foundation.Word

/-!
MD5, as the hash engine of the DEU computes it with `ALGO` set.
-/

namespace TwinpassGateway.Crypto

open Foundation

def le32 (bytes : List U8) : U32 := bytes.getD 3 0 ++ bytes.getD 2 0 ++ bytes.getD 1 0 ++ bytes.getD 0 0

def leBytes32 (w : U32) : List U8 := (bytes32 w).reverse

def leBytes64 (n : Nat) : List U8 := (List.range 8).map fun i => BitVec.ofNat 8 (n >>> (8 * i))

structure Md5State where
  a : U32
  b : U32
  c : U32
  d : U32
  deriving DecidableEq

def md5Iv : Md5State := ⟨0x67452301#32, 0xEFCDAB89#32, 0x98BADCFE#32, 0x10325476#32⟩

def Md5State.bytes (s : Md5State) : List U8 := leBytes32 s.a ++ leBytes32 s.b ++ leBytes32 s.c ++ leBytes32 s.d

def md5Sines : List U32 :=
  [0xD76AA478#32, 0xE8C7B756#32, 0x242070DB#32, 0xC1BDCEEE#32, 0xF57C0FAF#32, 0x4787C62A#32,
    0xA8304613#32, 0xFD469501#32, 0x698098D8#32, 0x8B44F7AF#32, 0xFFFF5BB1#32, 0x895CD7BE#32,
    0x6B901122#32, 0xFD987193#32, 0xA679438E#32, 0x49B40821#32, 0xF61E2562#32, 0xC040B340#32,
    0x265E5A51#32, 0xE9B6C7AA#32, 0xD62F105D#32, 0x02441453#32, 0xD8A1E681#32, 0xE7D3FBC8#32,
    0x21E1CDE6#32, 0xC33707D6#32, 0xF4D50D87#32, 0x455A14ED#32, 0xA9E3E905#32, 0xFCEFA3F8#32,
    0x676F02D9#32, 0x8D2A4C8A#32, 0xFFFA3942#32, 0x8771F681#32, 0x6D9D6122#32, 0xFDE5380C#32,
    0xA4BEEA44#32, 0x4BDECFA9#32, 0xF6BB4B60#32, 0xBEBFBC70#32, 0x289B7EC6#32, 0xEAA127FA#32,
    0xD4EF3085#32, 0x04881D05#32, 0xD9D4D039#32, 0xE6DB99E5#32, 0x1FA27CF8#32, 0xC4AC5665#32,
    0xF4292244#32, 0x432AFF97#32, 0xAB9423A7#32, 0xFC93A039#32, 0x655B59C3#32, 0x8F0CCC92#32,
    0xFFEFF47D#32, 0x85845DD1#32, 0x6FA87E4F#32, 0xFE2CE6E0#32, 0xA3014314#32, 0x4E0811A1#32,
    0xF7537E82#32, 0xBD3AF235#32, 0x2AD7D2BB#32, 0xEB86D391#32]

def md5Shifts : List (List Nat) := [[7, 12, 17, 22], [5, 9, 14, 20], [4, 11, 16, 23], [6, 10, 15, 21]]

/-- The function of the round of step `t`, and the word that the step takes. -/
def md5Term (t : Nat) (b c d : U32) : U32 × Nat :=
  if t < 16 then ((b &&& c) ||| (~~~b &&& d), t)
  else if t < 32 then ((d &&& b) ||| (~~~d &&& c), (5 * t + 1) % 16)
  else if t < 48 then (b ^^^ c ^^^ d, (3 * t + 5) % 16)
  else (c ^^^ (b ||| ~~~d), 7 * t % 16)

def md5Step (words : List U32) (s : Md5State) (t : Nat) : Md5State :=
  let (term, g) := md5Term t s.b s.c s.d
  let sum := s.a + term + md5Sines.getD t 0 + words.getD g 0
  ⟨s.d, s.b + sum.rotateLeft ((md5Shifts.getD (t / 16) []).getD (t % 4) 0), s.b, s.c⟩

def md5Compress (s : Md5State) (block : List U8) : Md5State :=
  let words := (List.range 16).map fun i => le32 (block.drop (4 * i))
  let r := (List.range 64).foldl (md5Step words) s
  ⟨s.a + r.a, s.b + r.b, s.c + r.c, s.d + r.d⟩

def md5Pad (message : List U8) : List U8 :=
  message ++ (0x80#8 :: List.replicate ((119 - message.length % 64) % 64) 0) ++ leBytes64 (8 * message.length % 2 ^ 64)

def md5 (message : List U8) : List U8 := ((blocks 64 (md5Pad message)).foldl md5Compress md5Iv).bytes

theorem md5_length (message : List U8) : (md5 message).length = 16 := rfl

example :
    md5 [0x61#8, 0x62#8, 0x63#8] =
      [0x90#8, 0x01#8, 0x50#8, 0x98#8, 0x3C#8, 0xD2#8, 0x4F#8, 0xB0#8, 0xD6#8, 0x96#8, 0x3F#8, 0x7D#8, 0x28#8,
        0xE1#8, 0x7F#8, 0x72#8] := by
  decide +kernel

end TwinpassGateway.Crypto
