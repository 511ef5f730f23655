import Mathlib.Data.BitVec
import Mathlib.Data.List.Infix
import Mathlib.Data.List.TakeWhile
import Mathlib.Tactic
import TwinpassGateway.Foundation.Word

/-!
C strings, and char arrays that are written with the functions of `string.h`. A pointer into an array is an offset
that may lie outside; an access outside is undefined.
-/

namespace TwinpassGateway.Foundation

structure CString where
  chars : List U8
  noNul : 0#8 ∉ chars

def ascii (c : Char) : U8 := BitVec.ofNat 8 c.toNat

def asciiText (s : String) : List U8 := s.toList.map ascii

theorem asciiText_append (s t : String) : asciiText (s ++ t) = asciiText s ++ asciiText t := by
  unfold asciiText
  rw [String.toList_append, List.map_append]

theorem asciiText_length (s : String) : (asciiText s).length = s.length := by
  rw [asciiText, List.length_map, String.length_toList]

/-- `isspace` in the C locale, which the library tabulates for negative characters too. -/
def isspace (c : U8) : Bool := c = 0x20#8 ∨ (0x09#8 ≤ c ∧ c ≤ 0x0D#8)

/-- A length that is passed as a `size_t`. -/
def sizeT (n : Int) : Nat := (n % 2 ^ 32).toNat

theorem sizeT_ofNat {n : Nat} (small : n < 2 ^ 32) : sizeT n = n := by
  unfold sizeT
  omega

def strstr (needle : List U8) : List U8 → Option Nat
  | [] => if needle = [] then some 0 else none
  | c :: rest => if needle <+: c :: rest then some 0 else (strstr needle rest).map (· + 1)

/-- `char a[size]`. -/
structure CharArray (size : Nat) where
  bytes : List U8
  length_eq : bytes.length = size

namespace CharArray

variable {size : Nat}

def store (a : CharArray size) (p : Int) (src : List U8) : Option (CharArray size) :=
  if fits : 0 ≤ p ∧ p + src.length ≤ size then
    some ⟨a.bytes.take p.toNat ++ src ++ a.bytes.drop (p.toNat + src.length), by
      have := a.length_eq
      simp only [List.length_append, List.length_take, List.length_drop]
      omega⟩
  else none

def memcpy (a : CharArray size) (p : Int) (src : List U8) (n : Nat) : Option (CharArray size) :=
  if n ≤ src.length then a.store p (src.take n) else none

def strncpy (a : CharArray size) (p : Int) (src : List U8) (n : Nat) : Option (CharArray size) :=
  a.store p (src.take n ++ List.replicate (n - src.length) 0#8)

def memmove (a : CharArray size) (dst src : Int) (n : Nat) : Option (CharArray size) :=
  if 0 ≤ src ∧ src + n ≤ size then a.store dst ((a.bytes.drop src.toNat).take n) else none

def text (a : CharArray size) (p : Nat) : List U8 := (a.bytes.drop p).takeWhile (· ≠ 0#8)

def strlen (a : CharArray size) (p : Int) : Option Nat :=
  if 0 ≤ p ∧ 0#8 ∈ a.bytes.drop p.toNat then some (a.text p.toNat).length else none

end CharArray

/-! ### What the functions write -/

namespace CharArray

section Writes

variable {size last p n : Nat} {src s done : List U8}

theorem store_eq (a : CharArray size) (p : Nat) (src : List U8) (fits : p + src.length ≤ size) :
    ∃ b : CharArray size, a.store p src = some b ∧ b.bytes = a.bytes.take p ++ src ++ a.bytes.drop (p + src.length) :=
  ⟨_, dif_pos ⟨Int.natCast_nonneg p, by exact_mod_cast fits⟩, rfl⟩

theorem memcpy_eq (a : CharArray size) (known : n ≤ src.length) (fits : p + n ≤ size) :
    ∃ b : CharArray size, a.memcpy p src n = some b ∧ b.bytes.take (p + n) = a.bytes.take p ++ src.take n := by
  have copied : (src.take n).length = n := List.length_take_of_le known
  obtain ⟨b, stored, bytes⟩ := store_eq a p (src.take n) (by rw [copied]; exact fits)
  refine ⟨b, (if_pos known).trans stored, ?_⟩
  have front : (a.bytes.take p ++ src.take n).length = p + n := by
    have := a.length_eq
    rw [List.length_append, copied, List.length_take]
    omega
  rw [bytes, ← front, List.take_left]

/-- A string that is copied up to the last character of an array, which is then set to NUL. -/
theorem strncpy_eq (a : CharArray size) (s : List U8) (whole : last + 1 = size) (inside : p ≤ last) :
    ∃ b c : CharArray size, a.strncpy p s (last - p) = some b ∧ b.store last [0#8] = some c ∧
      c.bytes = a.bytes.take p ++ (s.take (last - p) ++ List.replicate (last - p - s.length) 0#8) ++ [0#8] := by
  have copied : (s.take (last - p) ++ List.replicate (last - p - s.length) 0#8).length = last - p := by
    rw [List.length_append, List.length_take, List.length_replicate]
    omega
  have length := a.length_eq
  obtain ⟨b, filled, bytes⟩ := store_eq a p
    (s.take (last - p) ++ List.replicate (last - p - s.length) 0#8) (by rw [copied]; omega)
  obtain ⟨c, ended, bytes'⟩ := store_eq b last [0#8] whole.le
  have front : (a.bytes.take p ++ (s.take (last - p) ++ List.replicate (last - p - s.length) 0#8)).length = last := by
    rw [List.length_append, copied, List.length_take]
    omega
  refine ⟨b, c, filled, ended, ?_⟩
  have nothing : b.bytes.drop (last + [0#8].length) = [] := List.drop_eq_nil_of_le (b.length_eq.trans whole.symm).le
  rw [bytes', nothing, List.append_nil, bytes]
  nth_rewrite 1 [← front]
  rw [List.take_left]

theorem text_eq {a : CharArray size} {front rest : List U8} (bytes : a.bytes = front ++ (s ++ 0#8 :: rest))
    (noNul : 0#8 ∉ s) : a.text front.length = s := by
  have visible : ∀ c ∈ s, decide (c ≠ 0#8) = true := by
    intro c member
    rw [decide_eq_true_eq]
    rintro rfl
    exact noNul member
  unfold text
  rw [bytes, List.drop_left, List.takeWhile_append_of_pos visible, List.takeWhile_cons_of_neg (by simp),
    List.append_nil]

theorem strlen_eq {a : CharArray size} {front rest : List U8} (bytes : a.bytes = front ++ (s ++ 0#8 :: rest))
    (noNul : 0#8 ∉ s) : a.strlen front.length = some s.length := by
  have ended : 0#8 ∈ a.bytes.drop (Int.toNat front.length) := by
    rw [Int.toNat_natCast, bytes, List.drop_left]
    simp
  unfold strlen
  rw [if_pos ⟨Int.natCast_nonneg _, ended⟩, Int.toNat_natCast, text_eq bytes noNul]

theorem text_front {a : CharArray size} {rest : List U8} (bytes : a.bytes = s ++ 0#8 :: rest) (noNul : 0#8 ∉ s) :
    a.text 0 = s := by
  have bytes' : a.bytes = [] ++ (s ++ 0#8 :: rest) := bytes
  exact text_eq bytes' noNul

theorem strlen_front {a : CharArray size} {rest : List U8} (bytes : a.bytes = s ++ 0#8 :: rest) (noNul : 0#8 ∉ s) :
    a.strlen 0 = some s.length := by
  have bytes' : a.bytes = [] ++ (s ++ 0#8 :: rest) := bytes
  exact strlen_eq bytes' noNul

/-- An array that holds a string at its start. -/
theorem text_split {a : CharArray size} (ended : 0#8 ∈ a.bytes) :
    ∃ rest, a.bytes = a.text 0 ++ 0#8 :: rest ∧ 0#8 ∉ a.text 0 := by
  have clean : 0#8 ∉ a.text 0 := fun member => by simpa using List.mem_takeWhile_imp member
  have parts : a.text 0 ++ a.bytes.dropWhile (· ≠ 0#8) = a.bytes := List.takeWhile_append_dropWhile
  cases behind : a.bytes.dropWhile (· ≠ 0#8) with
  | nil =>
    rw [behind, List.append_nil] at parts
    exact absurd (parts ▸ ended) clean
  | cons c rest =>
    have stop : c = 0#8 := by
      have head := List.head?_dropWhile_not (fun c : U8 => decide (c ≠ 0#8)) a.bytes
      rw [behind] at head
      simpa using head
    rw [behind, stop] at parts
    exact ⟨rest, parts.symm, clean⟩

theorem memmove_front (a : CharArray size) {src : Nat} (inside : src + n ≤ size) :
    ∃ b : CharArray size, a.memmove 0 src n = some b ∧ b.bytes = (a.bytes.drop src).take n ++ a.bytes.drop n := by
  have moved : ((a.bytes.drop src).take n).length = n := by
    have := a.length_eq
    rw [List.length_take, List.length_drop]
    omega
  obtain ⟨b, stored, bytes⟩ := store_eq a 0 ((a.bytes.drop src).take n) (by rw [moved]; omega)
  rw [moved, List.take_zero, List.nil_append, Nat.zero_add] at bytes
  exact ⟨b, (if_pos ⟨Int.natCast_nonneg src, by exact_mod_cast inside⟩).trans stored, bytes⟩

end Writes

end CharArray

end TwinpassGateway.Foundation
