import TwinpassGateway.Foundation.CharArray

/-!
`str_left`, `str_right` and `str_mid` of `str.c`, which cut a string in place.
-/

namespace TwinpassGateway.Util

open Foundation

/-- An allocation; no object has 2^31 bytes. -/
structure Block where
  size : Nat
  array : CharArray size

/-- A string in an allocation, which may be longer than the string. -/
structure HeapString extends Block where
  ended : 0#8 ∈ array.bytes
  small : size < 2 ^ 31

def Block.text (b : Block) : List U8 := b.array.text 0

/-- `str_alloc`, which asks for memory with `strdup`. -/
def strAlloc (memory : Bool) : Option Block := if memory then some ⟨1, ⟨[0#8], rfl⟩⟩ else none

/-- `str_left`: what `*s` becomes, unless something undefined happens. -/
def strLeft (memory : Bool) (s : Option HeapString) (len : Int) : Option (Option Block) :=
  match s with
  | none => some (strAlloc memory)
  | some s => do
    let n ← s.array.strlen 0
    if n ≤ len then some (some s.toBlock)
    else
      let array ← s.array.store len [0#8]
      some (some ⟨s.size, array⟩)

def strRight (memory : Bool) (s : Option HeapString) (len : Int) : Option (Option Block) :=
  match s with
  | none => some (strAlloc memory)
  | some s => do
    let n ← s.array.strlen 0
    if n ≤ len then some (some s.toBlock)
    else
      let array ← s.array.memmove 0 (n - len) (sizeT (len + 1))
      some (some ⟨s.size, array⟩)

/-- The function asks whether `s` is null, not `*s`. The sum of `from` and `len` is undefined where it is no `int`. -/
def strMid (s : Option HeapString) (from_ len : Int) : Option (Option Block) :=
  match s with
  | none => none
  | some s => do
    let n ← s.array.strlen 0
    if from_ > n then
      let array ← s.array.store 0 [0#8]
      some (some ⟨s.size, array⟩)
    else if from_ + len ≥ 2 ^ 31 then none
    else
      let n : Int := if from_ + len > n then from_ + len else n
      let array ← s.array.memmove 0 from_ (sizeT (n + 1))
      some (some ⟨s.size, array⟩)

/-! ### What is expected -/

inductive Cut where
  | left (len : Fin (2 ^ 31))
  | right (len : Fin (2 ^ 31))
  | mid (from_ len : Fin (2 ^ 31))

namespace Cut

def run (memory : Bool) (s : Option HeapString) : Cut → Option (Option Block)
  | left len => strLeft memory s len.val
  | right len => strRight memory s len.val
  | mid from_ len => strMid s from_.val len.val

def part (s : List U8) : Cut → List U8
  | left len => s.take len
  | right len => s.drop (s.length - len)
  | mid from_ len => (s.drop from_).take len

/-- The call stays in the allocation and leaves the part, which ends with a NUL in the allocation. -/
def Meets (memory : Bool) (s : Option HeapString) (c : Cut) : Prop :=
  ∃ b : Block, c.run memory s = some (some b) ∧ 0#8 ∈ b.array.bytes ∧
    b.text = c.part (s.elim [] fun s => s.text)

/-- For no string there must be memory for an empty one, and `str_mid` takes none. `str_mid` must be asked for nothing, or
for the whole end of the string, with an allocation that reaches as far again as the part does from the start. -/
def Suits (memory : Bool) (s : Option HeapString) : Cut → Prop
  | left _ => s = none → memory = true
  | right _ => s = none → memory = true
  | mid from_ len => ∃ str, s = some str ∧ (str.text.length < from_.val ∨
      (str.text.length ≤ from_.val + len.val ∧ from_.val + (from_.val + len.val) < str.size))

end Cut

/-! ### Strings at the start of an allocation -/

section Cutting

variable {s : HeapString} {b : Block} {t rest : List U8}

theorem holds_text (bytes : b.array.bytes = t ++ 0#8 :: rest) (clean : 0#8 ∉ t) :
    0#8 ∈ b.array.bytes ∧ b.text = t := by
  refine ⟨?_, CharArray.text_front bytes clean⟩
  rw [bytes]
  simp

theorem heap_split (s : HeapString) : ∃ rest, s.array.bytes = s.text ++ 0#8 :: rest ∧ 0#8 ∉ s.text :=
  CharArray.text_split s.ended

theorem heap_strlen (s : HeapString) : s.array.strlen 0 = some s.text.length := by
  obtain ⟨rest, bytes, clean⟩ := heap_split s
  exact CharArray.strlen_front bytes clean

theorem text_inside (s : HeapString) : s.text.length < s.size := by
  obtain ⟨rest, bytes, _⟩ := heap_split s
  have length := congrArg List.length bytes
  rw [s.array.length_eq, List.length_append, List.length_cons] at length
  omega

theorem drop_take_text (rest : List U8) {from_ n : Nat} (low : from_ ≤ t.length) (high : t.length - from_ ≤ n) :
    ∃ more, ((t ++ 0#8 :: rest).drop from_).take (n + 1) = t.drop from_ ++ 0#8 :: more := by
  obtain ⟨k, same⟩ : ∃ k, n + 1 = (t.drop from_).length + (k + 1) :=
    ⟨n - (t.length - from_), by rw [List.length_drop]; omega⟩
  refine ⟨rest.take k, ?_⟩
  rw [same, List.drop_append_of_le_length low, List.take_length_add_append, List.take_succ_cons]

theorem move_gives (s : HeapString) (from_ n : Nat) (low : from_ ≤ s.text.length) (high : s.text.length - from_ ≤ n)
    (inside : from_ + (n + 1) ≤ s.size) :
    ∃ array, s.array.memmove 0 from_ (sizeT (n + 1)) = some array ∧ 0#8 ∈ array.bytes ∧
      Block.text ⟨s.size, array⟩ = s.text.drop from_ := by
  obtain ⟨rest, bytes, clean⟩ := heap_split s
  have small := s.small
  have count : sizeT ((n : Int) + 1) = n + 1 := sizeT_ofNat (n := n + 1) (by omega)
  obtain ⟨array, moved, after⟩ := s.array.memmove_front inside
  obtain ⟨more, front⟩ := drop_take_text rest low high
  rw [bytes, front, List.append_assoc] at after
  obtain ⟨ended, text⟩ := holds_text (b := ⟨s.size, array⟩) after fun member => clean (List.mem_of_mem_drop member)
  exact ⟨array, by rw [count, moved], ended, text⟩

theorem cut_gives (s : HeapString) {len : Nat} (low : len ≤ s.text.length) :
    ∃ array, s.array.store len [0#8] = some array ∧ 0#8 ∈ array.bytes ∧
      Block.text ⟨s.size, array⟩ = s.text.take len := by
  obtain ⟨rest, bytes, clean⟩ := heap_split s
  have room := text_inside s
  obtain ⟨array, stored, after⟩ := s.array.store_eq len [0#8] (by rw [List.length_singleton]; omega)
  rw [bytes, List.take_append_of_le_length low, List.append_assoc] at after
  obtain ⟨ended, text⟩ := holds_text (b := ⟨s.size, array⟩) after fun member => clean (List.mem_of_mem_take member)
  exact ⟨array, stored, ended, text⟩

end Cutting

/-! ### The three functions -/

theorem strLeft_gives (memory : Bool) (s : HeapString) (len : Nat) :
    ∃ b, strLeft memory (some s) len = some (some b) ∧ 0#8 ∈ b.array.bytes ∧ b.text = s.text.take len := by
  simp only [strLeft, heap_strlen, Option.bind_eq_bind, Option.bind_some, Nat.cast_le]
  split
  · rename_i short
    exact ⟨s.toBlock, rfl, s.ended, (List.take_of_length_le short).symm⟩
  · rename_i long
    obtain ⟨array, stored, ended, text⟩ := cut_gives s (Nat.le_of_not_le long)
    exact ⟨⟨s.size, array⟩, by rw [stored]; rfl, ended, text⟩

theorem strRight_gives (memory : Bool) (s : HeapString) (len : Nat) :
    ∃ b, strRight memory (some s) len = some (some b) ∧ 0#8 ∈ b.array.bytes ∧
      b.text = s.text.drop (s.text.length - len) := by
  have room := text_inside s
  simp only [strRight, heap_strlen, Option.bind_eq_bind, Option.bind_some, Nat.cast_le]
  split
  · rename_i short
    exact ⟨s.toBlock, rfl, s.ended, by rw [Nat.sub_eq_zero_of_le short, List.drop_zero]⟩
  · rename_i long
    rw [← Nat.cast_sub (Nat.le_of_not_le long)]
    obtain ⟨array, moved, ended, text⟩ := move_gives s (s.text.length - len) len (by omega) (by omega) (by omega)
    exact ⟨⟨s.size, array⟩, by rw [moved]; rfl, ended, text⟩

theorem strMid_behind (s : HeapString) {from_ : Nat} (len : Nat) (behind : s.text.length < from_) :
    ∃ b, strMid (some s) from_ len = some (some b) ∧ 0#8 ∈ b.array.bytes ∧ b.text = [] := by
  obtain ⟨array, stored, ended, text⟩ := cut_gives s (Nat.zero_le _)
  refine ⟨⟨s.size, array⟩, ?_, ended, text⟩
  simp only [strMid, heap_strlen, Option.bind_eq_bind, Option.bind_some]
  rw [if_pos (by exact_mod_cast behind)]
  rw [Nat.cast_zero] at stored
  rw [stored]
  rfl

/-- What `str_mid` moves when `from` lies in the string: the whole end of the string, and so many bytes that the allocation
has to be longer than the string. -/
theorem strMid_within (s : HeapString) {from_ : Nat} (len : Nat) (within : from_ ≤ s.text.length) :
    (from_ + max s.text.length (from_ + len) < s.size →
      ∃ b, strMid (some s) from_ len = some (some b) ∧ 0#8 ∈ b.array.bytes ∧ b.text = s.text.drop from_) ∧
      (s.size ≤ from_ + max s.text.length (from_ + len) → strMid (some s) from_ len = none) := by
  have small := s.small
  have room := text_inside s
  have count : (if (from_ : Int) + len > s.text.length then (from_ : Int) + len else s.text.length) =
      (max s.text.length (from_ + len) : Nat) := by
    split <;> omega
  have before : ¬ ((from_ : Int) > s.text.length) := by omega
  simp only [strMid, heap_strlen, Option.bind_eq_bind, Option.bind_some, if_neg before, count]
  constructor
  · intro inside
    obtain ⟨array, moved, ended, text⟩ := move_gives s from_ (max s.text.length (from_ + len)) within (by omega)
      (by omega)
    refine ⟨⟨s.size, array⟩, ?_, ended, text⟩
    rw [if_neg (by omega), moved]
    rfl
  · intro outside
    split
    · rfl
    · have moved : s.array.memmove 0 from_ (sizeT ((max s.text.length (from_ + len) : Nat) + 1)) = none := by
        have count : sizeT (((max s.text.length (from_ + len) : Nat) : Int) + 1) = max s.text.length (from_ + len) + 1 :=
          sizeT_ofNat (n := max s.text.length (from_ + len) + 1) (by omega)
        rw [CharArray.memmove, count, if_neg (by omega)]
      rw [moved]
      rfl

theorem cut_meets_iff (memory : Bool) (s : Option HeapString) (c : Cut) : c.Meets memory s ↔ c.Suits memory s := by
  cases s with
  | none =>
    cases c with
    | mid from_ len =>
      refine iff_of_false ?_ (fun ⟨_, same, _⟩ => nomatch same)
      rintro ⟨b, run, _⟩
      cases run
    | left len | right len =>
      cases memory with
      | false =>
        refine iff_of_false ?_ fun suits => nomatch suits rfl
        rintro ⟨b, run, _⟩
        cases run
      | true => exact iff_of_true ⟨_, rfl, by decide, by simp [Cut.part, Block.text, CharArray.text]⟩ fun _ => rfl
  | some s =>
    cases c with
    | left len => exact iff_of_true (strLeft_gives memory s len) fun none => nomatch none
    | right len => exact iff_of_true (strRight_gives memory s len) fun none => nomatch none
    | mid from_ len =>
      obtain behind | within := Nat.lt_or_ge s.text.length from_.val
      · obtain ⟨b, run, ended, text⟩ := strMid_behind s len.val behind
        have nothing : (s.text.drop from_).take len = [] := by rw [List.drop_eq_nil_of_le behind.le, List.take_nil]
        exact iff_of_true ⟨b, run, ended, text.trans nothing.symm⟩ ⟨s, rfl, Or.inl behind⟩
      · obtain ⟨gives, fails⟩ := strMid_within s len.val within
        constructor
        · rintro ⟨b, run, _, text⟩
          by_cases inside : from_.val + max s.text.length (from_.val + len.val) < s.size
          · obtain ⟨b', run', _, text'⟩ := gives inside
            obtain rfl := Option.some.inj (Option.some.inj (run.symm.trans run'))
            have short : (s.text.drop from_).length ≤ len.val :=
              (List.take_eq_self_iff _).mp (text.symm.trans text')
            rw [List.length_drop] at short
            exact ⟨s, rfl, Or.inr ⟨by omega, by omega⟩⟩
          · exact absurd (run.symm.trans (fails (Nat.le_of_not_lt inside))) nofun
        · rintro ⟨_, same, suits⟩
          cases same
          obtain ⟨whole, room⟩ := suits.resolve_left (Nat.not_lt.mpr within)
          obtain ⟨b, run, ended, text⟩ := gives (by omega)
          have all : (s.text.drop from_).take len = s.text.drop from_ :=
            List.take_of_length_le (by rw [List.length_drop]; omega)
          exact ⟨b, run, ended, text.trans all.symm⟩

def helloString : HeapString where
  size := 6
  array := ⟨[0x68#8, 0x65#8, 0x6C#8, 0x6C#8, 0x6F#8, 0#8], rfl⟩
  ended := by decide
  small := by decide

/-- Two characters from the second on: the seventh byte would be read. -/
theorem hello_not_cut : ¬ (Cut.mid 1 2).Meets true (some helloString) := by
  rintro ⟨b, run, _⟩
  exact absurd run (by rw [show (Cut.mid 1 2).run true (some helloString) = none by decide]; nofun)

end TwinpassGateway.Util
