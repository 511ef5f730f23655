import TwinpassGateway.Foundation.CharArray

/-!
The format of an error report (`rg_error.c`): `_rg_vperror` replaces each `%m` by the text of the error before it formats
the message.
-/

namespace TwinpassGateway.Util

open Foundation

/-! ### The expansion of `%m` -/

def maxErrSize : Nat := 1024

/-- `p_end - format_after_m`. -/
def pEnd : Nat := maxErrSize - 1

def percentM : List U8 := [ascii '%', ascii 'm']

/-- `strncpy(p, s, p_end - p); *p_end = 0;`. -/
def putString (formatAfterM : CharArray maxErrSize) (p : Int) (s : List U8) : Option (CharArray maxErrSize) := do
  let formatAfterM ← formatAfterM.strncpy p s (sizeT (pEnd - p))
  formatAfterM.store pEnd [0#8]

structure Expanding where
  formatAfterM : CharArray maxErrSize
  p : Int
  formatLast : List U8

/-- The body of the loop for a `%m` at `formatCur`. No object is so long that an `int` does not hold the difference of two
pointers into it. -/
def expandDirective (strerror : CString) (s : Expanding) (formatCur : Nat) : Option Expanding := do
  let charsToCopy : Int := formatCur
  let charsToCopy := if charsToCopy > pEnd - s.p then pEnd - s.p else charsToCopy
  let formatAfterM ← s.formatAfterM.memcpy s.p s.formatLast (sizeT charsToCopy)
  let p := s.p + charsToCopy
  let formatAfterM ← putString formatAfterM p strerror.chars
  let length ← formatAfterM.strlen p
  some { formatAfterM, p := p + length, formatLast := s.formatLast.drop (formatCur + 2) }

def expandLoop (strerror : CString) : Nat → Expanding → Option Expanding
  | 0, _ => none
  | fuel + 1, s =>
    match strstr percentM s.formatLast with
    | none => some s
    | some formatCur => (expandDirective strerror s formatCur).bind (expandLoop strerror fuel)

def expandFormat (fuel : Nat) (strerror : CString) (strError : Option CString) (formatAfterM : CharArray maxErrSize)
    (format : CString) : Option (CharArray maxErrSize) := do
  let s ← expandLoop strerror fuel { formatAfterM, p := 0, formatLast := format.chars }
  let formatAfterM ← putString s.formatAfterM s.p s.formatLast
  let length ← formatAfterM.strlen s.p
  let p := s.p + length
  match strError with
  | none => some formatAfterM
  | some text =>
    if p < pEnd then do
      let formatAfterM ← putString formatAfterM p [ascii ':', ascii ' ']
      let length ← formatAfterM.strlen p
      putString formatAfterM (p + length) text.chars
    else some formatAfterM

/-! ### What is expected -/

def expansion (err : List U8) : List U8 → List U8
  | c :: d :: rest =>
    if c = ascii '%' ∧ d = ascii 'm' then err ++ expansion err rest else c :: expansion err (d :: rest)
  | rest => rest

/-- What `rg_perror` adds. -/
def suffix : Option CString → List U8
  | none => []
  | some text => [ascii ':', ascii ' '] ++ text.chars

/-! ### One copy -/

/-- As much of a text as fits stands in front of the cursor. -/
structure Put (a : CharArray maxErrSize) (p : Int) (done : List U8) : Prop where
  noNul : 0#8 ∉ done
  cursor : p = (done.take pEnd).length
  front : done.take pEnd <+: a.bytes

section Copy

variable {a : CharArray maxErrSize} {p : Int} {done s : List U8}

theorem take_append_take (done s : List U8) (n : Nat) :
    (done ++ s).take n = done.take n ++ s.take (n - (done.take n).length) := by
  rw [List.take_append, List.length_take]
  congr 2
  omega

theorem putString_put (put : Put a p done) (noNul : 0#8 ∉ s) :
    ∃ b n, putString a p s = some b ∧ b.strlen p = some n ∧ Put b (p + n) (done ++ s) ∧
      b.text 0 = (done ++ s).take pEnd ∧ 0#8 ∈ b.bytes := by
  obtain ⟨clean, rfl, front⟩ := put
  have inside : (done.take pEnd).length ≤ pEnd := List.length_take_le _ _
  have room : sizeT (pEnd - ((done.take pEnd).length : Int)) = pEnd - (done.take pEnd).length := by
    rw [← Nat.cast_sub inside]
    exact sizeT_ofNat ((Nat.sub_le _ _).trans_lt (by decide))
  obtain ⟨b, c, copied, ended, bytes⟩ := CharArray.strncpy_eq a s (rfl : pEnd + 1 = maxErrSize) inside
  rw [← List.prefix_iff_eq_take.mp front, List.append_assoc, List.append_assoc, ← List.replicate_succ',
    List.replicate_succ] at bytes
  have cut : 0#8 ∉ s.take (pEnd - (done.take pEnd).length) := fun member => noNul (List.mem_of_mem_take member)
  have both : 0#8 ∉ done ++ s := by
    rw [List.mem_append]
    exact not_or.mpr ⟨clean, noNul⟩
  have whole : c.bytes =
      [] ++ ((done ++ s).take pEnd ++ 0#8 :: List.replicate (pEnd - (done.take pEnd).length - s.length) 0#8) := by
    rw [bytes, take_append_take, List.append_assoc]
    rfl
  refine ⟨c, _, ?_, CharArray.strlen_eq bytes cut, ⟨both, ?_, ?_⟩, ?_, ?_⟩
  · unfold putString
    rw [room, copied]
    exact ended
  · rw [take_append_take, List.length_append, Nat.cast_add]
  · rw [whole]
    exact List.prefix_append _ _
  · exact CharArray.text_eq whole fun member => both (List.mem_of_mem_take member)
  · rw [whole]
    simp

theorem memcpy_put (put : Put a p done) (clean : 0#8 ∉ s) {n : Nat} (known : n ≤ s.length) :
    ∃ b, a.memcpy p s (min n (pEnd - (done.take pEnd).length)) = some b ∧
      Put b (p + min n (pEnd - (done.take pEnd).length)) (done ++ s.take n) := by
  obtain ⟨noNul, rfl, front⟩ := put
  have inside : (done.take pEnd).length ≤ pEnd := List.length_take_le _ _
  have fits : (done.take pEnd).length + min n (pEnd - (done.take pEnd).length) ≤ maxErrSize := by
    have : pEnd ≤ maxErrSize := by decide
    omega
  obtain ⟨b, copied, bytes⟩ := a.memcpy_eq ((min_le_left _ _).trans known) fits
  have text : (done ++ s.take n).take pEnd = done.take pEnd ++ s.take (min n (pEnd - (done.take pEnd).length)) := by
    rw [take_append_take, List.take_take, min_comm]
  refine ⟨b, copied, ?_, ?_, ?_⟩
  · rw [List.mem_append]
    exact not_or.mpr ⟨noNul, fun member => clean (List.mem_of_mem_take member)⟩
  · rw [text, List.length_append, List.length_take_of_le ((min_le_left _ _).trans known), Nat.cast_add]
  · rw [← List.prefix_iff_eq_take.mp front] at bytes
    rw [text, ← bytes]
    exact List.take_prefix _ _

end Copy

/-! ### The loop -/

section Loop

variable {err hay : List U8} {i : Nat}

theorem starts_percentM {c d : U8} {rest : List U8} :
    percentM <+: c :: d :: rest ↔ c = ascii '%' ∧ d = ascii 'm' := by
  unfold percentM
  rw [List.cons_prefix_cons, List.cons_prefix_cons]
  constructor
  · intro ⟨first, second, _⟩
    exact ⟨first.symm, second.symm⟩
  · intro ⟨first, second⟩
    exact ⟨first.symm, second.symm, List.nil_prefix⟩

theorem expansion_none (absent : strstr percentM hay = none) : expansion err hay = hay := by
  fun_induction expansion err hay with
  | case1 c d rest here =>
    rw [strstr, if_pos (starts_percentM.mpr here)] at absent
    exact absurd absent nofun
  | case2 c d rest elsewhere ih =>
    rw [strstr, if_neg (mt starts_percentM.mp elsewhere), Option.map_eq_none_iff] at absent
    rw [ih absent]
  | case3 => rfl

theorem expansion_some (err : List U8) (found : strstr percentM hay = some i) :
    i + 2 ≤ hay.length ∧ expansion err hay = hay.take i ++ err ++ expansion err (hay.drop (i + 2)) := by
  fun_induction expansion err hay generalizing i with
  | case1 c d rest here =>
    rw [strstr, if_pos (starts_percentM.mpr here)] at found
    obtain rfl := Option.some.inj found
    exact ⟨by simp, rfl⟩
  | case2 c d rest elsewhere ih =>
    rw [strstr, if_neg (mt starts_percentM.mp elsewhere)] at found
    obtain ⟨j, later, rfl⟩ := Option.map_eq_some_iff.mp found
    obtain ⟨inside, same⟩ := ih later
    refine ⟨by simp at inside ⊢; omega, ?_⟩
    rw [same]
    rfl
  | case3 rest short =>
    rcases rest with _ | ⟨c, _ | ⟨d, rest⟩⟩
    · exact absurd found nofun
    · rw [strstr, if_neg (by rw [percentM, List.cons_prefix_cons]; simp)] at found
      exact absurd found (by simp [strstr, percentM])
    · exact absurd rfl (short c d rest)

theorem expandDirective_put (strerror : CString) {s : Expanding} {done : List U8} (put : Put s.formatAfterM s.p done)
    (clean : 0#8 ∉ s.formatLast) (inside : i ≤ s.formatLast.length) :
    ∃ s', expandDirective strerror s i = some s' ∧ s'.formatLast = s.formatLast.drop (i + 2) ∧
      Put s'.formatAfterM s'.p (done ++ s.formatLast.take i ++ strerror.chars) := by
  have bound : (done.take pEnd).length ≤ pEnd := List.length_take_le _ _
  have count : (if (i : Int) > pEnd - s.p then (pEnd : Int) - s.p else i) =
      (min i (pEnd - (done.take pEnd).length) : Nat) := by
    rw [put.cursor]
    split <;> omega
  have size : sizeT (min i (pEnd - (done.take pEnd).length) : Nat) = min i (pEnd - (done.take pEnd).length) := by
    apply sizeT_ofNat
    have : pEnd < 2 ^ 32 := by decide
    omega
  obtain ⟨a, copied, put⟩ := memcpy_put put clean inside
  obtain ⟨b, n, filled, length, put, _⟩ := putString_put put strerror.noNul
  refine ⟨⟨b, _, _⟩, ?_, rfl, put⟩
  unfold expandDirective
  dsimp only
  rw [count, size, copied]
  dsimp only [Option.bind_eq_bind, Option.bind_some]
  rw [filled]
  dsimp only [Option.bind_some]
  rw [length]
  rfl

/-- The loop ends, at what follows the last directive. -/
theorem expandLoop_put (strerror : CString) {s : Expanding} {done : List U8} (put : Put s.formatAfterM s.p done)
    (clean : 0#8 ∉ s.formatLast) {fuel : Nat} (enough : s.formatLast.length < fuel) :
    ∃ s' done', expandLoop strerror fuel s = some s' ∧ Put s'.formatAfterM s'.p done' ∧ 0#8 ∉ s'.formatLast ∧
      done' ++ s'.formatLast = done ++ expansion strerror.chars s.formatLast := by
  induction fuel generalizing s done with
  | zero => exact absurd enough (Nat.not_lt_zero _)
  | succ fuel ih =>
    unfold expandLoop
    cases found : strstr percentM s.formatLast with
    | none => exact ⟨s, done, rfl, put, clean, by rw [expansion_none found]⟩
    | some i =>
      obtain ⟨inside, same⟩ := expansion_some strerror.chars found
      obtain ⟨next, step, rest, put⟩ := expandDirective_put strerror put clean (by omega : i ≤ _)
      have shorter : next.formatLast.length < fuel := by
        rw [rest, List.length_drop]
        omega
      have clean' : 0#8 ∉ next.formatLast := by
        rw [rest]
        exact fun member => clean (List.mem_of_mem_drop member)
      obtain ⟨s', done', run, put, clean', joined⟩ := ih put clean' shorter
      refine ⟨s', done', ?_, put, clean', ?_⟩
      · dsimp only
        rw [step]
        exact run
      · rw [joined, rest, same]
        simp only [List.append_assoc]

end Loop

/-- For every format, text of the error and contents of the static buffer, the expansion ends without an access outside
the buffer, and leaves in it the string of the first characters of the full expansion. -/
theorem expandFormat_exact (strerror : CString) (strError : Option CString) (formatAfterM : CharArray maxErrSize)
    (format : CString) {fuel : Nat} (enough : format.chars.length < fuel) :
    ∃ b, expandFormat fuel strerror strError formatAfterM format = some b ∧ 0#8 ∈ b.bytes ∧
      b.text 0 = (expansion strerror.chars format.chars ++ suffix strError).take pEnd := by
  have start : Put formatAfterM 0 [] := ⟨List.not_mem_nil, rfl, List.nil_prefix⟩
  obtain ⟨s, done, run, put, clean, joined⟩ := expandLoop_put strerror
    (s := { formatAfterM, p := 0, formatLast := format.chars }) start format.noNul enough
  obtain ⟨a, n, copied, length, put, text, ended⟩ := putString_put put clean
  rw [joined, List.nil_append] at put text
  have first : expandFormat fuel strerror strError formatAfterM format = match strError with
      | none => some a
      | some text =>
        if s.p + n < pEnd then do
          let b ← putString a (s.p + n) [ascii ':', ascii ' ']
          let length ← b.strlen (s.p + n)
          putString b (s.p + n + length) text.chars
        else some a := by
    unfold expandFormat
    rw [run]
    dsimp only [Option.bind_eq_bind, Option.bind_some]
    rw [copied]
    dsimp only [Option.bind_some]
    rw [length]
    rfl
  rw [first]
  cases strError with
  | none => exact ⟨a, rfl, ended, by rw [text, suffix, List.append_nil]⟩
  | some t =>
    dsimp only
    split
    · obtain ⟨b, m, copied, length, put, _⟩ := putString_put put (by decide : 0#8 ∉ [ascii ':', ascii ' '])
      obtain ⟨c, _, copied', _, _, text, ended⟩ := putString_put put t.noNul
      refine ⟨c, ?_, ended, ?_⟩
      · rw [copied]
        dsimp only [Option.bind_eq_bind, Option.bind_some]
        rw [length]
        exact copied'
      · rw [text, List.append_assoc]
        rfl
    · rename_i full
      refine ⟨a, rfl, ended, ?_⟩
      have whole : pEnd ≤ (expansion strerror.chars format.chars).length := by
        have cursor : s.p + n = ((expansion strerror.chars format.chars).take pEnd).length := put.cursor
        rw [List.length_take] at cursor
        omega
      rw [text, List.take_append_of_le_length whole]

theorem percentM_expanded :
    ∃ b, expandFormat 3 ⟨[ascii 'I', ascii 'O'], by decide⟩ none ⟨List.replicate maxErrSize 0xff#8, List.length_replicate⟩
        ⟨percentM, by decide⟩ = some b ∧ 0#8 ∈ b.bytes ∧ b.text 0 = [ascii 'I', ascii 'O'] :=
  expandFormat_exact _ none _ ⟨percentM, _⟩ (by decide)

end TwinpassGateway.Util
