import TwinpassGateway.Foundation.CharArray
import TwinpassGateway.Foundation.Substring

/-!
`str_replace` of `str.c`, with `str_insert` and `str_count_str`. The strings and the copies that are made of them lie side
by side in an address space of 31 bits, so that an `int` holds the sum of their lengths.
-/

namespace TwinpassGateway.Util

open Foundation

inductive Stop where
  /-- `rg_error` at the level `LEXIT`. -/
  | exited
  | undefined
  /-- The loop goes on. -/
  | unfinished
  deriving DecidableEq

/-- The memory that requests meet: which of them, and what a new block holds. -/
structure Memory where
  grants : Nat → Bool
  fresh : (size : Nat) → CharArray size

def insertFill {size : Nat} (str : CharArray size) (src : List U8) (from_ nremove : Nat) (replace : List U8) :
    Option (CharArray size) := do
  let str ← str.memcpy 0 src from_
  let str ← str.memcpy from_ replace replace.length
  let str ← str.memcpy (from_ + replace.length : Nat) (src.drop (from_ + nremove)) (src.length - nremove - from_)
  str.store (src.length + replace.length - nremove : Nat) [0#8]

/-- `str_insert`: the string that `*s` points to when it returns. -/
def strInsert (memory : Memory) (s : Option (List U8)) (from_ nremove : Nat) (replace : List U8) :
    Except Stop (List U8) :=
  let src := s.getD []
  let srcLen := src.length
  let repLen := replace.length
  let from_ := min srcLen from_
  let nremove := min (srcLen - from_) nremove
  let size := srcLen + repLen - nremove + 1
  if memory.grants size = false then .error .exited
  else
    match insertFill (memory.fresh size) src from_ nremove replace with
    | none => .error .undefined
    | some str => .ok (str.text 0)

/-- The loop of `str_replace` with the string `s`: the string when it ends, and how often it has replaced something. -/
def replaceLoop (memory : Memory) (search replace : List U8) : Nat → List U8 → Nat → Nat → Except Stop (List U8 × Nat)
  | 0, _, _, _ => .error .unfinished
  | fuel + 1, s, i, replaced =>
    if i > s.length then .error .undefined
    else
      match strstr search (s.drop i) with
      | none => .ok (s, replaced)
      | some found =>
        match strInsert memory (some s) (i + found) search.length replace with
        | .error e => .error e
        | .ok s => replaceLoop memory search replace fuel s (i + found + replace.length) (replaced + 1)

/-- `str_replace`: what `*s` points to when it returns, and how often it has replaced something. -/
def strReplace (memory : Memory) (fuel : Nat) (s : Option CString) (search replace : CString) :
    Except Stop (Option (List U8) × Nat) :=
  match s with
  | none => .ok (if memory.grants 1 then some [] else none, 0)
  | some s => (replaceLoop memory search.chars replace.chars fuel s.chars 0 0).map fun (s, n) => (some s, n)

def countLoop (needle : List U8) : Nat → List U8 → Nat → Option Nat
  | 0, _, _ => none
  | fuel + 1, haystack, count =>
    match strstr needle haystack with
    | none => some count
    | some found => countLoop needle fuel (haystack.drop (found + needle.length)) (count + 1)

def strCountStr (fuel : Nat) (haystack needle : CString) : Option Nat := countLoop needle.chars fuel haystack.chars 0

theorem strstr_eq (needle hay : List U8) : strstr needle hay = occurrence needle hay := by
  induction hay with
  | nil => rfl
  | cons c rest ih => rw [strstr, occurrence, ih]

/-! ### One replacement -/

section Insert

variable {front rest search replace : List U8}

theorem insertFill_eq {size : Nat} (str : CharArray size) (search : List U8)
    (whole : size = (front ++ (replace ++ rest)).length + 1) :
    ∃ b, insertFill str (front ++ (search ++ rest)) front.length search.length replace = some b ∧
      b.bytes = front ++ (replace ++ rest) ++ [0#8] := by
  simp only [List.length_append] at whole
  have left : (front ++ (search ++ rest)).length - search.length - front.length = rest.length := by
    simp only [List.length_append]
    omega
  have last : (front ++ (search ++ rest)).length + replace.length - search.length =
      front.length + replace.length + rest.length := by
    simp only [List.length_append]
    omega
  have behind : (front ++ (search ++ rest)).drop (front.length + search.length) = rest := by
    rw [← List.append_assoc, ← List.length_append, List.drop_left]
  have known : front.length ≤ (front ++ (search ++ rest)).length := by simp
  obtain ⟨first, copied, front₁⟩ := str.memcpy_eq (p := 0) known (by omega)
  obtain ⟨second, copied', front₂⟩ := first.memcpy_eq (p := front.length) (le_refl replace.length) (by omega)
  obtain ⟨third, copied'', front₃⟩ := second.memcpy_eq (p := front.length + replace.length) (le_refl rest.length)
    (by omega)
  obtain ⟨b, ended, bytes⟩ := third.store_eq (front.length + replace.length + rest.length) [0#8] (by simp; omega)
  rw [Nat.zero_add, List.take_zero, List.nil_append, List.take_left] at front₁
  rw [front₁, List.take_length] at front₂
  rw [front₂, List.take_length, List.append_assoc] at front₃
  have full : third.bytes.drop (front.length + replace.length + rest.length + [0#8].length) = [] := by
    apply List.drop_eq_nil_of_le
    rw [third.length_eq, List.length_singleton]
    omega
  refine ⟨b, ?_, by rw [bytes, front₃, full, List.append_nil]⟩
  simp only [insertFill, Option.bind_eq_bind]
  rw [Nat.cast_zero] at copied
  rw [copied, Option.bind_some, copied', Option.bind_some, behind, left, copied'', Option.bind_some, last]
  exact ended

theorem strInsert_eq (memory : Memory) (clean : 0#8 ∉ front ++ (search ++ rest)) (clean' : 0#8 ∉ replace) :
    strInsert memory (some (front ++ (search ++ rest))) front.length search.length replace =
      if memory.grants ((front ++ (replace ++ rest)).length + 1) then .ok (front ++ (replace ++ rest))
      else .error .exited := by
  have noNul : 0#8 ∉ front ++ (replace ++ rest) := by
    simp only [List.mem_append, not_or] at clean ⊢
    exact ⟨clean.1, clean', clean.2.2⟩
  unfold strInsert
  simp only [Option.getD_some]
  have start : min (front ++ (search ++ rest)).length front.length = front.length := by simp
  have removed : min ((front ++ (search ++ rest)).length - front.length) search.length = search.length := by simp
  rw [start, removed]
  have size : (front ++ (search ++ rest)).length + replace.length - search.length + 1 =
      (front ++ (replace ++ rest)).length + 1 := by
    simp only [List.length_append]
    omega
  rw [size]
  obtain ⟨b, filled, bytes⟩ := insertFill_eq (memory.fresh ((front ++ (replace ++ rest)).length + 1)) search rfl
  rw [filled]
  have text : b.text 0 = front ++ (replace ++ rest) := CharArray.text_front bytes noNul
  cases granted : memory.grants ((front ++ (replace ++ rest)).length + 1) with
  | false => rfl
  | true => exact congrArg Except.ok text

end Insert

/-! ### The loops -/

section Loops

variable {search replace front s t : List U8} {n : Nat}

/-- The memory that the first `n` replacements take is there. -/
def Granted (memory : Memory) (search replace s : List U8) (n : Nat) : Prop :=
  ∀ k < n, memory.grants (s.length + (k + 1) * replace.length - (k + 1) * search.length + 1) = true

instance (memory : Memory) (search replace s : List U8) (n : Nat) : Decidable (Granted memory search replace s n) :=
  inferInstanceAs (Decidable (∀ k < n, _))

theorem granted_succ (memory : Memory) {s s' : List U8} (length : s'.length + search.length = s.length + replace.length)
    (n : Nat) : Granted memory search replace s (n + 1) ↔
      memory.grants (s'.length + 1) = true ∧ Granted memory search replace s' n := by
  have first : s.length + (0 + 1) * replace.length - (0 + 1) * search.length = s'.length := by omega
  have later (k : Nat) : s.length + (k + 1 + 1) * replace.length - (k + 1 + 1) * search.length =
      s'.length + (k + 1) * replace.length - (k + 1) * search.length := by
    rw [Nat.succ_mul (k + 1) replace.length, Nat.succ_mul (k + 1) search.length]
    omega
  constructor
  · intro granted
    refine ⟨?_, fun k below => ?_⟩
    · rw [← first]
      exact granted 0 (Nat.succ_pos n)
    · rw [← later]
      exact granted (k + 1) (Nat.succ_lt_succ below)
  · rintro ⟨here, rest⟩ k below
    cases k with
    | zero => rwa [first]
    | succ k =>
      rw [later]
      exact rest k (Nat.lt_of_succ_lt_succ below)

theorem replaceLoop_eq (memory : Memory) (nonempty : search ≠ []) (clean : 0#8 ∉ s) (cleanFront : 0#8 ∉ front)
    (cleanReplace : 0#8 ∉ replace) (replaced : Replaced search replace s t n) {fuel : Nat} (enough : s.length < fuel)
    (done : Nat) :
    replaceLoop memory search replace fuel (front ++ s) front.length done =
      if Granted memory search replace (front ++ s) n then .ok (front ++ t, done + n) else .error .exited := by
  induction s using occurrence_induction nonempty generalizing front t n fuel done with
  | absent s absent =>
    obtain ⟨rfl, rfl⟩ := replaced.unique nonempty (.of_none absent)
    obtain ⟨fuel, rfl⟩ := Nat.exists_eq_add_one_of_ne_zero (Nat.ne_zero_of_lt enough)
    have nothing : Granted memory search replace (front ++ t) 0 := fun k none => absurd none (Nat.not_lt_zero k)
    rw [replaceLoop, if_neg (by simp), List.drop_left, strstr_eq, absent, if_pos nothing]
    rfl
  | found before rest found ih =>
    obtain ⟨t', n', replaced'⟩ := Replaced.exists nonempty replace rest
    obtain ⟨rfl, rfl⟩ := replaced.unique nonempty (.of_some found replaced')
    obtain ⟨fuel, rfl⟩ := Nat.exists_eq_add_one_of_ne_zero (Nat.ne_zero_of_lt enough)
    have progress := List.length_pos_iff.mpr nonempty
    have fewer : rest.length < fuel := by
      simp only [List.length_append] at enough
      omega
    have shifted : front ++ (before ++ (search ++ rest)) = front ++ before ++ (search ++ rest) :=
      (List.append_assoc _ _ _).symm
    have cleanWhole : 0#8 ∉ front ++ before ++ (search ++ rest) := by
      rw [← shifted, List.mem_append]
      exact not_or.mpr ⟨cleanFront, clean⟩
    have cleanNext : 0#8 ∉ front ++ before ++ replace := by
      simp only [List.mem_append, not_or] at cleanWhole ⊢
      exact ⟨cleanWhole.1, cleanReplace⟩
    have cleanRest : 0#8 ∉ rest := fun member => clean (by simp [member])
    have next := ih cleanRest cleanNext replaced' fewer (done + 1)
    have size : (front ++ before ++ replace ++ rest).length + search.length =
        (front ++ (before ++ (search ++ rest))).length + replace.length := by
      simp only [List.length_append]
      omega
    rw [replaceLoop, if_neg (by simp), List.drop_left, strstr_eq, found]
    dsimp only
    rw [shifted, ← List.length_append, strInsert_eq memory cleanWhole cleanReplace, ← shifted]
    simp only [granted_succ memory size]
    rw [← List.append_assoc (front ++ before) replace rest]
    by_cases granted : memory.grants ((front ++ before ++ replace ++ rest).length + 1) = true
    · have total : done + 1 + n' = done + (n' + 1) := by omega
      rw [if_pos granted]
      dsimp only
      rw [← List.length_append, next]
      simp only [granted, true_and, total]
      simp only [List.append_assoc]
    · rw [if_neg granted]
      simp only [granted, Bool.false_eq_true, false_and, if_false]

theorem countLoop_eq (nonempty : search ≠ []) (replaced : Replaced search replace s t n) {fuel : Nat}
    (enough : s.length < fuel) (count : Nat) : countLoop search fuel s count = some (count + n) := by
  induction s using occurrence_induction nonempty generalizing t n fuel count with
  | absent s absent =>
    obtain ⟨rfl, rfl⟩ := replaced.unique nonempty (.of_none absent)
    obtain ⟨fuel, rfl⟩ := Nat.exists_eq_add_one_of_ne_zero (Nat.ne_zero_of_lt enough)
    rw [countLoop, strstr_eq, absent]
    rfl
  | found before rest found ih =>
    obtain ⟨t', n', replaced'⟩ := Replaced.exists nonempty replace rest
    obtain ⟨rfl, rfl⟩ := replaced.unique nonempty (.of_some found replaced')
    obtain ⟨fuel, rfl⟩ := Nat.exists_eq_add_one_of_ne_zero (Nat.ne_zero_of_lt enough)
    have progress := List.length_pos_iff.mpr nonempty
    have fewer : rest.length < fuel := by
      simp only [List.length_append] at enough
      omega
    have behind : (before ++ (search ++ rest)).drop (before.length + search.length) = rest := by
      rw [← List.append_assoc, ← List.length_append, List.drop_left]
    rw [countLoop, strstr_eq, found]
    dsimp only
    rw [behind, ih replaced' fewer, Nat.add_assoc, Nat.add_comm 1]

end Loops

/-- With the memory it asks for, `str_replace` returns the string in which each occurrence from left to right is replaced,
after as many replacements as `str_count_str` counts; a request that is not met ends the process. -/
theorem str_replace_law (memory : Memory) (s search replace : CString) (nonempty : search.chars ≠ []) :
    ∃ t n, Replaced search.chars replace.chars s.chars t n ∧
      (∀ t' n', Replaced search.chars replace.chars s.chars t' n' → t' = t ∧ n' = n) ∧
      ∀ fuel, s.chars.length < fuel →
        strCountStr fuel s search = some n ∧
          strReplace memory fuel (some s) search replace =
            if Granted memory search.chars replace.chars s.chars n then .ok (some t, n) else .error .exited := by
  obtain ⟨t, n, replaced⟩ := Replaced.exists nonempty replace.chars s.chars
  refine ⟨t, n, replaced, fun t' n' other => other.unique nonempty replaced, fun fuel enough => ⟨?_, ?_⟩⟩
  · have counted := countLoop_eq nonempty replaced enough 0
    rwa [Nat.zero_add] at counted
  · have looped := replaceLoop_eq memory nonempty s.noNul List.not_mem_nil replace.noNul replaced enough 0
    rw [strReplace]
    simp only [List.nil_append, List.length_nil, Nat.zero_add] at looped
    rw [looped]
    split <;> rfl

def ample : Memory where
  grants size := size < 2 ^ 31
  fresh size := ⟨List.replicate size 0#8, List.length_replicate⟩

/-- `aba` with each `a` doubled. -/
theorem str_replace_law_doubled :
    ∃ t n, Replaced [0x61#8] [0x61#8, 0x61#8] [0x61#8, 0x62#8, 0x61#8] t n ∧
      strReplace ample 4 (some ⟨[0x61#8, 0x62#8, 0x61#8], by decide⟩) ⟨[0x61#8], by decide⟩
          ⟨[0x61#8, 0x61#8], by decide⟩ =
        if Granted ample [0x61#8] [0x61#8, 0x61#8] [0x61#8, 0x62#8, 0x61#8] n then .ok (some t, n)
        else .error .exited := by
  obtain ⟨t, n, replaced, _, law⟩ := str_replace_law ample ⟨[0x61#8, 0x62#8, 0x61#8], by decide⟩
    ⟨[0x61#8], by decide⟩ ⟨[0x61#8, 0x61#8], by decide⟩ (by decide)
  exact ⟨t, n, replaced, (law 4 (by decide)).2⟩

end TwinpassGateway.Util
