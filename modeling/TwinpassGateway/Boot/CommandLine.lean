import TwinpassGateway.Boot.PromInit

/-!
The command line that `prom_init` leaves behind, and for which arguments and memory sizes it is the intended one.
-/

namespace TwinpassGateway.Boot

open Foundation

/-- The arguments up to the first null pointer. -/
def given : List (Option CString) → List CString
  | [] => []
  | none :: _ => []
  | some arg :: rest => arg :: given rest

def line (args : List CString) : List U8 := args.flatMap fun arg => arg.chars ++ [ascii ' ']

def IsMem (arg : CString) : Prop := asciiText "mem=" <+: arg.chars

instance (arg : CString) : Decidable (IsMem arg) := inferInstanceAs (Decidable (_ <+: _))

def Appended (args : List CString) (memsz : U32) : Prop :=
  memsz ≠ 0 ∧ (∀ arg ∈ args, ¬ IsMem arg) ∧ (line args).length + 8 < clSize - 1

instance (args : List CString) (memsz : U32) : Decidable (Appended args memsz) := inferInstanceAs (Decidable (_ ∧ _))

def memText (size : List U8) : List U8 := asciiText " mem=" ++ size ++ asciiText "M"

def commandLine (args : List CString) (memsz : U32) : List U8 :=
  (line args).take (clSize - 1) ++ if Appended args memsz then memText (numeral 10 memsz.toNat) else []

def lastLength (args : List CString) : Nat := args.getLast?.elim 0 fun arg => arg.chars.length

/-- When the function makes it so: no arguments fill the line to its last character, the last one is not longer than
what is left behind all of them, and what is left takes a memory size that is positive as an `int`. -/
structure Fits (args : List CString) (memsz : U32) : Prop where
  filled : ∀ before after, args = before ++ after → (line before).length ≠ clSize - 1
  last : (line args).length < clSize - 1 → (line args).length + lastLength args ≤ clSize - 1
  size : Appended args memsz → memsz.toNat < 2 ^ 31 ∧
    (line args).length + (memText (numeral 10 memsz.toNat)).length ≤ clSize - 1

/-! ### Arrays that are zero behind a text -/

def zeroFilled (text : List U8) : List U8 := text ++ List.replicate (clSize - text.length) 0#8

variable {a : CmdLine} {t src : List U8} {p : Nat} {s : Copy} {args : List CString} {memsz : U32}

theorem zeroFilled_zeros {k : Nat} (fits : t.length + k ≤ clSize) :
    zeroFilled (t ++ List.replicate k 0#8) = zeroFilled t := by
  rw [zeroFilled, zeroFilled, List.append_assoc, List.replicate_append_replicate, List.length_append,
    List.length_replicate]
  congr 2
  omega

theorem zeroFilled_nul (fits : t.length < clSize) : zeroFilled (t ++ [0#8]) = zeroFilled t :=
  zeroFilled_zeros (k := 1) fits

theorem store_behind (bytes : a.bytes = zeroFilled t) (fits : t.length + src.length ≤ clSize) :
    ∃ b : CmdLine, a.store t.length src = some b ∧ b.bytes = zeroFilled (t ++ src) := by
  obtain ⟨b, stored, written⟩ := CharArray.store_eq a t.length src fits
  refine ⟨b, stored, ?_⟩
  rw [written, bytes, zeroFilled, zeroFilled, List.take_left, List.drop_append, List.drop_eq_nil_of_le (by omega),
    List.nil_append, List.drop_replicate, List.length_append]
  congr 2
  omega

theorem store_beyond {n : Int} (outside : (clSize : Int) < n + src.length) : a.store n src = none := by
  unfold CharArray.store
  rw [dif_neg fun inside => by omega]

/-- A NUL behind the text changes nothing. -/
theorem store_nul (bytes : a.bytes = zeroFilled t) (behind : t.length ≤ p) (inside : p < clSize) :
    ∃ b : CmdLine, a.store p [0#8] = some b ∧ b.bytes = zeroFilled t := by
  have same : zeroFilled (t ++ List.replicate (p - t.length) 0#8) = zeroFilled t := zeroFilled_zeros (by omega)
  have length : (t ++ List.replicate (p - t.length) 0#8).length = p := by
    rw [List.length_append, List.length_replicate]
    omega
  obtain ⟨b, stored, written⟩ := @store_behind a _ [0#8] (bytes.trans same.symm) (by rw [length]; exact inside)
  rw [length] at stored
  rw [zeroFilled_nul (by rw [length]; exact inside), same] at written
  exact ⟨b, stored, written⟩

theorem drop_zeroFilled (bytes : a.bytes = zeroFilled t) (inside : p ≤ t.length) (short : t.length < clSize) :
    a.bytes.drop p = t.drop p ++ 0#8 :: List.replicate (clSize - t.length - 1) 0#8 := by
  have ended : clSize - t.length = clSize - t.length - 1 + 1 := by omega
  rw [bytes, zeroFilled, List.drop_append_of_le_length inside, ended, List.replicate_succ]
  rfl

theorem text_zeroFilled (bytes : a.bytes = zeroFilled t) (noNul : 0#8 ∉ t) (short : t.length < clSize) :
    0#8 ∈ a.bytes ∧ a.text 0 = t := by
  have ended : a.bytes = t ++ 0#8 :: List.replicate (clSize - t.length - 1) 0#8 :=
    drop_zeroFilled bytes (Nat.zero_le _) short
  refine ⟨?_, CharArray.text_front ended noNul⟩
  rw [ended]
  simp

theorem strlen_behind (bytes : a.bytes = zeroFilled t) (behind : t.length ≤ p) :
    a.strlen p = if p < clSize then some 0 else none := by
  have rest : a.bytes.drop p = List.replicate (clSize - p) 0#8 := by
    rw [bytes, zeroFilled, List.drop_append, List.drop_eq_nil_of_le behind, List.nil_append, List.drop_replicate]
    congr 1
    omega
  unfold CharArray.strlen CharArray.text
  rw [Int.toNat_natCast, rest]
  by_cases inside : p < clSize
  · have nonempty : clSize - p = clSize - p - 1 + 1 := by omega
    rw [if_pos inside, nonempty, List.replicate_succ, if_pos ⟨Int.natCast_nonneg p, List.mem_cons_self⟩]
    rfl
  · rw [if_neg inside, Nat.sub_eq_zero_of_le (Nat.not_lt.mp inside)]
    exact if_neg fun found => absurd found.2 List.not_mem_nil

theorem strcat_behind (bytes : a.bytes = zeroFilled t) (fits : t.length + src.length < clSize) :
    ∃ b : CmdLine, strcat a t.length src = some b ∧ b.bytes = zeroFilled (t ++ src) := by
  obtain ⟨b, stored, written⟩ := @store_behind a t (src ++ [0#8]) bytes (by
    rw [List.length_append, List.length_singleton]
    omega)
  refine ⟨b, ?_, ?_⟩
  · rw [strcat, strlen_behind bytes le_rfl, if_pos (by omega), Option.bind_some]
    exact stored
  · rw [written, ← List.append_assoc, zeroFilled_nul (by rw [List.length_append]; exact fits)]

theorem strcat_beyond (bytes : a.bytes = zeroFilled t) (behind : t.length ≤ p) (full : clSize ≤ p + src.length) :
    strcat a p src = none := by
  rw [strcat, strlen_behind bytes behind]
  split
  · exact store_beyond (by rw [List.length_append, List.length_singleton]; push_cast; omega)
  · rfl

/-! ### Copying -/

theorem strncmpEq_nul {text x rest : List U8} (noNul : 0#8 ∉ text) :
    strncmpEq (x ++ 0#8 :: rest) text = some (decide (text <+: x)) := by
  induction text generalizing x with
  | nil => rw [strncmpEq, decide_eq_true List.nil_prefix]
  | cons d text ih =>
    obtain ⟨here, later⟩ := not_or.mp (mt List.mem_cons.mpr noNul)
    cases x with
    | nil => rw [List.nil_append, strncmpEq, if_neg here, decide_eq_false (by simp)]
    | cons c x =>
      rw [List.cons_append, strncmpEq]
      split
      · rename_i same
        rw [ih later, same]
        simp
      · rename_i other
        rw [decide_eq_false fun found => other (List.cons_prefix_cons.mp found).1.symm]

/-- The variables when these arguments have been copied whole. -/
structure Held (s : Copy) (args : List CString) : Prop where
  bytes : s.arcsCmdline.bytes = zeroFilled (line args)
  short : (line args).length < clSize - 1
  dest : s.dest = (line args).length
  left : s.left = clSize - 1 - (line args).length
  len : s.len = lastLength args
  gotMem : s.gotMem = true ↔ ∃ arg ∈ args, IsMem arg

/-- The loop has been left inside an argument, or right behind one. -/
def CutOff (s : Copy) (args : List CString) : Prop :=
  ∃ before arg after, args = before ++ arg :: after ∧ (line before).length < clSize - 1 ∧
    clSize - 1 ≤ (line before).length + arg.chars.length + 1 ∧ s.left ≤ 0 ∧
      s.arcsCmdline.bytes = zeroFilled ((line before ++ arg.chars).take (clSize - 1))

theorem line_append (before after : List CString) : line (before ++ after) = line before ++ line after :=
  List.flatMap_append

theorem line_single (arg : CString) : line [arg] = arg.chars ++ [ascii ' '] := List.flatMap_singleton _ _

theorem lastLength_append (args : List CString) (arg : CString) : lastLength (args ++ [arg]) = arg.chars.length := by
  rw [lastLength, List.getLast?_append, List.getLast?_singleton]
  rfl

theorem length_line_append (args : List CString) (arg : CString) :
    (line (args ++ [arg])).length = (line args).length + arg.chars.length + 1 := by
  rw [line_append, line_single, List.length_append, List.length_append, List.length_singleton, Nat.add_assoc]

theorem copyArg_eq {arg : CString} {copied : CmdLine} {mem : Bool}
    (stored : strncpy s.arcsCmdline s.dest arg (sizeT s.left) = some copied)
    (compared : strncmpEq (copied.bytes.drop s.dest.toNat) (asciiText "mem=") = some mem) :
    copyArg s arg =
      if s.left - (arg.chars.length + 1) ≤ 0 then
        some (false, ⟨copied, s.dest, s.left - (arg.chars.length + 1), arg.chars.length, s.gotMem || mem⟩)
      else (copied.store (s.dest + arg.chars.length) [ascii ' ']).map fun spaced =>
        (true, ⟨spaced, s.dest + arg.chars.length + 1, s.left - (arg.chars.length + 1), arg.chars.length, s.gotMem || mem⟩) := by
  unfold copyArg
  rw [stored]
  show Option.bind (strncmpEq (copied.bytes.drop s.dest.toNat) (asciiText "mem=")) _ = _
  rw [compared, Option.bind_some, Option.map_eq_bind]
  rfl

/-- One argument. -/
theorem copyArg_held (held : Held s args) (arg : CString) :
    (∃ t, copyArg s arg = some (true, t) ∧ Held t (args ++ [arg])) ∨
      clSize - 1 ≤ (line args).length + arg.chars.length + 1 ∧
        ∃ t, copyArg s arg = some (false, t) ∧ t.left ≤ 0 ∧
          t.arcsCmdline.bytes = zeroFilled ((line args ++ arg.chars).take (clSize - 1)) := by
  obtain ⟨bytes, short, dest, left, len, gotMem⟩ := held
  have size : clSize = 256 := rfl
  have room : sizeT s.left = clSize - 1 - (line args).length := by
    rw [left]
    unfold sizeT
    omega
  by_cases more : (line args).length + arg.chars.length + 1 < clSize - 1
  · refine .inl ?_
    have whole : (arg.chars ++ [0#8]).take (clSize - 1 - (line args).length) = arg.chars ++ [0#8] := by
      apply List.take_of_length_le
      rw [List.length_append, List.length_singleton]
      omega
    obtain ⟨copied, stored, written⟩ := @store_behind _ _ (arg.chars ++ [0#8]) bytes (by
      rw [List.length_append, List.length_singleton]
      omega)
    rw [← List.append_assoc, zeroFilled_nul (by rw [List.length_append]; omega)] at written
    have behind : copied.bytes.drop (line args).length = arg.chars ++ 0#8 ::
        List.replicate (clSize - (line args ++ arg.chars).length - 1) 0#8 := by
      rw [drop_zeroFilled written (by rw [List.length_append]; omega) (by rw [List.length_append]; omega), List.drop_left]
    obtain ⟨spaced, space, filled⟩ := @store_behind _ _ [ascii ' '] written (by
      rw [List.length_append, List.length_singleton]
      omega)
    rw [List.length_append] at space
    have compared : strncmpEq (copied.bytes.drop s.dest.toNat) (asciiText "mem=") = some (decide (IsMem arg)) := by
      rw [dest, Int.toNat_natCast, behind, strncmpEq_nul (by decide)]
      rfl
    have run := copyArg_eq (by rw [strncpy, room, whole, dest]; exact stored) compared
    rw [if_neg (by omega), dest, ← Nat.cast_add, space, Option.map_some] at run
    refine ⟨_, run, ?_, ?_, ?_, ?_, ?_, ?_⟩
    · rw [line_append, line_single, ← List.append_assoc]
      exact filled
    · rw [length_line_append]
      omega
    · rw [length_line_append]
      push_cast
      rfl
    · rw [length_line_append]
      dsimp only
      omega
    · rw [lastLength_append]
    · simp only [Bool.or_eq_true, decide_eq_true_eq, gotMem, List.mem_append, List.mem_singleton, or_and_right, exists_or,
        exists_eq_left]
  · refine .inr ⟨by omega, ?_⟩
    -- the copy goes up to the last character but one of the array, or its NUL stands there
    have inside : (line args).length + ((arg.chars ++ [0#8]).take (clSize - 1 - (line args).length)).length ≤ clSize := by
      rw [List.length_take]
      omega
    obtain ⟨copied, stored, written⟩ := store_behind bytes inside
    have same : zeroFilled (line args ++ (arg.chars ++ [0#8]).take (clSize - 1 - (line args).length)) =
        zeroFilled ((line args ++ arg.chars).take (clSize - 1)) := by
      have parts : (line args ++ arg.chars).take (clSize - 1) =
          line args ++ arg.chars.take (clSize - 1 - (line args).length) := by
        rw [List.take_append, List.take_of_length_le short.le]
      rw [parts]
      by_cases exactly : arg.chars.length < clSize - 1 - (line args).length
      · rw [List.take_of_length_le exactly.le, List.take_of_length_le (by
          rw [List.length_append, List.length_singleton]
          exact exactly), ← List.append_assoc, zeroFilled_nul (by rw [List.length_append]; omega)]
      · rw [List.take_append_of_le_length (Nat.not_lt.mp exactly)]
    rw [same] at written
    obtain ⟨mem, compared⟩ : ∃ mem, strncmpEq (copied.bytes.drop s.dest.toNat) (asciiText "mem=") = some mem := by
      have cut : ((line args ++ arg.chars).take (clSize - 1)).length = clSize - 1 ∨
          ((line args ++ arg.chars).take (clSize - 1)).length = (line args).length + arg.chars.length := by
        rw [List.length_take, List.length_append]
        omega
      refine ⟨decide (asciiText "mem=" <+: ((line args ++ arg.chars).take (clSize - 1)).drop (line args).length), ?_⟩
      rw [dest, Int.toNat_natCast, drop_zeroFilled written (by omega) (by
        rw [List.length_take]
        omega)]
      exact strncmpEq_nul (by decide)
    have run := copyArg_eq (by rw [strncpy, room, dest]; exact stored) compared
    rw [if_pos (by omega)] at run
    refine ⟨_, run, ?_, written⟩
    dsimp only
    omega

theorem copyArgs_ends (rest : List (Option CString)) (held : Held s args) :
    ∃ t, copyArgs s rest = some t ∧ (Held t (args ++ given rest) ∨ CutOff t (args ++ given rest)) := by
  induction rest generalizing s args with
  | nil => exact ⟨s, rfl, .inl (by rw [given, List.append_nil]; exact held)⟩
  | cons first rest ih =>
    cases first with
    | none => exact ⟨s, rfl, .inl (by rw [given, List.append_nil]; exact held)⟩
    | some arg =>
      rw [copyArgs, given]
      obtain ⟨t, copied, held'⟩ | ⟨full, t, copied, left, bytes⟩ := copyArg_held held arg
      · rw [copied]
        have later := ih held'
        rw [List.append_assoc, List.singleton_append] at later
        exact later
      · rw [copied]
        exact ⟨t, rfl, .inr ⟨args, arg, given rest, rfl, held.short, full, left, bytes⟩⟩

/-! ### The end of the line -/

theorem terminate_held (held : Held s args) (inside : (line args).length + lastLength args ≤ clSize - 1) :
    ∃ t, terminate s = some t ∧ Held t args := by
  have size : clSize = 256 := rfl
  obtain ⟨b, stored, written⟩ := store_nul held.bytes (Nat.le_add_right _ (lastLength args)) (by omega)
  have short := held.short
  have positive : s.left > 0 := by
    rw [held.left]
    omega
  refine ⟨{ s with arcsCmdline := b }, ?_, { held with bytes := written }⟩
  rw [terminate, if_pos positive, held.dest, held.len, ← Nat.cast_add, stored]
  rfl

theorem terminate_outside (held : Held s args) (outside : clSize - 1 < (line args).length + lastLength args) :
    terminate s = none := by
  have size : clSize = 256 := rfl
  have short := held.short
  have positive : s.left > 0 := by
    rw [held.left]
    omega
  rw [terminate, if_pos positive, held.dest, held.len, store_beyond]
  · rfl
  · rw [List.length_singleton]
    omega

/-- The memory size, as long as it is. -/
theorem appendMem_held (held : Held s args) (appended : Appended args memsz) :
    if (line args).length + (memText (signedNumeral memsz.toInt)).length ≤ clSize - 1 then
      ∃ b, appendMem memsz s = some b ∧ b.bytes = zeroFilled (line args ++ memText (signedNumeral memsz.toInt))
    else appendMem memsz s = none := by
  have size : clSize = 256 := rfl
  obtain ⟨nonzero, other, room⟩ := appended
  have unset : s.gotMem = false := by
    rw [← Bool.not_eq_true, held.gotMem]
    exact fun ⟨arg, member, mem⟩ => other arg member mem
  have left := held.left
  have enough : s.left > 8 := by omega
  set number := signedNumeral memsz.toInt
  have length : (memText number).length = number.length + 6 := by
    rw [memText, List.length_append, List.length_append]
    show 5 + _ + 1 = _
    omega
  obtain ⟨b, spaced, bytes⟩ := @store_behind _ _ [ascii ' '] held.bytes (by rw [List.length_singleton]; omega)
  have width : (line args ++ [ascii ' ']).length = (line args).length + 1 := List.length_append
  obtain ⟨b', named, bytes'⟩ := @strcat_behind _ _ (asciiText "mem=") bytes (by
    rw [width]
    show _ + 4 < _
    omega)
  generalize front_eq : line args ++ [ascii ' '] ++ asciiText "mem=" = front at bytes'
  have width' : front.length = (line args).length + 5 := by
    rw [← front_eq, List.length_append, width]
    rfl
  have place : s.dest + 5 = front.length := by
    rw [held.dest, width']
    push_cast
    rfl
  have run : appendMem memsz s =
      (snprintf b' front.length (sizeT (s.left - 5)) number).bind fun r => strcat r.1 (front.length + r.2) (asciiText "M") := by
    rw [appendMem, if_pos ⟨nonzero, unset, enough⟩]
    rw [width, Nat.cast_add, ← held.dest] at named
    rw [← held.dest] at spaced
    rw [spaced]
    show (strcat b (s.dest + 1) (asciiText "mem=")).bind _ = _
    rw [show s.dest + 1 = s.dest + ((1 : Nat) : Int) from rfl, named, place]
    rfl
  have count : sizeT (s.left - 5) = clSize - 1 - front.length := by
    unfold sizeT
    omega
  have some_room : clSize - 1 - front.length ≠ 0 := by omega
  rw [count, snprintf, if_neg some_room] at run
  by_cases fits : number.length < clSize - 1 - front.length
  · rw [if_pos (by omega)]
    rw [List.take_of_length_le (by omega)] at run
    obtain ⟨c, printed, numbered⟩ := @store_behind _ _ (number ++ [0#8]) bytes' (by
      rw [List.length_append, List.length_singleton]
      omega)
    rw [← List.append_assoc, zeroFilled_nul (by rw [List.length_append]; omega)] at numbered
    obtain ⟨d, ended, whole⟩ := @strcat_behind _ _ (asciiText "M") numbered (by
      rw [List.length_append]
      show _ + 1 < _
      omega)
    rw [List.length_append, Nat.cast_add] at ended
    refine ⟨d, ?_, ?_⟩
    · rw [run, printed]
      exact ended
    · rw [whole, memText]
      simp only [← front_eq, List.append_assoc]
      rfl
  · rw [if_neg (by omega)]
    have cut : (number.take (clSize - 1 - front.length - 1)).length = clSize - 1 - front.length - 1 :=
      List.length_take_of_le (by omega)
    obtain ⟨c, printed, numbered⟩ := @store_behind _ _ (number.take (clSize - 1 - front.length - 1) ++ [0#8]) bytes' (by
      rw [List.length_append, List.length_singleton]
      omega)
    rw [← List.append_assoc, zeroFilled_nul (by rw [List.length_append]; omega)] at numbered
    rw [run, printed]
    show strcat c (front.length + number.length) (asciiText "M") = none
    rw [← Nat.cast_add, strcat_beyond numbered (by rw [List.length_append]; omega) (by show _ ≤ _ + 1; omega)]

theorem appendMem_skip (held : Held s args) (skipped : ¬ Appended args memsz) :
    appendMem memsz s = some s.arcsCmdline := by
  rw [appendMem, if_neg]
  rintro ⟨nonzero, unset, enough⟩
  refine skipped ⟨nonzero, fun arg member mem => ?_, ?_⟩
  · have found := held.gotMem.mpr ⟨arg, member, mem⟩
    rw [unset] at found
    cases found
  · have left := held.left
    have short := held.short
    omega

/-! ### When it is the intended line -/

theorem line_noNul (args : List CString) : 0#8 ∉ line args := by
  intro member
  obtain ⟨arg, -, inside⟩ := List.mem_flatMap.mp member
  obtain char | space := List.mem_append.mp inside
  · exact arg.noNul char
  · exact absurd (List.mem_singleton.mp space) (by decide)

theorem digitChar_ne {d : Nat} (digit : d < 10) : digitChar d ≠ 0#8 ∧ digitChar d ≠ ascii '-' := by
  revert d
  decide

theorem numeral_noNul (n : Nat) : 0#8 ∉ numeral 10 n := by
  intro member
  obtain ⟨d, digit, same⟩ := mem_numeral (by decide) member
  exact (digitChar_ne digit).1 same.symm

theorem memText_noNul {size : List U8} (noNul : 0#8 ∉ size) : 0#8 ∉ memText size := by
  rw [memText, List.mem_append, List.mem_append]
  rintro ((front | digit) | unit)
  · exact absurd front (by decide)
  · exact noNul digit
  · exact absurd unit (by decide)

theorem signedNumeral_noNul (v : Int) : 0#8 ∉ signedNumeral v := by
  unfold signedNumeral
  split
  · rw [List.mem_cons]
    exact fun member => member.elim (by decide) (numeral_noNul _)
  · exact numeral_noNul _

/-- A negative number is not the numeral of any size. -/
theorem signedNumeral_eq_iff (v : U32) : signedNumeral v.toInt = numeral 10 v.toNat ↔ v.toNat < 2 ^ 31 := by
  rw [BitVec.toInt_eq_toNat_cond]
  constructor
  · intro same
    by_contra large
    have below := v.isLt
    rw [if_neg (by omega), signedNumeral, if_pos (by omega)] at same
    have sign : ascii '-' ∈ numeral 10 v.toNat := same ▸ List.mem_cons_self
    obtain ⟨d, digit, dash⟩ := mem_numeral (by decide) sign
    exact (digitChar_ne digit).2 dash.symm
  · intro small
    rw [if_pos (by omega)]
    exact signedNumeral_natCast _

theorem memText_inj {size size' : List U8} : memText size = memText size' ↔ size = size' := by
  rw [memText, memText, List.append_left_inj, List.append_right_inj]

/-- The function leaves the command line as it is meant to be, and has written nowhere else. -/
def Assembled (result : Option CmdLine) (args : List CString) (memsz : U32) : Prop :=
  ∃ a, result = some a ∧ 0#8 ∈ a.bytes ∧ a.text 0 = commandLine args memsz

theorem assembled_some (bytes : a.bytes = zeroFilled t) (noNul : 0#8 ∉ t) (short : t.length < clSize) :
    Assembled (some a) args memsz ↔ t = commandLine args memsz := by
  obtain ⟨ended, text⟩ := text_zeroFilled bytes noNul short
  constructor
  · rintro ⟨b, same, -, line⟩
    obtain rfl := Option.some.inj same
    rw [← text, line]
  · intro same
    exact ⟨a, rfl, ended, text.trans same⟩

theorem not_assembled_none : ¬ Assembled none args memsz := by
  rintro ⟨a, same, -⟩
  cases same

theorem line_prefix_le {before after : List CString} (parts : args = before ++ after) :
    (line before).length ≤ (line args).length := by
  rw [parts, line_append, List.length_append]
  exact Nat.le_add_right _ _

theorem held_assembled (held : Held s args) (memsz : U32) :
    Assembled ((terminate s).bind (appendMem memsz)) args memsz ↔ Fits args memsz := by
  have size : clSize = 256 := rfl
  have short := held.short
  have whole : (line args).take (clSize - 1) = line args := List.take_of_length_le short.le
  have filled (before after : List CString) (parts : args = before ++ after) : (line before).length ≠ clSize - 1 :=
    Nat.ne_of_lt (Nat.lt_of_le_of_lt (line_prefix_le parts) short)
  by_cases inside : (line args).length + lastLength args ≤ clSize - 1
  · obtain ⟨t, terminated, held'⟩ := terminate_held held inside
    rw [terminated, Option.bind_some]
    by_cases appended : Appended args memsz
    · have line_eq : commandLine args memsz = line args ++ memText (numeral 10 memsz.toNat) := by
        rw [commandLine, whole, if_pos appended]
      have outcome := appendMem_held held' appended
      by_cases fits : (line args).length + (memText (signedNumeral memsz.toInt)).length ≤ clSize - 1
      · rw [if_pos fits] at outcome
        obtain ⟨b, done, bytes⟩ := outcome
        have noNul : 0#8 ∉ line args ++ memText (signedNumeral memsz.toInt) := by
          rw [List.mem_append]
          exact fun member => member.elim (line_noNul args) (memText_noNul (signedNumeral_noNul _))
        rw [done, assembled_some bytes noNul (by rw [List.length_append]; omega), line_eq, List.append_right_inj, memText_inj,
          signedNumeral_eq_iff]
        constructor
        · intro small
          rw [(signedNumeral_eq_iff memsz).mpr small] at fits
          exact ⟨filled, fun _ => inside, fun _ => ⟨small, fits⟩⟩
        · exact fun fits => (fits.size appended).1
      · rw [if_neg fits] at outcome
        rw [outcome]
        refine ⟨fun assembled => absurd assembled not_assembled_none, fun good => absurd ?_ fits⟩
        obtain ⟨small, enough⟩ := good.size appended
        rw [(signedNumeral_eq_iff memsz).mpr small]
        exact enough
    · have line_eq : commandLine args memsz = line args := by
        rw [commandLine, whole, if_neg appended, List.append_nil]
      rw [appendMem_skip held' appended, assembled_some held'.bytes (line_noNul args) (by omega), line_eq]
      exact ⟨fun _ => ⟨filled, fun _ => inside, fun this => absurd this appended⟩, fun _ => rfl⟩
  · rw [terminate_outside held (Nat.not_le.mp inside)]
    exact ⟨fun assembled => absurd assembled not_assembled_none, fun good => absurd (good.last short) inside⟩

theorem cutOff_assembled (cut : CutOff s args) (memsz : U32) :
    Assembled ((terminate s).bind (appendMem memsz)) args memsz ↔ Fits args memsz := by
  have size : clSize = 256 := rfl
  obtain ⟨before, arg, after, parts, short, full, left, bytes⟩ := cut
  have parts' : args = (before ++ [arg]) ++ after := by rw [parts, List.append_assoc, List.singleton_append]
  have long := line_prefix_le parts'
  rw [length_line_append] at long
  have skipped : ¬ Appended args memsz := fun appended => by
    have room := appended.2.2
    omega
  have result : (terminate s).bind (appendMem memsz) = some s.arcsCmdline := by
    rw [terminate, if_neg (by omega), Option.bind_some, appendMem, if_neg fun appended => by omega]
  have noNul : 0#8 ∉ (line before ++ arg.chars).take (clSize - 1) := by
    intro member
    obtain earlier | here := List.mem_append.mp (List.mem_of_mem_take member)
    · exact line_noNul before earlier
    · exact arg.noNul here
  rw [result, assembled_some bytes noNul (by rw [List.length_take]; omega), commandLine, if_neg skipped, List.append_nil]
  have text : line args = (line before ++ arg.chars) ++ (ascii ' ' :: line after) := by
    rw [parts', line_append, line_append, line_single]
    simp only [List.append_assoc, List.singleton_append]
  constructor
  · intro same
    refine ⟨fun before' after' split exactly => ?_, fun this => by omega, fun appended => absurd appended skipped⟩
    -- the line has 255 characters, so this argument alone goes past them
    have lengths := congrArg List.length same
    rw [List.length_take, List.length_take, List.length_append] at lengths
    obtain ⟨c, earlier, -⟩ | ⟨c, later, rest⟩ := List.append_eq_append_iff.mp (split.symm.trans parts)
    · have le := line_prefix_le earlier
      omega
    · cases c with
      | nil =>
        rw [later, List.append_nil] at exactly
        omega
      | cons first c =>
        obtain ⟨rfl, -⟩ := List.cons.inj rest
        have le := line_prefix_le (later.trans (List.append_cons before arg c))
        rw [length_line_append] at le
        omega
  · intro fits
    have longer := fits.filled (before ++ [arg]) after parts'
    rw [length_line_append] at longer
    rw [text]
    refine (List.take_append_of_le_length ?_).symm
    rw [List.length_append]
    omega

theorem held_start : Held { arcsCmdline := zeroed, dest := 0, left := clSize - 1, len := 0, gotMem := false } [] := by
  refine ⟨rfl, by decide, rfl, rfl, rfl, ?_⟩
  exact ⟨nofun, fun ⟨_, member, _⟩ => absurd member List.not_mem_nil⟩

theorem promInit_eq {argc : Int} (positive : 0 < argc) (argv : Nat → Option CString) (memsz : U32) :
    ∃ s, promInit argc argv memsz = (terminate s).bind (appendMem memsz) ∧
      (Held s (given (arguments argc argv)) ∨ CutOff s (given (arguments argc argv))) := by
  obtain ⟨s, copied, ends⟩ := copyArgs_ends (arguments argc argv) held_start
  refine ⟨s, ?_, ends⟩
  rw [promInit, if_pos positive, copied]
  rfl

theorem assembled_iff {argc : Int} (positive : 0 < argc) (argv : Nat → Option CString) (memsz : U32) :
    Assembled (promInit argc argv memsz) (given (arguments argc argv)) memsz ↔
      Fits (given (arguments argc argv)) memsz := by
  obtain ⟨s, run, held | cut⟩ := promInit_eq positive argv memsz
  · rw [run]
    exact held_assembled held memsz
  · rw [run]
    exact cutOff_assembled cut memsz

/-- For all arguments and every memory size. -/
theorem promInit_assembles_iff {argc : Int} (positive : 0 < argc) (argv : Nat → Option CString) (memsz : U32) :
    (∃ a, promInit argc argv memsz = some a ∧ 0#8 ∈ a.bytes ∧
        a.text 0 = commandLine (given (arguments argc argv)) memsz) ↔ Fits (given (arguments argc argv)) memsz :=
  assembled_iff positive argv memsz

def letters (n : Nat) : CString := ⟨List.replicate n (ascii 'a'), fun member => absurd (List.eq_of_mem_replicate member) (by decide)⟩

theorem length_line_letters (args : List CString) (n : Nat) :
    (line (letters n :: args)).length = n + 1 + (line args).length := by
  show (((letters n).chars ++ [ascii ' ']) ++ line args).length = _
  rw [List.length_append, List.length_append]
  exact congrArg (· + 1 + (line args).length) List.length_replicate

theorem letters_not_mem (n : Nat) : ¬ IsMem (letters n) := by
  intro found
  have first : ascii 'm' ∈ List.replicate n (ascii 'a') := found.subset List.mem_cons_self
  exact absurd (List.eq_of_mem_replicate first) (by decide)

/-- One argument of 128 characters gets a NUL behind the array, one of 254 loses its space, and behind 246 characters there
is no room for a memory size of four digits. -/
theorem long_argument_overruns :
    ¬ Assembled (promInit 2 (fun _ => some (letters 128)) 20) [letters 128] 20 ∧
      ¬ Assembled (promInit 2 (fun _ => some (letters 254)) 20) [letters 254] 20 ∧
        ¬ Assembled (promInit 3 (fun i => some (letters (if i = 1 then 241 else 3))) 1024) [letters 241, letters 3] 1024 := by
  have size : clSize = 256 := rfl
  have none_left : (line []).length = 0 := rfl
  refine ⟨fun assembled => ?_, fun assembled => ?_, fun assembled => ?_⟩
  · have fits : Fits [letters 128] 20 := (assembled_iff (by decide) _ _).mp assembled
    have inside := fits.last
    have last : lastLength [letters 128] = 128 := List.length_replicate
    rw [length_line_letters, last] at inside
    omega
  · have fits : Fits [letters 254] 20 := (assembled_iff (by decide) _ _).mp assembled
    refine fits.filled [letters 254] [] rfl ?_
    rw [length_line_letters]
    rfl
  · have appended : Appended [letters 241, letters 3] 1024 := by
      refine ⟨by decide, fun arg member => ?_, ?_⟩
      · obtain rfl | rfl := List.mem_pair.mp member <;> exact letters_not_mem _
      · rw [length_line_letters, length_line_letters]
        omega
    have fits : Fits [letters 241, letters 3] 1024 := (assembled_iff (by decide) _ _).mp assembled
    have inside := (fits.size appended).2
    have number : (memText (numeral 10 (1024 : U32).toNat)).length = 10 := by decide
    rw [length_line_letters, length_line_letters, number] at inside
    omega

/-- The usual arguments. -/
theorem usual_line_assembled : ∃ a, promInit 2 (fun _ => some (letters 20)) 52 = some a ∧ 0#8 ∈ a.bytes ∧
    a.text 0 = commandLine [letters 20] 52 := by
  have size : clSize = 256 := rfl
  have none_left : (line []).length = 0 := rfl
  have fits : Fits [letters 20] 52 := by
    refine ⟨fun before after parts exactly => ?_, fun _ => ?_, fun _ => ⟨by decide, ?_⟩⟩
    · have le := line_prefix_le parts
      rw [length_line_letters] at le
      omega
    · have last : lastLength [letters 20] = 20 := List.length_replicate
      rw [length_line_letters, last]
      omega
    · have number : (memText (numeral 10 (52 : U32).toNat)).length = 8 := by decide
      rw [length_line_letters, number]
      omega
  exact (promInit_assembles_iff (by decide) (fun _ => some (letters 20)) 52).mpr fits

end TwinpassGateway.Boot
