import TwinpassGateway.Eth.RouteText
import TwinpassGateway.Eth.TokenText
import TwinpassGateway.Foundation.LowestBit

/-!
What the commands of the route file read behind their words: numbers, addresses, and names from a list.
-/

namespace TwinpassGateway.Eth.Route

open Foundation LocalChars Parsers

variable {size : Nat} {s : Cursor size} {gap rest text : List U8} {c : U8} {isHex : Bool} {n : Nat}

/-! ### Blanks and numbers -/

theorem skipSpace_at (at_ : s.At text) :
    ∃ t, skipSpace s = pure t ∧ t.At (text.dropWhile ignored) ∧ t.len = (text.dropWhile ignored).length := by
  obtain ⟨p, second_, len, shows_⟩ := at_.second
  have parts : text.takeWhile ignored ++ text.dropWhile ignored = text := List.takeWhile_append_dropWhile
  have blank : ∀ d ∈ text.takeWhile ignored, ignored d = true := fun d member => List.mem_takeWhile_imp member
  have passed : ignoreSpace s.buf p s.len =
      pure (p + (text.takeWhile ignored).length, (text.dropWhile ignored).length) := by
    rw [← parts, List.append_assoc] at shows_
    cases left : text.dropWhile ignored with
    | nil =>
      rw [left, List.append_nil] at parts
      have whole : s.len = (text.takeWhile ignored).length := by rw [parts, len]
      rw [whole]
      exact ignoreSpace_end shows_.front blank
    | cons c rest =>
      rw [left] at shows_
      have total : s.len = (text.takeWhile ignored).length + (rest.length + 1) := by
        rw [len]
        conv_lhs => rw [← parts, left]
        rw [List.length_append, List.length_cons]
      have stop : ignored c = false := by
        have head := List.head?_dropWhile_not ignored text
        rw [left] at head
        simpa using head
      rw [total]
      exact ignoreSpace_eq shows_ blank stop rest.length
  refine ⟨{ s with p2 := some (p + (text.takeWhile ignored).length), len := (text.dropWhile ignored).length }, ?_,
    ⟨_, rfl, rfl, ?_⟩, rfl⟩
  · unfold skipSpace
    rw [Routine.run_then second_, Routine.run_then passed]
  · rw [← parts, List.append_assoc] at shows_
    exact shows_.behind

theorem dropWhile_ignored (blank : ∀ d ∈ gap, ignored d = true) (stop : ignored c = false) (rest : List U8) :
    (gap ++ c :: rest).dropWhile ignored = c :: rest := by
  rw [List.dropWhile_append_of_pos blank, List.dropWhile_cons_of_neg]
  exact ne_true_of_eq_false stop

def printNumber (isHex : Bool) (n : Nat) : List U8 := if isHex then hexPair n else decimal n

theorem printNumber_digits (isHex : Bool) (n : Nat) : ∃ digits, printNumber isHex n = digits.map digitChar ∧ digits ≠ [] ∧
    (∀ d ∈ digits, d < if isHex then 16 else 10) ∧ readDigits (if isHex then 16 else 10) 0 digits = n := by
  have nonempty (base : Nat) : (lowDigits base n).reverse ≠ [] := by
    have some_digit := numeral_ne_nil base n
    unfold numeral at some_digit
    exact fun none => some_digit (by rw [none]; rfl)
  cases isHex with
  | false =>
    refine ⟨(lowDigits 10 n).reverse, ?_, nonempty 10, fun d member => ?_, readDigits_lowDigits 10 n⟩
    · exact signedNumeral_natCast n
    · exact lowDigits_lt (by decide) (List.mem_reverse.mp member)
  | true =>
    refine ⟨List.replicate (2 - (numeral 16 n).length) 0 ++ (lowDigits 16 n).reverse, ?_, ?_, fun d member => ?_, ?_⟩
    · rw [List.map_append, List.map_replicate]
      rfl
    · exact fun none => nonempty 16 (List.append_eq_nil_iff.mp none).2
    · obtain zero | digit := List.mem_append.mp member
      · rw [(List.mem_replicate.mp zero).2]
        decide
      · exact lowDigits_lt (by decide) (List.mem_reverse.mp digit)
    · exact (readDigits_zeros _ _ _).trans (readDigits_lowDigits 16 n)

theorem number_at (at_ : s.At (printNumber isHex n ++ c :: rest)) (stop : digitOf isHex c = none) :
    ∃ t, number isHex s = pure (BitVec.ofNat 32 n, t) ∧ t.At (c :: rest) := by
  obtain ⟨digits, printed, -, below, value⟩ := printNumber_digits isHex n
  obtain ⟨p, second_, len, shows_⟩ := at_.second
  rw [printed, List.append_assoc] at shows_
  have known : ∀ d ∈ digits, digitOf isHex (digitChar d) = some (BitVec.ofNat 32 d) := fun d member =>
    digitOf_digitChar (below d member)
  have read := getNumber_eq shows_ known stop rest.length 0
  have total : s.len = digits.length + (rest.length + 1) := by
    rw [len, printed, List.length_append, List.length_map, List.length_cons]
  have number_ := foldl_addDigit below 0
  rw [value] at number_
  refine ⟨{ s with p2 := some (p + digits.length), len := rest.length + 1 }, ?_, ⟨_, rfl, rfl, ?_⟩⟩
  · unfold number
    rw [Routine.run_then second_, total, Routine.run_then read]
    exact congrArg (fun value => (pure (value, _) : Parser _)) number_
  · have behind := shows_.behind
    rwa [List.length_map] at behind

/-- No printed number begins with a blank. -/
theorem printNumber_head (isHex : Bool) (n : Nat) (rest : List U8) :
    ∃ c tail, printNumber isHex n ++ rest = c :: tail ∧ ignored c = false ∧ (isHex = false → isDigit c = true) := by
  obtain ⟨digits, printed, nonempty, below, -⟩ := printNumber_digits isHex n
  obtain ⟨d, digits, rfl⟩ := List.exists_cons_of_ne_nil nonempty
  have first := below d List.mem_cons_self
  refine ⟨digitChar d, digits.map digitChar ++ rest, by rw [printed]; rfl, ?_, fun decimal_ => ?_⟩
  · have hex : d < 16 := by split at first <;> omega
    revert hex
    generalize d = e
    revert e
    decide
  · rw [decimal_, if_neg Bool.false_ne_true] at first
    revert first
    generalize d = e
    revert e
    decide

theorem skipSpace_number (at_ : s.At (gap ++ (printNumber isHex n ++ rest))) (blank : ∀ d ∈ gap, ignored d = true) :
    ∃ t, skipSpace s = pure t ∧ t.At (printNumber isHex n ++ rest) ∧ t.len ≠ 0 := by
  obtain ⟨t, passed, at_, len⟩ := skipSpace_at at_
  obtain ⟨d, tail, head, stop, -⟩ := printNumber_head isHex n rest
  rw [head, dropWhile_ignored blank stop, ← head] at at_ len
  refine ⟨t, passed, at_, ?_⟩
  rw [len, head, List.length_cons]
  exact Nat.succ_ne_zero _

theorem argument_eq (isHex : Bool) (s : Cursor size) : argument isHex s = skipSpace s >>= number isHex := by
  unfold argument skipSpace
  rw [Routine.then_assoc]
  congr 1
  funext p2
  rw [Routine.then_assoc]
  congr 1

theorem argument_at (at_ : s.At (gap ++ (printNumber isHex n ++ c :: rest))) (blank : ∀ d ∈ gap, ignored d = true)
    (stop : digitOf isHex c = none) : ∃ t, argument isHex s = pure (BitVec.ofNat 32 n, t) ∧ t.At (c :: rest) := by
  obtain ⟨t, passed, at_, -⟩ := skipSpace_number at_ blank
  obtain ⟨t', read, at_⟩ := number_at at_ stop
  refine ⟨t', ?_, at_⟩
  rw [argument_eq, Routine.run_then passed, read]

/-! ### Addresses -/

theorem getValues_step (gap : List U8) {k : Nat} {vals : List U32} (at_ : s.At (gap ++ (printNumber isHex n ++ c :: rest)))
    (blank : ∀ d ∈ gap, ignored d = true) (stop : digitOf isHex c = none)
    (later : ∀ t : Cursor size, t.At (c :: rest) → ∃ t', getValues isHex k t = pure (vals, t') ∧ t'.At text) :
    ∃ t, getValues isHex (k + 1) s = pure (BitVec.ofNat 32 n :: vals, t) ∧ t.At text := by
  obtain ⟨t, passed, at_, some_left⟩ := skipSpace_number at_ blank
  obtain ⟨t', read, at_⟩ := number_at at_ stop
  obtain ⟨t'', others, at_⟩ := later t' at_
  refine ⟨t'', ?_, at_⟩
  rw [getValues, Routine.run_then passed, if_neg some_left, Routine.run_then read]
  dsimp only
  rw [Routine.run_then others]

theorem getValues_zero (at_ : s.At text) : ∃ t, getValues isHex 0 s = pure ([], t) ∧ t.At text := ⟨s, rfl, at_⟩

theorem ignored_single {d : U8} (blank : ignored d = true) : ∀ e ∈ [d], ignored e = true := by
  intro e member
  rw [List.mem_singleton.mp member]
  exact blank

def ipVals (ip : U32) (port : BitVec 16) : List U32 :=
  [BitVec.ofNat 32 (ip >>> 24).toNat, BitVec.ofNat 32 (ip >>> 16 &&& 0xFF).toNat, BitVec.ofNat 32 (ip >>> 8 &&& 0xFF).toNat,
    BitVec.ofNat 32 (ip &&& 0xFF).toNat, BitVec.ofNat 32 port.toNat]

theorem getIpPort_at {ip : U32} {port : BitVec 16} (at_ : s.At (gap ++ (printIpPort ip port ++ c :: rest)))
    (blank : ∀ d ∈ gap, ignored d = true) (stop : digitOf false c = none) :
    ∃ t, getIpPort s = pure (ipVals ip port, t) ∧ t.At (c :: rest) := by
  have dot : ∀ e ∈ [ascii '.'], ignored e = true := ignored_single (by decide)
  have colon : ∀ e ∈ [ascii ':'], ignored e = true := ignored_single (by decide)
  have shape : printIpPort ip port ++ c :: rest =
      printNumber false (ip >>> 24).toNat ++ ascii '.' :: (printNumber false (ip >>> 16 &&& 0xFF).toNat ++ ascii '.' ::
        (printNumber false (ip >>> 8 &&& 0xFF).toNat ++ ascii '.' :: (printNumber false (ip &&& 0xFF).toNat ++ ascii ':' ::
          (printNumber false port.toNat ++ c :: rest)))) := by
    have dot_ : asciiText "." = [ascii '.'] := by decide
    have colon_ : asciiText ":" = [ascii ':'] := by decide
    simp only [printIpPort, dot_, colon_, List.append_assoc, List.singleton_append]
    rfl
  rw [shape] at at_
  refine getValues_step gap at_ blank (by decide) fun t at_ => ?_
  refine getValues_step [ascii '.'] at_ dot (by decide) fun t at_ => ?_
  refine getValues_step [ascii '.'] at_ dot (by decide) fun t at_ => ?_
  refine getValues_step [ascii '.'] at_ dot (by decide) fun t at_ => ?_
  refine getValues_step [ascii ':'] at_ colon stop fun t at_ => ?_
  exact getValues_zero at_

def macVals (mac54 : BitVec 16) (mac30 : U32) : List U32 :=
  [BitVec.ofNat 32 (mac54 >>> 8 &&& 0xFF).toNat, BitVec.ofNat 32 (mac54 &&& 0xFF).toNat,
    BitVec.ofNat 32 (mac30 >>> 24).toNat, BitVec.ofNat 32 (mac30 >>> 16 &&& 0xFF).toNat,
    BitVec.ofNat 32 (mac30 >>> 8 &&& 0xFF).toNat, BitVec.ofNat 32 (mac30 &&& 0xFF).toNat]

theorem getMac_at {mac54 : BitVec 16} {mac30 : U32} (at_ : s.At (gap ++ (printMac mac54 mac30 ++ c :: rest)))
    (blank : ∀ d ∈ gap, ignored d = true) (stop : digitOf true c = none) :
    ∃ t, getMac s = pure (macVals mac54 mac30, t) ∧ t.At (c :: rest) := by
  have colon : ∀ e ∈ [ascii ':'], ignored e = true := ignored_single (by decide)
  have shape : printMac mac54 mac30 ++ c :: rest =
      printNumber true (mac54 >>> 8 &&& 0xFF).toNat ++ ascii ':' :: (printNumber true (mac54 &&& 0xFF).toNat ++ ascii ':' ::
        (printNumber true (mac30 >>> 24).toNat ++ ascii ':' :: (printNumber true (mac30 >>> 16 &&& 0xFF).toNat ++ ascii ':' ::
          (printNumber true (mac30 >>> 8 &&& 0xFF).toNat ++ ascii ':' ::
            (printNumber true (mac30 &&& 0xFF).toNat ++ c :: rest))))) := by
    have colon_ : asciiText ":" = [ascii ':'] := by decide
    simp only [printMac, colon_, List.append_assoc, List.singleton_append]
    rfl
  rw [shape] at at_
  refine getValues_step gap at_ blank (by decide) fun t at_ => ?_
  refine getValues_step [ascii ':'] at_ colon (by decide) fun t at_ => ?_
  refine getValues_step [ascii ':'] at_ colon (by decide) fun t at_ => ?_
  refine getValues_step [ascii ':'] at_ colon (by decide) fun t at_ => ?_
  refine getValues_step [ascii ':'] at_ colon (by decide) fun t at_ => ?_
  refine getValues_step [ascii ':'] at_ colon stop fun t at_ => ?_
  exact getValues_zero at_

/-! ### The bits of the values -/

/-- A field that has been printed and read. -/
theorem setWidth_ofNat {k : Nat} (narrow : k ≤ 32) (x : BitVec k) : (BitVec.ofNat 32 x.toNat).setWidth k = x := by
  apply BitVec.eq_of_toNat_eq
  have below := x.isLt
  have wide : 2 ^ k ≤ 2 ^ 32 := Nat.pow_le_pow_right Nat.two_pos narrow
  rw [BitVec.toNat_setWidth, BitVec.toNat_ofNat, Nat.mod_eq_of_lt (Nat.lt_of_lt_of_le below wide), Nat.mod_eq_of_lt below]

theorem lowByte_bit {k : Nat} (wide : 8 ≤ k) (x : BitVec k) (i : Nat) :
    (x &&& BitVec.ofNat k 0xFF).getLsbD i = (decide (i < 8) && x.getLsbD i) := by
  have mask : Nat.testBit 255 i = decide (i < 8) := Nat.testBit_two_pow_sub_one 8 i
  rw [BitVec.getLsbD_and, BitVec.getLsbD_ofNat, mask, Bool.and_comm]
  by_cases low : i < 8
  · simp [low, Nat.lt_of_lt_of_le low wide]
  · simp [low]

theorem bytes_join (x : U32) : ((x >>> 24) <<< 24) ||| ((x >>> 16 &&& 0xFF) <<< 16) ||| ((x >>> 8 &&& 0xFF) <<< 8) |||
    (x &&& 0xFF) = x := by
  apply BitVec.eq_of_getLsbD_eq
  intro i inside
  have byte (y : U32) (j : Nat) : (y &&& 0xFF).getLsbD j = (decide (j < 8) && y.getLsbD j) := lowByte_bit (by decide) y j
  simp only [BitVec.getLsbD_or, BitVec.getLsbD_shiftLeft, byte, BitVec.getLsbD_ushiftRight]
  obtain low | low | low | low : i < 8 ∨ (8 ≤ i ∧ i < 16) ∨ (16 ≤ i ∧ i < 24) ∨ (24 ≤ i ∧ i < 32) := by omega
  · simp [low, show i < 24 by omega, show i < 16 by omega]
  · simp [inside, show ¬ i < 8 by omega, show i < 24 by omega, low.2, show i - 8 < 8 by omega,
      show 8 + (i - 8) = i by omega]
  · simp [inside, show ¬ i < 8 by omega, low.2, show ¬ i < 16 by omega, show ¬ i - 8 < 8 by omega, show i - 16 < 8 by omega,
      show 16 + (i - 16) = i by omega]
  · simp [inside, show ¬ i < 8 by omega, show ¬ i < 16 by omega, show ¬ i < 24 by omega, show ¬ i - 8 < 8 by omega,
      show ¬ i - 16 < 8 by omega, show 24 + (i - 24) = i by omega]

theorem fourBytes_ipVals (ip : U32) (port : BitVec 16) : fourBytes (ipVals ip port) 0 = ip := by
  show (BitVec.ofNat 32 (ip >>> 24).toNat <<< 24) ||| (BitVec.ofNat 32 (ip >>> 16 &&& 0xFF).toNat <<< 16) |||
    (BitVec.ofNat 32 (ip >>> 8 &&& 0xFF).toNat <<< 8) ||| BitVec.ofNat 32 (ip &&& 0xFF).toNat = ip
  simp only [BitVec.ofNat_toNat, BitVec.setWidth_eq]
  exact bytes_join ip

theorem fourBytes_macVals (mac54 : BitVec 16) (mac30 : U32) : fourBytes (macVals mac54 mac30) 2 = mac30 := by
  show (BitVec.ofNat 32 (mac30 >>> 24).toNat <<< 24) ||| (BitVec.ofNat 32 (mac30 >>> 16 &&& 0xFF).toNat <<< 16) |||
    (BitVec.ofNat 32 (mac30 >>> 8 &&& 0xFF).toNat <<< 8) ||| BitVec.ofNat 32 (mac30 &&& 0xFF).toNat = mac30
  simp only [BitVec.ofNat_toNat, BitVec.setWidth_eq]
  exact bytes_join mac30

theorem twoBytes_macVals (mac54 : BitVec 16) :
    ((BitVec.ofNat 32 (mac54 >>> 8 &&& 0xFF).toNat <<< 8) ||| BitVec.ofNat 32 (mac54 &&& 0xFF).toNat).setWidth 16 =
      mac54 := by
  apply BitVec.eq_of_getLsbD_eq
  intro i inside
  have byte (y : BitVec 16) (j : Nat) : (y &&& 0xFF).getLsbD j = (decide (j < 8) && y.getLsbD j) :=
    lowByte_bit (by decide) y j
  simp only [BitVec.ofNat_toNat, BitVec.getLsbD_setWidth, BitVec.getLsbD_or, BitVec.getLsbD_shiftLeft, byte,
    BitVec.getLsbD_ushiftRight]
  obtain low | low : i < 8 ∨ 8 ≤ i := by omega
  · simp [low, inside, show i < 32 by omega]
  · simp [inside, show i < 32 by omega, show ¬ i < 8 by omega, show i - 8 < 8 by omega, show i - 8 < 32 by omega,
      show 8 + (i - 8) = i by omega]

/-! ### Words -/

theorem advance_at (front : List U8) (at_ : s.At (front ++ text)) : ∃ t, advance s front.length = pure t ∧ t.At text := by
  obtain ⟨p, second_, len, shows_⟩ := at_.second
  rw [List.append_assoc] at shows_
  refine ⟨{ s with p2 := some (p + front.length), len := s.len - front.length }, ?_, ⟨_, rfl, ?_, shows_.behind⟩⟩
  · unfold advance
    rw [Routine.run_then second_]
  · dsimp only
    rw [len, List.length_append, Nat.add_sub_cancel_left]

theorem digitAt_at (at_ : s.At (c :: rest)) : digitAt s = pure (isDigit c) := by
  obtain ⟨p, second_, len, shows_⟩ := at_.second
  have head : (s.buf.load p : Parser U8) = pure c := shows_.head
  unfold digitAt
  rw [len, if_neg (by simp), Routine.run_then second_, Routine.run_then head]

def compareFront : List U8 → List U8 → Int
  | _, [] => 0
  | [], _ :: _ => 0
  | c :: rest, d :: word =>
    if c = 0#8 then -d.toInt else if folded c ≠ folded d then folded c - folded d else compareFront rest word

theorem strincmp_eq {buf : LocalChars size} {p : Nat} {word : List U8} (shows_ : buf.Shows p text)
    (enough : word.length ≤ text.length) : strincmp buf p word = pure (compareFront text word) := by
  induction word generalizing p text with
  | nil => cases text <;> rfl
  | cons d word ih =>
    cases text with
    | nil => exact absurd enough (by simp)
    | cons c text =>
      rw [strincmp, Routine.run_then shows_.head, compareFront]
      split
      · rfl
      · split
        · rfl
        · exact ih shows_.tail (Nat.le_of_succ_le_succ enough)

def differs : List U8 → List U8 → Bool
  | c :: rest, d :: word => folded c ≠ folded d || (c ≠ 0#8 && differs rest word)
  | _, _ => false

theorem compareFront_differs {front word : List U8} (differ : differs front word = true) (noNul : 0#8 ∉ word)
    (rest : List U8) :
    compareFront (front ++ rest) word ≠ 0 := by
  induction front generalizing word with
  | nil => cases word <;> cases differ
  | cons c front ih =>
    cases word with
    | nil => cases differ
    | cons d word =>
      obtain ⟨here, later⟩ := not_or.mp (mt List.mem_cons.mpr noNul)
      rw [List.cons_append, compareFront]
      split
      · rename_i nul
        exact fun zero => here (BitVec.eq_of_toInt_eq (by rw [Int.neg_eq_zero.mp zero]; rfl))
      · split
        · rename_i other
          exact fun same => other (Int.sub_eq_zero.mp same)
        · rename_i nonzero same
          rw [differs, Bool.or_eq_true, decide_eq_true_eq, Bool.and_eq_true] at differ
          exact ih (differ.resolve_left same).2 later

theorem compareFront_same {word : List U8} (noNul : 0#8 ∉ word) (rest : List U8) : compareFront (word ++ rest) word = 0 := by
  induction word with
  | nil => cases rest <;> rfl
  | cons d word ih =>
    obtain ⟨here, later⟩ := not_or.mp (mt List.mem_cons.mpr noNul)
    rw [List.cons_append, compareFront, if_neg (Ne.symm here), if_neg (not_not.mpr rfl), ih later]

def separates (c : U8) : Bool := !aboveSpace c || c = ascii ','

theorem split_at {α : Type} {xs : List α} {k : Nat} (inside : k < xs.length) :
    ∃ front x tail, xs = front ++ x :: tail ∧ front.length = k :=
  ⟨xs.take k, xs[k], xs.drop (k + 1), by simp, List.length_take_of_le inside.le⟩

theorem wordAt_ended (word : String) (at_ : s.At text) :
    ∃ ended, wordAt s word = pure (ended && decide (compareFront (text ++ [0#8]) (asciiText word) = 0)) ∧
      (∀ c, text = asciiText word ++ c :: rest → separates c = true → ended = true) := by
  obtain ⟨p, second_, len, shows_⟩ := at_.second
  have width := asciiText_length word
  unfold wordAt
  rw [Routine.run_then second_, len]
  dsimp only
  by_cases exactly : text.length = word.length
  · refine ⟨true, ?_, fun _ _ _ => rfl⟩
    rw [if_pos exactly, Routine.pure_then, if_pos rfl,
      Routine.run_then (strincmp_eq shows_ (by rw [List.length_append, width]; omega)), Bool.true_and]
  · rw [if_neg exactly]
    by_cases longer : text.length > word.length
    · obtain ⟨front, d, tail, rfl, front_length⟩ := split_at longer
      rw [if_pos longer]
      have behind : (s.buf.load (p + word.length : Nat) : Parser U8) = pure d := by
        rw [List.append_assoc] at shows_
        rw [← front_length]
        exact shows_.load_behind
      refine ⟨separates d, ?_, fun c shape separated => ?_⟩
      · rw [Routine.run_then behind, Routine.pure_then]
        show (if separates d = true then _ else _) = _
        cases separates d with
        | false => rfl
        | true =>
          rw [if_pos rfl, Routine.run_then (strincmp_eq shows_ (by rw [List.length_append, width]; omega)), Bool.true_and]
      · obtain ⟨-, same⟩ := List.append_inj shape (front_length.trans width.symm)
        rw [(List.cons.inj same).1]
        exact separated
    · refine ⟨false, ?_, fun c shape _ => ?_⟩
      · rw [if_neg longer]
        rfl
      · rw [shape, List.length_append, List.length_cons, width] at longer
        omega

theorem wordAt_hit {word : String} (noNul : 0#8 ∉ asciiText word) (at_ : s.At (asciiText word ++ c :: rest))
    (separated : separates c = true) : wordAt s word = pure true := by
  obtain ⟨ended, run, hit⟩ := wordAt_ended word at_
  rw [run, hit c rfl separated, List.append_assoc, compareFront_same noNul]
  rfl

theorem wordAt_miss {word : String} {front : List U8} (noNul : 0#8 ∉ asciiText word) (at_ : s.At (front ++ rest))
    (differ : differs front (asciiText word) = true) : wordAt s word = pure false := by
  obtain ⟨ended, run, -⟩ := @wordAt_ended size s [] (front ++ rest) word at_
  rw [run, List.append_assoc, decide_eq_false (compareFront_differs differ noNul _), Bool.and_false]

/-! ### The list of destinations -/

theorem destNames_noNul : ∀ w ∈ destNames, 0#8 ∉ asciiText w := by decide

/-- No name is found in the place of another. -/
theorem destNames_differ : destNames.Pairwise fun w w' => differs (asciiText w') (asciiText w) = true := by decide

theorem destNames_head : ∀ w ∈ destNames, ∃ d tail, asciiText w = d :: tail ∧ ignored d = false := by
  have heads : ∀ w ∈ destNames, asciiText w ≠ [] ∧ ignored ((asciiText w).headD 0) = false := by decide
  intro w member
  obtain ⟨nonempty, head⟩ := heads w member
  obtain ⟨d, tail, shape⟩ := List.exists_cons_of_ne_nil nonempty
  rw [shape] at head
  exact ⟨d, tail, shape, head⟩

theorem findDest_none {front : List U8} {names : List String} (at_ : s.At (front ++ rest)) (noNul : ∀ w ∈ names, 0#8 ∉ asciiText w)
    (differ : ∀ w ∈ names, differs front (asciiText w) = true) (j : Nat) : findDest s j names = pure none := by
  induction names generalizing j with
  | nil => rfl
  | cons w names ih =>
    rw [findDest, Routine.run_then (wordAt_miss (noNul w List.mem_cons_self) at_ (differ w List.mem_cons_self)),
      if_neg Bool.false_ne_true]
    exact ih (fun w member => noNul w (List.mem_cons_of_mem _ member)) (fun w member => differ w (List.mem_cons_of_mem _ member)) _

theorem findDest_hit {name : String} {before after : List String} (at_ : s.At (asciiText name ++ c :: rest))
    (separated : separates c = true) (noNul : ∀ w ∈ before ++ name :: after, 0#8 ∉ asciiText w)
    (differ : ∀ w ∈ before, differs (asciiText name) (asciiText w) = true) (j : Nat) :
    findDest s j (before ++ name :: after) = pure (some (1#32 <<< (j + before.length), name.length)) := by
  induction before generalizing j with
  | nil =>
    rw [List.nil_append, findDest, Routine.run_then (wordAt_hit (noNul name (by simp)) at_ separated), if_pos rfl]
    rfl
  | cons w before ih =>
    rw [List.cons_append, findDest,
      Routine.run_then (wordAt_miss (noNul w List.mem_cons_self) at_ (differ w List.mem_cons_self)),
      if_neg Bool.false_ne_true, ih (fun w member => noNul w (List.mem_cons_of_mem _ member))
        (fun w member => differ w (List.mem_cons_of_mem _ member)), List.length_cons, Nat.add_right_comm, Nat.add_assoc]

/-- The bits that the names from bit `j` on stand for. -/
def destBits (destList : BitVec 8) : Nat → List String → U32 → U32
  | _, [], mask => mask
  | j, _ :: rest, mask => destBits destList (j + 1) rest (if destList.getLsbD j then mask ||| 1#32 <<< j else mask)

theorem printDestNames_head {d : U8} (separated : separates d = true) (destList : BitVec 8) (j : Nat) (names : List String)
    (tail : List U8) : ∃ e x, printDestNames destList j true names ++ d :: tail = e :: x ∧ separates e = true := by
  induction names generalizing j with
  | nil => exact ⟨d, tail, rfl, separated⟩
  | cons name names ih =>
    rw [printDestNames]
    split
    · have comma : asciiText ", " = [ascii ',', ascii ' '] := by decide
      rw [if_pos rfl, comma]
      exact ⟨_, _, rfl, by decide⟩
    · exact ih (j + 1)

/-- A name is read and its bit set. -/
theorem readDestList_name {name : String} {before after : List String} (parts : destNames = before ++ name :: after)
    (blank : ∀ e ∈ gap, ignored e = true) (separated : separates c = true)
    (at_ : s.At (gap ++ (asciiText name ++ c :: rest))) (mask : U32) (fuel : Nat) :
    ∃ t, readDestList (fuel + 1) mask s = readDestList fuel (mask ||| 1#32 <<< before.length) t ∧ t.At (c :: rest) := by
  have member : name ∈ destNames := by
    rw [parts]
    simp
  obtain ⟨e, x, shape, stops⟩ := destNames_head name member
  obtain ⟨t, passed, at_, len⟩ := skipSpace_at at_
  have left : (gap ++ (asciiText name ++ c :: rest)).dropWhile ignored = asciiText name ++ c :: rest := by
    rw [shape]
    exact dropWhile_ignored blank stops _
  rw [left] at at_ len
  have more : t.len ≠ 0 := by
    rw [len, shape]
    simp
  have found : findDest t 0 destNames = pure (some (1#32 <<< before.length, name.length)) := by
    have apart := destNames_differ
    have clean := destNames_noNul
    rw [parts] at apart clean
    have hit := findDest_hit at_ separated clean
      (fun w member => (List.pairwise_append.mp apart).2.2 w member name List.mem_cons_self) 0
    rwa [Nat.zero_add, ← parts] at hit
  obtain ⟨t', advanced, at_⟩ := advance_at (asciiText name) at_
  refine ⟨t', ?_, at_⟩
  rw [readDestList, Routine.run_then passed, if_neg more, Routine.run_then found]
  dsimp only
  rw [← asciiText_length name, Routine.run_then advanced]

/-- The names that are printed are read, up to a word that is none of them. -/
theorem readDestList_at {d : U8} {tail front stop : List U8} (separated : separates d = true)
    (behind : (d :: tail).dropWhile ignored = front ++ stop) (some_front : front ≠ [])
    (differ : ∀ w ∈ destNames, differs front (asciiText w) = true) {before names : List String}
    (parts : destNames = before ++ names) (destList : BitVec 8) (k : Bool) (mask : U32) {gap : List U8}
    (blank : ∀ e ∈ gap, ignored e = true) {fuel : Nat} (enough : names.length < fuel)
    (at_ : s.At (gap ++ (printDestNames destList before.length k names ++ d :: tail))) :
    ∃ t, readDestList fuel mask s = pure (destBits destList before.length names mask, t) ∧ t.At (front ++ stop) := by
  induction names generalizing before k mask s gap fuel with
  | nil =>
    obtain ⟨fuel, rfl⟩ := Nat.exists_eq_add_of_le' (show 1 ≤ fuel from enough)
    obtain ⟨t, passed, at_, len⟩ := skipSpace_at at_
    have left : (gap ++ (printDestNames destList before.length k [] ++ d :: tail)).dropWhile ignored = front ++ stop := by
      rw [List.dropWhile_append_of_pos blank]
      exact behind
    rw [left] at at_ len
    refine ⟨t, ?_, at_⟩
    have more : t.len ≠ 0 := by
      rw [len, List.length_append]
      have := List.length_pos_iff.mpr some_front
      omega
    rw [readDestList, Routine.run_then passed, if_neg more, Routine.run_then (findDest_none at_ destNames_noNul differ 0)]
    rfl
  | cons name names ih =>
    have parts' : destNames = before ++ [name] ++ names := by rw [parts, List.append_assoc, List.singleton_append]
    have next : (before ++ [name]).length = before.length + 1 := List.length_append
    rw [printDestNames] at at_
    rw [destBits]
    by_cases bit : destList.getLsbD before.length = true
    · rw [if_pos bit] at at_ ⊢
      have blank' : ∀ e ∈ gap ++ (if k then asciiText ", " else []), ignored e = true := by
        have comma : ∀ e ∈ asciiText ", ", ignored e = true := by decide
        intro e inside
        obtain earlier | here := List.mem_append.mp inside
        · exact blank e earlier
        · split at here
          · exact comma e here
          · cases here
      obtain ⟨e, x, following, ended⟩ := printDestNames_head separated destList (before.length + 1) names tail
      rw [List.append_assoc, List.append_assoc, ← List.append_assoc gap, following] at at_
      obtain ⟨fuel, rfl⟩ := Nat.exists_eq_add_of_le' (show 1 ≤ fuel by omega)
      obtain ⟨t, round, at_⟩ := readDestList_name parts blank' ended at_ mask fuel
      rw [← following] at at_
      obtain ⟨t', rest_read, at_⟩ := @ih t (before ++ [name]) parts' true (mask ||| 1#32 <<< before.length) [] nofun fuel
        (by simp at enough; omega) (by rw [next]; exact at_)
      refine ⟨t', ?_, at_⟩
      rw [round, rest_read, next]
    · rw [if_neg bit] at at_ ⊢
      rw [← next] at at_ ⊢
      exact ih parts' k mask blank (by simp at enough; omega) at_

theorem destBits_bit (destList : BitVec 8) (i j : Nat) (names : List String) (mask : U32) (inside : i < 32) :
    (destBits destList j names mask).getLsbD i =
      (mask.getLsbD i || (decide (j ≤ i ∧ i < j + names.length) && destList.getLsbD i)) := by
  induction names generalizing j mask with
  | nil => simp [destBits]
  | cons name names ih =>
    rw [destBits, ih, List.length_cons]
    by_cases bit : destList.getLsbD j = true
    · rw [if_pos bit, BitVec.getLsbD_or, one_shiftLeft_bit j inside]
      by_cases here : i = j
      · subst here
        simp [bit]
      · have same : (j + 1 ≤ i ∧ i < j + 1 + names.length) ↔ (j ≤ i ∧ i < j + (names.length + 1)) := by omega
        rw [decide_eq_false here, Bool.or_false, decide_eq_decide.mpr same]
    · rw [if_neg bit]
      by_cases here : i = j
      · subst here
        simp [bit]
      · have same : (j + 1 ≤ i ∧ i < j + 1 + names.length) ↔ (j ≤ i ∧ i < j + (names.length + 1)) := by omega
        rw [decide_eq_decide.mpr same]

theorem destBits_all (destList : BitVec 8) : (destBits destList 0 destNames 0).setWidth 8 = destList := by
  apply BitVec.eq_of_getLsbD_eq
  intro i inside
  have all : destNames.length = 8 := rfl
  rw [BitVec.getLsbD_setWidth, destBits_bit destList i 0 destNames 0 (by omega), all]
  simp [inside]

/-! ### Looking ahead -/

theorem letter_other (letter : isLetter c = true) : aboveSpace c = true ∧ c ≠ ascii ':' ∧ isDigit c = false := by
  revert c
  decide

/-- A letter behind blanks is neither a colon nor a digit. -/
theorem colonOrDigit_letter {buf : LocalChars size} {p : Nat} (shows_ : buf.Shows p (gap ++ c :: rest))
    (blank : ∀ d ∈ gap, aboveSpace d = false) (letter : isLetter c = true) (n : Nat) :
    colonOrDigit buf p (gap.length + (n + 1)) = pure false := by
  induction gap generalizing p with
  | nil =>
    have other := letter_other letter
    rw [List.length_nil, Nat.zero_add, colonOrDigit, Routine.run_then shows_.head, other.1]
    simp [other.2.1, other.2.2]
  | cons d gap ih =>
    rw [List.length_cons, Nat.succ_add, colonOrDigit, Routine.run_then shows_.head, blank d List.mem_cons_self]
    exact ih shows_.tail fun e member => blank e (List.mem_cons_of_mem _ member)

theorem indexAt_hit (at_ : s.At (asciiText "index" ++ c :: rest)) (separated : aboveSpace c = false ∨ c = ascii ':') :
    indexAt s = pure true := by
  obtain ⟨p, second_, len, shows_⟩ := at_.second
  have behind : (s.buf.load (p + 5 : Nat) : Parser U8) = pure c := by
    rw [List.append_assoc] at shows_
    exact shows_.load_behind
  have longer : s.len > 5 := by
    rw [len, List.length_append]
    show 5 + _ > 5
    simp
  have ended : (!aboveSpace c || decide (c = ascii ':')) = true := by
    obtain blank | rfl := separated
    · rw [blank]
      rfl
    · decide
  unfold indexAt
  rw [Routine.run_then second_, if_pos longer, Routine.run_then behind, if_pos ended,
    Routine.run_then (strincmp_eq shows_ (by rw [List.length_append, List.length_append]; omega)), List.append_assoc,
    compareFront_same (by decide)]
  rfl

end TwinpassGateway.Eth.Route
