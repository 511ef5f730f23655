import TwinpassGateway.Foundation.LocalText
import TwinpassGateway.Foundation.Numeral
import TwinpassGateway.Eth.ProcParsers

/-!
The tokenisers of `danube_ppa_eth_d2.c` on a text that is known: which characters they pass over, and what they return.
-/

namespace TwinpassGateway.Eth.Parsers

open Foundation LocalChars

variable {size : Nat} {buf : LocalChars size} {p : Nat} {c : U8} {gap word rest text : List U8}

/-! ### The loops -/

theorem skipToLetter_eq (shows_ : buf.Shows p (gap ++ c :: rest)) (blank : ∀ d ∈ gap, isLetter d = false)
    (letter : isLetter c = true) (n : Nat) :
    skipToLetter buf p (gap.length + (n + 1)) = pure (p + gap.length, n + 1) := by
  induction gap generalizing p with
  | nil =>
    rw [List.length_nil, Nat.zero_add, skipToLetter, Routine.run_then shows_.head, if_pos letter]
    rfl
  | cons d gap ih =>
    rw [List.length_cons, Nat.succ_add, skipToLetter, Routine.run_then shows_.head,
      if_neg (ne_true_of_eq_false (blank d List.mem_cons_self)),
      ih shows_.tail fun e member => blank e (List.mem_cons_of_mem _ member)]
    congr 2
    omega

theorem skipToLetter_end (shows_ : buf.Shows p gap) (blank : ∀ d ∈ gap, isLetter d = false) :
    skipToLetter buf p gap.length = pure (p + gap.length, 0) := by
  induction gap generalizing p with
  | nil => rfl
  | cons d gap ih =>
    rw [List.length_cons, skipToLetter, Routine.run_then shows_.head,
      if_neg (ne_true_of_eq_false (blank d List.mem_cons_self)),
      ih shows_.tail fun e member => blank e (List.mem_cons_of_mem _ member)]
    congr 2
    omega

def inToken (c : U8) : Bool := aboveSpace c && c ≠ ascii ',' && c ≠ ascii ':'

theorem tokenEnd_eq (shows_ : buf.Shows p (word ++ c :: rest)) (token : ∀ d ∈ word, inToken d = true)
    (ended : inToken c = false) (n tlen : Nat) :
    tokenEnd buf true p (word.length + (n + 1)) tlen =
      pure (p + word.length, n + 1, tlen + word.length, decide (c = ascii ':')) := by
  induction word generalizing p tlen with
  | nil =>
    rw [List.length_nil, Nat.zero_add, tokenEnd, Routine.run_then shows_.head]
    unfold inToken at ended
    by_cases colon : c = ascii ':'
    · subst colon
      rfl
    · rw [decide_eq_true colon, Bool.and_true] at ended
      rw [ended, if_neg Bool.false_ne_true, decide_eq_false colon]
      rfl
  | cons d word ih =>
    have inside := token d List.mem_cons_self
    unfold inToken at inside
    obtain ⟨above, other⟩ := (Bool.and_eq_true _ _).mp inside
    rw [List.length_cons, Nat.succ_add, tokenEnd, Routine.run_then shows_.head, if_pos above, if_neg (by simpa using other),
      ih shows_.tail fun e member => token e (List.mem_cons_of_mem _ member)]
    congr 2
    · omega
    · congr 2
      omega

def ignored (c : U8) : Bool := !aboveSpace c || c = ascii ':' || c = ascii '.' || c = ascii ','

theorem ignoreSpace_eq (shows_ : buf.Shows p (gap ++ c :: rest)) (blank : ∀ d ∈ gap, ignored d = true)
    (stop : ignored c = false) (n : Nat) :
    ignoreSpace buf p (gap.length + (n + 1)) = pure (p + gap.length, n + 1) := by
  induction gap generalizing p with
  | nil =>
    rw [List.length_nil, Nat.zero_add, ignoreSpace, Routine.run_then shows_.head]
    exact if_neg (ne_true_of_eq_false stop)
  | cons d gap ih =>
    have here : ignored d = true := blank d List.mem_cons_self
    rw [List.length_cons, Nat.succ_add, ignoreSpace, Routine.run_then shows_.head]
    refine (if_pos here).trans ?_
    rw [ih shows_.tail fun e member => blank e (List.mem_cons_of_mem _ member)]
    congr 2
    omega

theorem ignoreSpace_end (shows_ : buf.Shows p gap) (blank : ∀ d ∈ gap, ignored d = true) :
    ignoreSpace buf p gap.length = pure (p + gap.length, 0) := by
  induction gap generalizing p with
  | nil => rfl
  | cons d gap ih =>
    have here : ignored d = true := blank d List.mem_cons_self
    rw [List.length_cons, ignoreSpace, Routine.run_then shows_.head]
    refine (if_pos here).trans ?_
    rw [ih shows_.tail fun e member => blank e (List.mem_cons_of_mem _ member)]
    congr 2
    omega

/-! ### Numbers -/

def addDigit (isHex : Bool) (ret : U32) (d : Nat) : U32 :=
  if isHex then (ret <<< 4) ||| BitVec.ofNat 32 d else ret * 10 + BitVec.ofNat 32 d

theorem getNumber_eq {isHex : Bool} {digits : List Nat} (shows_ : buf.Shows p (digits.map digitChar ++ c :: rest))
    (known : ∀ d ∈ digits, digitOf isHex (digitChar d) = some (BitVec.ofNat 32 d)) (stop : digitOf isHex c = none)
    (n : Nat) (ret : U32) :
    getNumber buf isHex p (digits.length + (n + 1)) ret =
      pure (p + digits.length, n + 1, digits.foldl (addDigit isHex) ret) := by
  induction digits generalizing p ret with
  | nil =>
    rw [List.length_nil, Nat.zero_add, getNumber, Routine.run_then shows_.head, stop]
    rfl
  | cons d digits ih =>
    rw [List.length_cons, Nat.succ_add, getNumber, Routine.run_then shows_.head, known d List.mem_cons_self]
    refine (ih shows_.tail (fun e member => known e (List.mem_cons_of_mem _ member)) _).trans ?_
    rw [List.foldl_cons]
    congr 2
    omega

theorem digitOf_digitChar {isHex : Bool} {d : Nat} (below : d < if isHex then 16 else 10) :
    digitOf isHex (digitChar d) = some (BitVec.ofNat 32 d) := by
  cases isHex
  · revert d
    decide
  · revert d
    decide

theorem shiftLeft_four_or (r : U32) {d : Nat} (digit : d < 16) :
    (r <<< 4) ||| BitVec.ofNat 32 d = r * 16 + BitVec.ofNat 32 d := by
  have shifted : r * (16 : U32) = r <<< 4 := by
    rw [BitVec.shiftLeft_eq_mul_twoPow]
    rfl
  rw [shifted, BitVec.add_eq_or_of_and_eq_zero]
  apply BitVec.eq_of_getLsbD_eq
  intro i _
  rw [BitVec.getLsbD_and, BitVec.getLsbD_shiftLeft, BitVec.getLsbD_ofNat, BitVec.getLsbD_zero]
  by_cases low : i < 4
  · simp [low]
  · have wide : 2 ^ 4 ≤ 2 ^ i := Nat.pow_le_pow_right Nat.two_pos (Nat.not_lt.mp low)
    have high : d.testBit i = false := Nat.testBit_lt_two_pow (Nat.lt_of_lt_of_le digit wide)
    simp [high]

theorem addDigit_eq {isHex : Bool} {d : Nat} (below : d < if isHex then 16 else 10) (read : Nat) :
    addDigit isHex (BitVec.ofNat 32 read) d = BitVec.ofNat 32 (read * (if isHex then 16 else 10) + d) := by
  cases isHex
  · rw [addDigit, if_neg Bool.false_ne_true, if_neg Bool.false_ne_true, BitVec.ofNat_add, BitVec.ofNat_mul]
    rfl
  · rw [addDigit, if_pos rfl, if_pos rfl, shiftLeft_four_or _ below, BitVec.ofNat_add, BitVec.ofNat_mul]
    rfl

/-- The word is the number of the digits. -/
theorem foldl_addDigit {isHex : Bool} {digits : List Nat} (below : ∀ d ∈ digits, d < if isHex then 16 else 10) (read : Nat) :
    digits.foldl (addDigit isHex) (BitVec.ofNat 32 read) =
      BitVec.ofNat 32 (readDigits (if isHex then 16 else 10) read digits) := by
  induction digits generalizing read with
  | nil => rfl
  | cons d digits ih =>
    rw [List.foldl_cons, addDigit_eq (below d List.mem_cons_self),
      ih fun e member => below e (List.mem_cons_of_mem _ member)]
    rfl

/-! ### Comparing -/

/-- `stricmp` with a literal, on a text with a NUL in it. -/
def compareText : List U8 → List U8 → Int
  | c :: _, [] => c.toInt
  | c :: rest, d :: word => if c = 0#8 then -d.toInt else if folded c ≠ folded d then folded c - folded d else compareText rest word
  | [], _ => 0

theorem stricmp_eq (shows_ : buf.Shows p text) (nul : 0#8 ∈ text) (word : List U8) :
    stricmp buf p word = pure (compareText text word) := by
  induction word generalizing p text with
  | nil =>
    cases text with
    | nil => cases nul
    | cons c text => rw [stricmp, Routine.run_then shows_.head]; rfl
  | cons d word ih =>
    cases text with
    | nil => cases nul
    | cons c text =>
      rw [stricmp, Routine.run_then shows_.head, compareText]
      split
      · rfl
      · rename_i other
        split
        · rfl
        · exact ih shows_.tail ((List.mem_cons.mp nul).resolve_left (Ne.symm other))

/-! ### The cursor -/

variable {s : Cursor size}

def Cursor.At (s : Cursor size) (text : List U8) : Prop :=
  ∃ p, s.p2 = some p ∧ s.len = text.length ∧ s.buf.Shows p (text ++ [0#8])

theorem Cursor.At.second (at_ : s.At text) :
    ∃ p, s.second = pure p ∧ s.len = text.length ∧ s.buf.Shows p (text ++ [0#8]) := by
  obtain ⟨p, place, len, shows_⟩ := at_
  refine ⟨p, ?_, len, shows_⟩
  unfold Cursor.second
  rw [place]

/-- `p1` and `len` are in front of a text, with no letter between, as at the start of the loops over the tokens. -/
def Cursor.Before (s : Cursor size) (text : List U8) : Prop :=
  s.colon = true ∧ ∃ gap, (∀ d ∈ gap, isLetter d = false) ∧ s.len = (gap ++ text).length ∧
    s.buf.Shows s.p1 (gap ++ text ++ [0#8])

/-- A token and the character behind it, which becomes a NUL. -/
theorem getToken_eq (before : s.Before (word ++ c :: rest)) (letter : ∃ d w, word = d :: w ∧ isLetter d = true)
    (token : ∀ d ∈ word, inToken d = true) (ended : inToken c = false) :
    ∃ t, getToken s = pure (word.length, t) ∧ t.At (0#8 :: rest) ∧ t.colon = decide (c = ascii ':') ∧
      t.buf.Shows t.p1 (word ++ [0#8]) := by
  obtain ⟨colons, gap, blank, len, shows_⟩ := before
  obtain ⟨d, w, rfl, first⟩ := letter
  rw [List.append_assoc, List.cons_append, List.cons_append] at shows_
  have skipped : skipToLetter s.buf s.p1 s.len = pure (s.p1 + gap.length, w.length + 1 + (rest.length + 1)) := by
    rw [len, List.length_append, List.length_append, List.length_cons, List.length_cons, Nat.add_right_comm w.length 1]
    exact skipToLetter_eq shows_ blank first _
  have shown : s.buf.Shows (s.p1 + gap.length) ((d :: w) ++ c :: (rest ++ [0#8])) := by
    have behind := shows_.behind
    rwa [List.append_assoc, List.cons_append] at behind
  have found := tokenEnd_eq shown token ended rest.length 0
  obtain ⟨b, stored, after⟩ := @Shows.store Empty size s.buf (s.p1 + gap.length) c _ (d :: w) shown 0#8
  refine ⟨⟨b, s.p1 + gap.length, some (s.p1 + gap.length + (d :: w).length), rest.length + 1, decide (c = ascii ':')⟩, ?_,
    ⟨_, rfl, rfl, ?_⟩, rfl, ?_⟩
  · unfold getToken
    rw [Routine.run_then skipped]
    dsimp only
    rw [if_neg (by omega), colons]
    rw [List.length_cons] at found
    rw [Routine.run_then found]
    dsimp only
    rw [← List.length_cons, Routine.run_then stored, Nat.zero_add]
  · exact after.behind
  · rw [List.append_cons (d :: w) 0#8] at after
    exact after.front

/-- No token is left. -/
theorem getToken_end (before : s.Before []) : ∃ t, getToken s = pure (0, t) := by
  obtain ⟨-, gap, blank, len, shows_⟩ := before
  rw [List.append_nil] at len shows_
  refine ⟨{ s with p1 := s.p1 + gap.length, len := 0 }, ?_⟩
  unfold getToken
  rw [len, Routine.run_then (skipToLetter_end shows_.front blank)]
  exact if_pos rfl

def skip (text : List U8) : List U8 := text.dropWhile fun c => !isLetter c

theorem skip_append (blank : ∀ d ∈ gap, isLetter d = false) (text : List U8) : skip (gap ++ text) = skip text := by
  unfold skip
  rw [List.dropWhile_append_of_pos]
  intro d member
  rw [blank d member]
  rfl

theorem skip_letter (letter : isLetter c = true) (rest : List U8) : skip (c :: rest) = c :: rest := by
  unfold skip
  rw [List.dropWhile_cons_of_neg]
  rw [letter]
  exact Bool.false_ne_true

theorem skip_length_le (text : List U8) : (skip text).length ≤ text.length := List.length_dropWhile_le _ _

theorem ignored_not_letter (blank : ignored c = true) : isLetter c = false := by
  revert c
  decide

theorem skip_dropWhile_ignored (text : List U8) : skip (text.dropWhile ignored) = skip text := by
  conv_rhs => rw [← @List.takeWhile_append_dropWhile _ ignored text]
  refine (skip_append (fun d member => ?_) _).symm
  exact ignored_not_letter (List.mem_takeWhile_imp member)

theorem Cursor.before_skip (colons : s.colon = true) (len : s.len = text.length)
    (shows_ : s.buf.Shows s.p1 (text ++ [0#8])) : s.Before (skip text) := by
  refine ⟨colons, text.takeWhile fun c => !isLetter c, fun d member => ?_, ?_, ?_⟩
  · have other := List.mem_takeWhile_imp member
    rwa [Bool.not_eq_true'] at other
  · rw [skip, List.takeWhile_append_dropWhile]
    exact len
  · rw [skip, List.takeWhile_append_dropWhile]
    exact shows_

/-- What the loops do between two tokens: `p1 = p2; colon = 1`. -/
theorem Cursor.At.next (at_ : s.At text) :
    ∃ p, s.second = pure p ∧ Cursor.Before { s with p1 := p, colon := true } (skip text) := by
  obtain ⟨p, second_, len, shows_⟩ := at_.second
  exact ⟨p, second_, Cursor.before_skip rfl len shows_⟩

/-! ### The copy -/

def Given (u : UserBuffer) (text : List U8) : Prop := u.count = text.length ∧ ∀ k < text.length, u.byte k = text[k]?

theorem readable_text {u : UserBuffer} {i : Nat} (bytes : ∀ k < text.length, u.byte (i + k) = text[k]?) :
    u.readable i text.length = text := by
  induction text generalizing i with
  | nil => rfl
  | cons c rest ih =>
    have here : u.byte i = some c := bytes 0 (Nat.zero_lt_succ _)
    have later : ∀ k < rest.length, u.byte (i + 1 + k) = rest[k]? := fun k below => by
      rw [Nat.add_right_comm, Nat.add_assoc]
      exact bytes (k + 1) (Nat.succ_lt_succ below)
    rw [List.length_cons, UserBuffer.readable, here]
    dsimp only
    rw [ih later]

/-- The whole text is copied, with a NUL behind it. -/
theorem copyIn_eq {u : UserBuffer} (given : Given u text) (short : text.length < size) (start : LocalChars size) :
    copyIn u start = pure { buf := start.withText text, len := text.length } := by
  obtain ⟨count, bytes⟩ := given
  have mapped : 0 + text.length ≤ u.room := by
    by_contra beyond
    have last := u.mapped (text.length - 1) (by
      rw [bytes _ (by omega), List.getElem?_eq_getElem (by omega)]
      exact Option.some_ne_none _)
    omega
  have copy : (u.copyFromUser 0 (min size u.count) : Parser (List U8)) = pure text := by
    unfold UserBuffer.copyFromUser
    rw [count, Nat.min_eq_right short.le, if_pos (.inr (by omega)), if_pos mapped,
      readable_text fun k below => by rw [Nat.zero_add]; exact bytes k below]
  have ended : { cells := Function.update (start.filled 0 text).cells text.length (some 0#8) } = start.withText text := by
    have append := @LocalChars.filled_append size start 0 text [0#8]
    rw [Nat.zero_add] at append
    exact append
  unfold copyIn
  rw [Routine.run_then copy, Routine.run_then (fill_eq (by omega)), Routine.run_then (store_eq short 0#8), ended]

end TwinpassGateway.Eth.Parsers
