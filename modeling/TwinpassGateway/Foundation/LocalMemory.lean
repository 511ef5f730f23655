import TwinpassGateway.Foundation.Routine

/-!
What a routine reads and writes: local arrays of characters, and the memory of its caller. An access that is outside, or of
a cell that nothing was written to, is a fault.
-/

namespace TwinpassGateway.Foundation

/-! ### Local arrays -/

/-- `char a[size]`; `none` is a cell that nothing was written to. -/
structure LocalChars (size : Nat) where
  cells : Nat → Option U8 := fun _ => none

namespace LocalChars

variable {ω : Type} {size : Nat}

def load (a : LocalChars size) (p : Int) : Routine ω U8 :=
  if 0 ≤ p ∧ p < size then
    match a.cells p.toNat with
    | some c => pure c
    | none => .stops .uninitialised
  else .stops .outside

def store (a : LocalChars size) (p : Int) (c : U8) : Routine ω (LocalChars size) :=
  if 0 ≤ p ∧ p < size then pure { cells := Function.update a.cells p.toNat (some c) } else .stops .outside

def fill (a : LocalChars size) (p : Nat) : List U8 → Routine ω (LocalChars size)
  | [] => pure a
  | c :: rest => do
    let a ← a.store p c
    a.fill (p + 1) rest

def loads (a : LocalChars size) (p : Nat) : Nat → Routine ω (List U8)
  | 0 => pure []
  | n + 1 => do
    let c ← a.load p
    (c :: ·) <$> a.loads (p + 1) n

def textIn (a : LocalChars size) (p : Nat) : Nat → Routine ω (List U8)
  | 0 => .stops .outside
  | left + 1 => do
    let c ← a.load p
    if c = 0#8 then pure [] else (c :: ·) <$> a.textIn (p + 1) left

def text (a : LocalChars size) (p : Nat) : Routine ω (List U8) := a.textIn p (size - p)

def Holds (a : LocalChars size) (p : Nat) (bytes : List U8) : Prop :=
  ∀ k (inside : k < bytes.length), a.cells (p + k) = some bytes[k]

variable {a b : LocalChars size} {p q n : Nat} {bytes : List U8} {c : U8} {Q : U8 → Prop}

theorem post_load_nat : (a.load p : Routine ω U8).Post Q ↔ p < size ∧ ∃ c, a.cells p = some c ∧ Q c := by
  unfold load
  by_cases inside : p < size
  · rw [if_pos ⟨Int.natCast_nonneg p, by exact_mod_cast inside⟩, Int.toNat_natCast]
    cases a.cells p with
    | none => simp
    | some c => simp [inside]
  · rw [if_neg (by omega)]
    simp [inside]

theorem post_load_front : ¬ (a.load (-1) : Routine ω U8).Post Q := by
  unfold load
  rw [if_neg (by omega)]
  exact id

theorem post_store {Q : LocalChars size → Prop} :
    (a.store p c : Routine ω (LocalChars size)).Post Q ↔ p < size ∧ Q { cells := Function.update a.cells p (some c) } := by
  unfold store
  by_cases inside : p < size
  · rw [if_pos ⟨Int.natCast_nonneg p, by exact_mod_cast inside⟩, Int.toNat_natCast]
    simp [inside]
  · rw [if_neg (by omega)]
    simp [inside]

def filled (a : LocalChars size) (p : Nat) : List U8 → LocalChars size
  | [] => a
  | c :: rest => filled { cells := Function.update a.cells p (some c) } (p + 1) rest

theorem post_fill {Q : LocalChars size → Prop} (inside : p ≤ size) :
    (a.fill p bytes : Routine ω (LocalChars size)).Post Q ↔ p + bytes.length ≤ size ∧ Q (a.filled p bytes) := by
  induction bytes generalizing a p with
  | nil => simp [fill, filled, inside]
  | cons c rest ih =>
    simp only [fill, Routine.post_bind, post_store, List.length_cons, filled]
    by_cases room : p < size
    · rw [ih room, Nat.succ_add, Nat.add_succ]
      exact and_iff_right room
    · simp only [room, false_and, false_iff, not_and]
      omega

theorem filled_before (k : Nat) (before : k < p) : (a.filled p bytes).cells k = a.cells k := by
  induction bytes generalizing a p with
  | nil => rfl
  | cons c rest ih =>
    unfold filled
    rw [ih (by omega)]
    exact Function.update_of_ne (by omega) _ _

theorem filled_holds : (a.filled p bytes).Holds p bytes := by
  induction bytes generalizing a p with
  | nil => exact fun k inside => absurd inside (Nat.not_lt_zero k)
  | cons c rest ih =>
    intro k inside
    unfold filled
    cases k with
    | zero =>
      exact (filled_before p (Nat.lt_add_one p)).trans (Function.update_self _ _ _)
    | succ k =>
      rw [← Nat.add_assoc, Nat.add_right_comm]
      exact ih k (Nat.lt_of_succ_lt_succ inside)

theorem post_loads {Q : List U8 → Prop} (holds : a.Holds p bytes) (inside : p + bytes.length ≤ size) :
    (a.loads p bytes.length : Routine ω (List U8)).Post Q ↔ Q bytes := by
  induction bytes generalizing p Q with
  | nil => exact Iff.rfl
  | cons c rest ih =>
    have here : a.cells p = some c := holds 0 (Nat.zero_lt_succ _)
    have later : a.Holds (p + 1) rest := fun k below => by
      rw [Nat.add_right_comm]
      exact holds (k + 1) (Nat.succ_lt_succ below)
    rw [List.length_cons] at inside
    have room : p < size := by omega
    simp only [List.length_cons, loads, Routine.post_bind, post_load_nat, here, Routine.post_map]
    simp [room, ih later (by omega)]

theorem post_textIn {Q : List U8 → Prop} {left : Nat} (holds : a.Holds p bytes) (ended : 0#8 ∈ bytes)
    (inside : p + bytes.length ≤ size) (enough : bytes.length ≤ left) :
    (a.textIn p left : Routine ω (List U8)).Post Q ↔ Q (bytes.takeWhile (· ≠ 0#8)) := by
  induction bytes generalizing p left Q with
  | nil => cases ended
  | cons c rest ih =>
    have here : a.cells p = some c := holds 0 (Nat.zero_lt_succ _)
    have later : a.Holds (p + 1) rest := fun k below => by
      rw [Nat.add_right_comm]
      exact holds (k + 1) (Nat.succ_lt_succ below)
    rw [List.length_cons] at inside enough
    have room : p < size := by omega
    obtain ⟨left, rfl⟩ := Nat.exists_eq_succ_of_ne_zero (show left ≠ 0 by omega)
    simp only [textIn, Routine.post_bind, post_load_nat, here]
    by_cases nul : c = 0#8
    · simp [room, nul]
    · have ended' : 0#8 ∈ rest := (List.mem_cons.mp ended).resolve_left (Ne.symm nul)
      have rest_text (R : List U8 → Prop) : (a.textIn (p + 1) left : Routine ω (List U8)).Post R ↔ R (rest.takeWhile (· ≠ 0#8)) :=
        ih later ended' (by omega) (by omega)
      simp [room, nul, rest_text]

theorem post_text {Q : List U8 → Prop} (holds : a.Holds p bytes) (ended : 0#8 ∈ bytes) (inside : p + bytes.length ≤ size) :
    (a.text p : Routine ω (List U8)).Post Q ↔ Q (bytes.takeWhile (· ≠ 0#8)) :=
  post_textIn holds ended inside (by omega)

/-- Characters up to the end of the array are no string without a NUL. -/
theorem post_textIn_full {Q : List U8 → Prop} (holds : a.Holds p bytes) (endless : 0#8 ∉ bytes)
    {left : Nat} (full : p + bytes.length = size) (room : left = bytes.length) : ¬ (a.textIn p left : Routine ω (List U8)).Post Q := by
  subst room
  induction bytes generalizing p Q with
  | nil => exact id
  | cons c rest ih =>
    have here : a.cells p = some c := holds 0 (Nat.zero_lt_succ _)
    have later : a.Holds (p + 1) rest := fun k below => by
      rw [Nat.add_right_comm]
      exact holds (k + 1) (Nat.succ_lt_succ below)
    obtain ⟨other, endless'⟩ := List.ne_and_not_mem_of_not_mem_cons endless
    rw [List.length_cons] at full ⊢
    intro post
    simp only [textIn, Routine.post_bind, post_load_nat, here] at post
    obtain ⟨-, c', same, post⟩ := post
    cases same
    rw [if_neg (Ne.symm other), Routine.post_map] at post
    exact ih later endless' (by omega) post

theorem filled_after (k : Nat) (behind : p + bytes.length ≤ k) : (a.filled p bytes).cells k = a.cells k := by
  induction bytes generalizing a p with
  | nil => rfl
  | cons c rest ih =>
    rw [List.length_cons] at behind
    unfold filled
    rw [ih (by omega)]
    exact Function.update_of_ne (by omega) _ _

/-- Characters in an array of zeros are a string if there is a NUL among them or behind them. -/
theorem text_zeros (zeros : ∀ k, a.cells k = some 0#8) (fits : bytes.length ≤ size) :
    ((a.filled 0 bytes).text 0 : Routine ω (List U8)).InBounds ↔ bytes.length < size ∨ 0#8 ∈ bytes := by
  have holds : (a.filled 0 bytes).Holds 0 bytes := filled_holds
  by_cases nul : 0#8 ∈ bytes
  · exact iff_of_true ((post_text holds nul (by omega)).mpr trivial) (.inr nul)
  by_cases short : bytes.length < size
  · have ended : (a.filled 0 bytes).Holds 0 (bytes ++ [0#8]) := by
      intro k inside
      by_cases before : k < bytes.length
      · rw [List.getElem_append_left before]
        exact holds k before
      · rw [List.length_append, List.length_singleton] at inside
        rw [filled_after _ (by omega), zeros, List.getElem_append_right (by omega)]
        simp
    exact iff_of_true ((post_text ended (by simp) (by simpa using short)).mpr trivial) (.inl short)
  · have full : bytes.length = size := by omega
    refine iff_of_false ?_ fun fits' => fits'.elim short nul
    exact post_textIn_full holds nul (by omega) (by omega)

def withText (a : LocalChars size) (bytes : List U8) : LocalChars size := a.filled 0 (bytes ++ [0#8])

theorem filled_append (xs ys : List U8) : (a.filled p xs).filled (p + xs.length) ys = a.filled p (xs ++ ys) := by
  induction xs generalizing a p with
  | nil => rfl
  | cons c rest ih =>
    rw [List.length_cons, ← Nat.add_assoc, Nat.add_right_comm]
    exact ih

theorem withText_holds : (a.withText bytes).Holds 0 (bytes ++ [0#8]) := filled_holds

theorem post_withText_loads {Q : List U8 → Prop} (short : bytes.length < size) :
    ((a.withText bytes).loads 0 bytes.length : Routine ω (List U8)).Post Q ↔ Q bytes := by
  refine post_loads (fun k inside => ?_) (by omega)
  rw [withText_holds k (by rw [List.length_append]; omega), List.getElem_append_left inside]

theorem takeWhile_nul (bytes : List U8) : (bytes ++ [0#8]).takeWhile (· ≠ 0#8) = bytes.takeWhile (· ≠ 0#8) := by
  induction bytes with
  | nil => rfl
  | cons c rest ih => simp only [List.cons_append, List.takeWhile_cons, ih]

theorem post_withText {Q : List U8 → Prop} (short : bytes.length < size) :
    ((a.withText bytes).text 0 : Routine ω (List U8)).Post Q ↔ Q (bytes.takeWhile (· ≠ 0#8)) := by
  rw [post_text withText_holds (by simp) (by simpa using short), takeWhile_nul]

/-- The last character of the string, if there is one. -/
theorem post_withText_last {Q : U8 → Prop} (short : bytes.length < size) :
    ((a.withText bytes).load (bytes.length - 1 : Int) : Routine ω U8).Post Q ↔ ∃ c, bytes.getLast? = some c ∧ Q c := by
  cases bytes using List.reverseRecOn with
  | nil =>
    rw [List.getLast?_nil]
    exact ⟨fun post => absurd post post_load_front, fun ⟨_, found, _⟩ => nomatch found⟩
  | append_singleton front c =>
    have place : ((front ++ [c]).length - 1 : Int) = (front.length : Nat) := by
      rw [List.length_append, List.length_singleton]
      omega
    have here : (a.withText (front ++ [c])).cells front.length = some c := by
      have held := @withText_holds size a (front ++ [c]) front.length (by simp)
      rw [Nat.zero_add] at held
      rw [held]
      simp
    rw [List.length_append, List.length_singleton] at short
    rw [place, post_load_nat, here, List.getLast?_concat]
    exact and_iff_right (by omega)

end LocalChars

/-! ### The memory of the caller -/

/-- A buffer of the caller: its bytes, of which some cannot be read, and the end of the caller's memory. -/
structure UserBuffer where
  byte : Nat → Option U8
  count : Nat
  room : Nat
  mapped : ∀ k, byte k ≠ none → k < room

namespace UserBuffer

/-- A text that can be read, and a count that is given for it. -/
def ofText (text : List U8) (count : Nat) : UserBuffer where
  byte k := text[k]?
  count := count
  room := text.length
  mapped k readable := by
    by_contra beyond
    exact readable (List.getElem?_eq_none (not_lt.mp beyond))

variable {ω : Type} (u : UserBuffer)

/-- `get_user`, which says when the byte cannot be read. -/
def getUser (k : Nat) : Routine ω (Option U8) := if k < u.count then pure (u.byte k) else .stops .beyond

def deref (k : Nat) : Routine ω U8 :=
  if k < u.count then
    match u.byte k with
    | some c => pure c
    | none => .stops .unmapped
  else .stops .beyond

/-- The bytes from `i` on, up to one that cannot be read. -/
def readable (i : Nat) : Nat → List U8
  | 0 => []
  | n + 1 =>
    match u.byte i with
    | some c => c :: readable (i + 1) n
    | none => []

/-- `copy_from_user`: the bytes that are copied. -/
def copyFromUser (i n : Nat) : Routine ω (List U8) :=
  if n = 0 ∨ i + n ≤ u.count then pure (if i + n ≤ u.room then u.readable i n else []) else .stops .beyond

/-- `n` bytes from `i` on, in front of the count, that can be read and are such. -/
def Spans (p : U8 → Bool) (i n : Nat) : Prop := ∀ k < n, i + k < u.count ∧ ∃ c, u.byte (i + k) = some c ∧ p c = true

/-- A byte in front of the count that is not such, or cannot be read. -/
def EndsAt (p : U8 → Bool) (i : Nat) : Prop := i < u.count ∧ ∀ c, u.byte i = some c → p c = false

variable {u : UserBuffer} {p : U8 → Bool} {i n k : Nat} {c : U8}

theorem post_getUser {Q : Option U8 → Prop} : (u.getUser k : Routine ω (Option U8)).Post Q ↔ k < u.count ∧ Q (u.byte k) := by
  unfold getUser
  split <;> rename_i inside <;> simp [inside]

theorem post_deref {Q : U8 → Prop} (inside : k < u.count) (here : u.byte k = some c) :
    (u.deref k : Routine ω U8).Post Q ↔ Q c := by
  unfold deref
  rw [if_pos inside, here]
  exact Routine.post_pure

theorem spans_succ : u.Spans p i (n + 1) ↔ (i < u.count ∧ ∃ c, u.byte i = some c ∧ p c = true) ∧ u.Spans p (i + 1) n := by
  constructor
  · intro spans
    refine ⟨spans 0 (Nat.zero_lt_succ n), fun k below => ?_⟩
    have later := spans (k + 1) (Nat.succ_lt_succ below)
    rwa [← Nat.add_assoc, Nat.add_right_comm] at later
  · rintro ⟨here, later⟩ k below
    cases k with
    | zero => exact here
    | succ k =>
      rw [← Nat.add_assoc, Nat.add_right_comm]
      exact later k (Nat.lt_of_succ_lt_succ below)

theorem readable_length (spans : u.Spans p i n) : (u.readable i n).length = n := by
  induction n generalizing i with
  | zero => rfl
  | succ n ih =>
    obtain ⟨⟨-, c, here, -⟩, later⟩ := spans_succ.mp spans
    unfold readable
    rw [here, List.length_cons, ih later]

theorem readable_le : (u.readable i n).length ≤ n := by
  induction n generalizing i with
  | zero => exact le_rfl
  | succ n ih =>
    unfold readable
    split
    · exact Nat.succ_le_succ ih
    · exact Nat.zero_le _

theorem readable_full (readable : ∀ k < n, u.byte (i + k) ≠ none) : (u.readable i n).length = n := by
  induction n generalizing i with
  | zero => rfl
  | succ n ih =>
    obtain ⟨c, here⟩ := Option.ne_none_iff_exists'.mp (readable 0 (Nat.zero_lt_succ n))
    unfold UserBuffer.readable
    rw [show u.byte i = some c from here, List.length_cons, ih fun k below => ?_]
    rw [Nat.add_right_comm, Nat.add_assoc]
    exact readable (k + 1) (Nat.succ_lt_succ below)

theorem readable_of_full (full : (u.readable i n).length = n) (k : Nat) (below : k < n) : u.byte (i + k) ≠ none := by
  induction n generalizing i k with
  | zero => exact absurd below (Nat.not_lt_zero k)
  | succ n ih =>
    unfold UserBuffer.readable at full
    split at full
    · rename_i c here
      cases k with
      | zero =>
        rw [Nat.add_zero, here]
        exact Option.some_ne_none c
      | succ k =>
        have later := ih (Nat.succ.inj full) k (Nat.lt_of_succ_lt_succ below)
        rwa [Nat.add_right_comm] at later
    · cases full

/-- What was read one by one is copied as a whole. -/
theorem post_copyFromUser {Q : List U8 → Prop} (spans : u.Spans p i n) :
    (u.copyFromUser i n : Routine ω (List U8)).Post Q ↔ Q (u.readable i n) := by
  unfold copyFromUser
  cases n with
  | zero =>
    rw [if_pos (.inl rfl), Routine.post_pure]
    split <;> exact Iff.rfl
  | succ n =>
    obtain ⟨inside, c, here, -⟩ := spans n (Nat.lt_succ_self n)
    have below : i + (n + 1) ≤ u.room := u.mapped (i + n) (by rw [here]; exact Option.some_ne_none c)
    rw [if_pos (.inr inside), Routine.post_pure, if_pos below]

end UserBuffer

end TwinpassGateway.Foundation
