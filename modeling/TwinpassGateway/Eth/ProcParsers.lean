import TwinpassGateway.Foundation.CharArray
import TwinpassGateway.Foundation.RoutineRefines

/-!
The tokenisers of `danube_ppa_eth_d2.c`, `get_token`, `get_number` and `ignore_space`, and the loop that looks for a command
with them in a copy of the user's text: they stay inside the text, and read nothing else.
-/

namespace TwinpassGateway.Eth.Parsers

open Foundation

/-! ### The tokenisers -/

abbrev Parser := Routine Empty

/-- The local variables of a handler; `p2` has no value at first. -/
structure Cursor (size : Nat) where
  buf : LocalChars size
  p1 : Nat := 0
  p2 : Option Nat := none
  len : Nat
  colon : Bool := true

def isLetter (c : U8) : Bool := (0x41#8 ≤ c && c ≤ 0x5A#8) || (0x61#8 ≤ c && c ≤ 0x7A#8)

def aboveSpace (c : U8) : Bool := 32 < c.toInt

def digitOf (isHex : Bool) (c : U8) : Option U32 :=
  if 0x30#8 ≤ c && c ≤ 0x39#8 then some ((c - 0x30#8).setWidth 32)
  else if isHex && 0x61#8 ≤ c && c ≤ 0x66#8 then some ((c - 0x61#8).setWidth 32 + 10)
  else if isHex && 0x41#8 ≤ c && c ≤ 0x46#8 then some ((c - 0x41#8).setWidth 32 + 10)
  else none

section Tokenisers

variable {size : Nat} (buf : LocalChars size)

def skipToLetter (p1 : Nat) : Nat → Parser (Nat × Nat)
  | 0 => pure (p1, 0)
  | len + 1 => do
    if isLetter (← buf.load p1) then pure (p1, len + 1) else skipToLetter (p1 + 1) len

/-- The other loops of `get_token`: over a token, and up to a colon if one is looked for. -/
def tokenEnd (colons : Bool) (p2 : Nat) : Nat → Nat → Parser (Nat × Nat × Nat × Bool)
  | 0, tlen => pure (p2, 0, tlen, false)
  | len + 1, tlen => do
    let c ← buf.load p2
    if aboveSpace c && c ≠ ascii ',' then
      if colons && c = ascii ':' then pure (p2, len + 1, tlen, true) else tokenEnd colons (p2 + 1) len (tlen + 1)
    else pure (p2, len + 1, tlen, false)

def getToken (s : Cursor size) : Parser (Nat × Cursor size) := do
  let (p1, len) ← skipToLetter s.buf s.p1 s.len
  if len = 0 then pure (0, { s with p1 := p1, len := 0 })
  else do
    let (p2, len, tlen, colon) ← tokenEnd s.buf s.colon p1 len 0
    let buf ← s.buf.store p2 0#8
    pure (tlen, { buf := buf, p1 := p1, p2 := some p2, len := len, colon := colon })

/-- `get_number`, with the number so far; the rest of the text and the number. -/
def getNumber (isHex : Bool) (p : Nat) : Nat → U32 → Parser (Nat × Nat × U32)
  | 0, ret => pure (p, 0, ret)
  | len + 1, ret => do
    match digitOf isHex (← buf.load p) with
    | some n => getNumber isHex (p + 1) len (if isHex then (ret <<< 4) ||| n else ret * 10 + n)
    | none => pure (p, len + 1, ret)

def ignoreSpace (p : Nat) : Nat → Parser (Nat × Nat)
  | 0 => pure (p, 0)
  | len + 1 => do
    let c ← buf.load p
    if !aboveSpace c || c = ascii ':' || c = ascii '.' || c = ascii ',' then ignoreSpace (p + 1) len
    else pure (p, len + 1)

def folded (c : U8) : Int := if 0x41#8 ≤ c && c ≤ 0x5A#8 then c.toInt + 32 else c.toInt

def stricmp (p : Nat) : List U8 → Parser Int
  | [] => do return (← buf.load p).toInt
  | d :: rest => do
    let c ← buf.load p
    if c = 0#8 then pure (-d.toInt)
    else if folded c ≠ folded d then pure (folded c - folded d)
    else stricmp (p + 1) rest

def isCommand (p : Nat) : List String → Parser Bool
  | [] => pure false
  | word :: rest => do
    if (← stricmp buf p (asciiText word)) = 0 then pure true else isCommand p rest

end Tokenisers

section Commands

variable {size : Nat}

/-- `p2`, which the statement reads. -/
def Cursor.second (s : Cursor size) : Parser Nat :=
  match s.p2 with
  | some p2 => pure p2
  | none => .stops .uninitialised

def findCommand (commands : List String) : Nat → Cursor size → Parser (Cursor size)
  | 0, _ => .waits
  | fuel + 1, s => do
    let (tlen, s) ← getToken s
    if tlen = 0 then pure s
    else if ← isCommand s.buf s.p1 commands then pure s
    else do
      let p2 ← s.second
      findCommand commands fuel { s with p1 := p2, colon := true }

/-- The first statements of the handlers. What `copy_from_user` fills with zeros behind the bytes that it copies is not
read. -/
def copyIn (u : UserBuffer) (start : LocalChars size) : Parser (Cursor size) := do
  let bytes ← u.copyFromUser 0 (min size u.count)
  let buf ← start.fill 0 bytes
  let buf ← buf.store bytes.length 0#8
  pure { buf := buf, len := bytes.length }

def argument (isHex : Bool) (s : Cursor size) : Parser (U32 × Cursor size) := do
  let (p2, len) ← ignoreSpace s.buf (← s.second) s.len
  let (p2, len, value) ← getNumber s.buf isHex p2 len 0
  pure (value, { s with p2 := some p2, len := len })

end Commands

/-- The user has fewer bytes for the buffer than it has characters. -/
def LeavesRoom (size : Nat) (u : UserBuffer) : Prop := u.count < size ∨ ∃ k < size, u.byte k = none

/-! ### Runs that know more -/

variable {size : Nat} {a b : LocalChars size} {s t : Cursor size} {fuel fuel' : Nat}

/-- The same variables, and a buffer that holds more. -/
structure Cursor.Below (s t : Cursor size) : Prop where
  buf : s.buf.Below t.buf
  p1 : t.p1 = s.p1
  p2 : t.p2 = s.p2
  len : t.len = s.len
  colon : t.colon = s.colon

theorem refines_skipToLetter (below : a.Below b) (p1 len : Nat) :
    Routine.Refines Eq (skipToLetter a p1 len) (skipToLetter b p1 len) := by
  induction len generalizing p1 with
  | zero => exact Routine.refines_pure rfl
  | succ len ih =>
    refine Routine.refines_bind_eq (LocalChars.refines_load below) fun c => ?_
    split
    · exact Routine.refines_pure rfl
    · exact ih _

theorem refines_tokenEnd (below : a.Below b) (colons : Bool) (p2 len tlen : Nat) :
    Routine.Refines Eq (tokenEnd a colons p2 len tlen) (tokenEnd b colons p2 len tlen) := by
  induction len generalizing p2 tlen with
  | zero => exact Routine.refines_pure rfl
  | succ len ih =>
    refine Routine.refines_bind_eq (LocalChars.refines_load below) fun c => ?_
    split
    · split
      · exact Routine.refines_pure rfl
      · exact ih _ _
    · exact Routine.refines_pure rfl

theorem refines_getNumber (below : a.Below b) (isHex : Bool) (p len : Nat) (ret : U32) :
    Routine.Refines Eq (getNumber a isHex p len ret) (getNumber b isHex p len ret) := by
  induction len generalizing p ret with
  | zero => exact Routine.refines_pure rfl
  | succ len ih =>
    refine Routine.refines_bind_eq (LocalChars.refines_load below) fun c => ?_
    split
    · exact ih _ _
    · exact Routine.refines_pure rfl

theorem refines_ignoreSpace (below : a.Below b) (p len : Nat) :
    Routine.Refines Eq (ignoreSpace a p len) (ignoreSpace b p len) := by
  induction len generalizing p with
  | zero => exact Routine.refines_pure rfl
  | succ len ih =>
    refine Routine.refines_bind_eq (LocalChars.refines_load below) fun c => ?_
    split
    · exact ih _
    · exact Routine.refines_pure rfl

theorem refines_stricmp (below : a.Below b) (p : Nat) (word : List U8) :
    Routine.Refines Eq (stricmp a p word) (stricmp b p word) := by
  induction word generalizing p with
  | nil =>
    refine Routine.refines_bind_eq (LocalChars.refines_load below) fun c => ?_
    exact Routine.refines_pure rfl
  | cons d rest ih =>
    refine Routine.refines_bind_eq (LocalChars.refines_load below) fun c => ?_
    split
    · exact Routine.refines_pure rfl
    · split
      · exact Routine.refines_pure rfl
      · exact ih _

theorem refines_isCommand (below : a.Below b) (p : Nat) (words : List String) :
    Routine.Refines Eq (isCommand a p words) (isCommand b p words) := by
  induction words with
  | nil => exact Routine.refines_pure rfl
  | cons word rest ih =>
    refine Routine.refines_bind_eq (refines_stricmp below p _) fun c => ?_
    split
    · exact Routine.refines_pure rfl
    · exact ih

theorem refines_getToken (below : s.Below t) :
    Routine.Refines (fun x y => y.1 = x.1 ∧ x.2.Below y.2) (getToken s) (getToken t) := by
  unfold getToken
  rw [below.p1, below.len, below.colon]
  refine Routine.refines_bind_eq (refines_skipToLetter below.buf _ _) ?_
  rintro ⟨p1, len⟩
  dsimp only
  split
  · exact Routine.refines_pure ⟨rfl, below.buf, rfl, below.p2, rfl, rfl⟩
  · refine Routine.refines_bind_eq (refines_tokenEnd below.buf _ _ _ _) ?_
    rintro ⟨p2, len, tlen, colon⟩
    exact Routine.refines_bind (LocalChars.refines_store below.buf) fun _ _ below =>
      Routine.refines_pure ⟨rfl, below, rfl, rfl, rfl, rfl⟩

theorem refines_second (below : s.Below t) : Routine.Refines Eq s.second t.second := by
  unfold Cursor.second
  rw [below.p2]
  split
  · exact Routine.refines_pure rfl
  · exact Routine.refines_stops

theorem refines_findCommand (commands : List String) (more : fuel ≤ fuel') (below : s.Below t) :
    Routine.Refines Cursor.Below (findCommand commands fuel s) (findCommand commands fuel' t) := by
  induction fuel generalizing fuel' s t with
  | zero => exact Routine.refines_waits
  | succ fuel ih =>
    obtain ⟨fuel', rfl⟩ := Nat.exists_eq_add_of_le' (show 1 ≤ fuel' by omega)
    refine Routine.refines_bind (refines_getToken below) ?_
    rintro ⟨tlen, s⟩ ⟨_, t⟩ ⟨rfl, below⟩
    dsimp only
    split
    · exact Routine.refines_pure below
    · rw [below.p1]
      refine Routine.refines_bind_eq (refines_isCommand below.buf _ _) fun found => ?_
      split
      · exact Routine.refines_pure below
      · refine Routine.refines_bind_eq (refines_second below) fun p2 => ?_
        exact ih (by omega) ⟨below.buf, rfl, below.p2, below.len, rfl⟩

theorem refines_copyIn (u : UserBuffer) (below : a.Below b) :
    Routine.Refines Cursor.Below (copyIn u a) (copyIn u b) := by
  unfold copyIn
  have copied : Routine.Refines Eq (u.copyFromUser 0 (min size u.count) : Parser (List U8))
      (u.copyFromUser 0 (min size u.count)) := Routine.refines_refl _
  refine Routine.refines_bind_eq copied fun bytes => ?_
  refine Routine.refines_bind (LocalChars.refines_fill below) fun _ _ below => ?_
  exact Routine.refines_bind (LocalChars.refines_store below) fun _ _ below =>
    Routine.refines_pure ⟨below, rfl, rfl, rfl, rfl⟩

theorem refines_argument (isHex : Bool) (below : s.Below t) :
    Routine.Refines (fun x y => y.1 = x.1 ∧ x.2.Below y.2) (argument isHex s) (argument isHex t) := by
  unfold argument
  refine Routine.refines_bind_eq (refines_second below) fun p2 => ?_
  rw [below.len]
  refine Routine.refines_bind_eq (refines_ignoreSpace below.buf _ _) ?_
  rintro ⟨p2, len⟩
  refine Routine.refines_bind_eq (refines_getNumber below.buf _ _ _ _) ?_
  rintro ⟨p2, len, value⟩
  exact Routine.refines_pure ⟨rfl, below.buf, below.p1, rfl, rfl, below.colon⟩

/-! ### Staying inside the text -/

structure Terminated (buf : LocalChars size) (total : Nat) : Prop where
  fits : total < size
  known : ∀ k ≤ total, ∃ c, buf.cells k = some c
  ended : buf.cells total = some 0#8

variable {buf : LocalChars size} {total p len : Nat}

theorem Terminated.load {ω : Type} (text : Terminated buf total) (inside : p ≤ total) {Q : U8 → Prop}
    (post : ∀ c, buf.cells p = some c → Q c) : (buf.load p : Routine ω U8).Post Q := by
  obtain ⟨c, here⟩ := text.known p inside
  have below := text.fits
  exact LocalChars.post_load_nat.mpr ⟨by omega, c, here, post c here⟩

/-- A character that is not the NUL at the end stands in front of it. -/
theorem Terminated.before (text : Terminated buf total) (inside : p ≤ total) {c : U8} (here : buf.cells p = some c)
    (other : c ≠ 0#8) : p < total := by
  refine Nat.lt_of_le_of_ne inside ?_
  rintro rfl
  exact other (Option.some.inj (here.symm.trans text.ended))

theorem Terminated.store (text : Terminated buf total) (inside : p ≤ total) {Q : LocalChars size → Prop}
    (post : ∀ buf', Terminated buf' total → Q buf') : (buf.store p 0#8 : Parser (LocalChars size)).Post Q := by
  have below := text.fits
  refine LocalChars.post_store.mpr ⟨by omega, post _ ⟨below, fun k known => ?_, ?_⟩⟩
  · by_cases here : k = p
    · exact ⟨0#8, by dsimp only; rw [here, Function.update_self]⟩
    · obtain ⟨c, was⟩ := text.known k known
      exact ⟨c, by dsimp only; rw [Function.update_of_ne here, was]⟩
  · dsimp only
    by_cases here : total = p
    · rw [here, Function.update_self]
    · rw [Function.update_of_ne here, text.ended]

theorem post_skipToLetter (text : Terminated buf total) (whole : p + len = total) :
    (skipToLetter buf p len).Post fun r => r.1 + r.2 = total ∧ r.2 ≤ len := by
  induction len generalizing p with
  | zero => exact ⟨whole, le_rfl⟩
  | succ len ih =>
    refine Routine.post_bind.mpr (text.load (by omega) fun c here => ?_)
    split
    · exact ⟨whole, le_rfl⟩
    · exact Routine.post_mono (ih (by omega)) fun r later => ⟨later.1, by omega⟩

theorem post_tokenEnd (text : Terminated buf total) (colons : Bool) (tlen : Nat) (whole : p + len = total) :
    (tokenEnd buf colons p len tlen).Post fun r => r.1 + r.2.1 = total ∧ r.2.1 + r.2.2.1 = len + tlen := by
  induction len generalizing p tlen with
  | zero => exact ⟨whole, rfl⟩
  | succ len ih =>
    refine Routine.post_bind.mpr (text.load (by omega) fun c here => ?_)
    split
    · split
      · exact ⟨whole, rfl⟩
      · exact Routine.post_mono (ih (tlen + 1) (by omega)) fun r later => ⟨later.1, by omega⟩
    · exact ⟨whole, rfl⟩

theorem post_getNumber (text : Terminated buf total) (isHex : Bool) (ret : U32) (whole : p + len = total) :
    (getNumber buf isHex p len ret).Post fun r => r.1 + r.2.1 = total ∧ r.2.1 ≤ len := by
  induction len generalizing p ret with
  | zero => exact ⟨whole, le_rfl⟩
  | succ len ih =>
    refine Routine.post_bind.mpr (text.load (by omega) fun c here => ?_)
    split
    · exact Routine.post_mono (ih _ (by omega)) fun r later => ⟨later.1, by omega⟩
    · exact ⟨whole, le_rfl⟩

theorem post_getNumber_digit (text : Terminated buf total) {isHex : Bool} {c : U8} (here : buf.cells p = some c)
    (digit : (digitOf isHex c).isSome = true) (ret : U32) (whole : p + (len + 1) = total) :
    (getNumber buf isHex p (len + 1) ret).Post fun r => r.1 + r.2.1 = total ∧ r.2.1 ≤ len := by
  refine Routine.post_bind.mpr (text.load (by omega) fun c' same => ?_)
  obtain rfl : c = c' := Option.some.inj (here.symm.trans same)
  obtain ⟨n, value⟩ := Option.isSome_iff_exists.mp digit
  rw [value]
  exact post_getNumber text isHex _ (by omega)

theorem post_ignoreSpace (text : Terminated buf total) (whole : p + len = total) :
    (ignoreSpace buf p len).Post fun r => r.1 + r.2 = total ∧ r.2 ≤ len := by
  induction len generalizing p with
  | zero => exact ⟨whole, le_rfl⟩
  | succ len ih =>
    refine Routine.post_bind.mpr (text.load (by omega) fun c here => ?_)
    split
    · exact Routine.post_mono (ih (by omega)) fun r later => ⟨later.1, by omega⟩
    · exact ⟨whole, le_rfl⟩

theorem stricmp_inBounds (text : Terminated buf total) (inside : p ≤ total) (word : List U8) :
    (stricmp buf p word).InBounds := by
  induction word generalizing p with
  | nil => exact Routine.post_bind.mpr (text.load inside fun c here => trivial)
  | cons d rest ih =>
    refine Routine.post_bind.mpr (text.load inside fun c here => ?_)
    split
    · trivial
    · rename_i other
      split
      · trivial
      · exact ih (text.before inside here other)

theorem isCommand_inBounds (text : Terminated buf total) (inside : p ≤ total) (words : List String) :
    (isCommand buf p words).InBounds := by
  induction words with
  | nil => trivial
  | cons word rest ih =>
    refine Routine.post_seq (stricmp_inBounds text inside (asciiText word)) fun c _ => ?_
    split
    · trivial
    · exact ih

structure Cursor.Behind (s : Cursor size) (total : Nat) : Prop where
  text : Terminated s.buf total
  rest : ∃ q, s.p2 = some q ∧ q + s.len = total

/-- `p1` is in the text; it is at its end, or `p2` behind a token. -/
structure Cursor.Located (s : Cursor size) (total : Nat) : Prop where
  text : Terminated s.buf total
  inside : s.p1 ≤ total
  token : s.p1 = total ∨ s.Behind total

theorem Cursor.Behind.second (behind : s.Behind total) {Q : Nat → Prop} (post : ∀ q, q + s.len = total → Q q) :
    s.second.Post Q := by
  obtain ⟨q, place, whole⟩ := behind.rest
  unfold Cursor.second
  rw [place]
  exact post q whole

theorem post_getToken (text : Terminated s.buf total) (whole : s.p1 + s.len = total) :
    (getToken s).Post fun r => r.2.Located total ∧ (r.1 ≠ 0 → r.2.Behind total ∧ r.2.len < s.len) := by
  unfold getToken
  refine Routine.post_seq (post_skipToLetter text whole) ?_
  rintro ⟨p1, len⟩ ⟨whole, shorter⟩
  dsimp only at whole shorter ⊢
  split
  · rename_i at_end
    exact ⟨⟨text, by dsimp only; omega, .inl (by dsimp only; omega)⟩, fun found => absurd rfl found⟩
  · refine Routine.post_seq (post_tokenEnd text s.colon 0 whole) ?_
    rintro ⟨p2, len', tlen, colon⟩ ⟨whole', token⟩
    dsimp only at whole' token ⊢
    refine Routine.post_bind.mpr (text.store (by omega) fun buf text => ?_)
    have behind : Cursor.Behind { buf := buf, p1 := p1, p2 := some p2, len := len', colon := colon } total :=
      ⟨text, p2, rfl, whole'⟩
    exact ⟨⟨text, by dsimp only; omega, .inr behind⟩, fun found => ⟨behind, by dsimp only at found ⊢; omega⟩⟩

theorem post_findCommand (commands : List String) (text : Terminated s.buf total) (whole : s.p1 + s.len = total)
    (enough : s.len < fuel) : (findCommand commands fuel s).Post fun s => s.Located total := by
  induction fuel generalizing s with
  | zero => exact absurd enough (Nat.not_lt_zero _)
  | succ fuel ih =>
    refine Routine.post_seq (post_getToken text whole) ?_
    rintro ⟨tlen, s'⟩ ⟨located, more⟩
    dsimp only at located more ⊢
    split
    · exact located
    · rename_i found
      obtain ⟨behind, shorter⟩ := more found
      refine Routine.post_seq (isCommand_inBounds located.text located.inside commands) fun hit _ => ?_
      split
      · exact located
      · refine Routine.post_bind.mpr (behind.second fun q whole' => ?_)
        exact ih behind.text whole' (by dsimp only; omega)

theorem post_argument (behind : s.Behind total) (isHex : Bool) :
    (argument isHex s).Post fun r => r.2.Behind total := by
  unfold argument
  refine Routine.post_bind.mpr (behind.second fun q whole => ?_)
  refine Routine.post_seq (post_ignoreSpace behind.text whole) ?_
  rintro ⟨p2, len⟩ ⟨whole', -⟩
  refine Routine.post_seq (post_getNumber behind.text isHex 0 whole') ?_
  rintro ⟨p2', len', value⟩ ⟨whole'', -⟩
  exact ⟨behind.text, p2', rfl, whole''⟩

/-! ### The copy -/

def copied (size : Nat) (u : UserBuffer) : List U8 :=
  if 0 + min size u.count ≤ u.room then u.readable 0 (min size u.count) else []

variable {u : UserBuffer}

theorem copied_le (size : Nat) (u : UserBuffer) : (copied size u).length ≤ min size u.count := by
  unfold copied
  split
  · exact UserBuffer.readable_le
  · exact Nat.zero_le _

theorem copied_short_iff : (copied size u).length < size ↔ LeavesRoom size u := by
  constructor
  · intro short
    by_contra full
    unfold LeavesRoom at full
    push Not at full
    obtain ⟨count, readable⟩ := full
    have room : size ≤ u.room := by
      cases size with
      | zero => exact Nat.zero_le _
      | succ n => exact u.mapped n (readable n (Nat.lt_succ_self n))
    unfold copied at short
    rw [Nat.min_eq_left count, if_pos (by omega), UserBuffer.readable_full fun k below => ?_] at short
    · exact absurd short (Nat.lt_irrefl _)
    · rw [Nat.zero_add]
      exact readable k below
  · rintro (count | ⟨k, below, unreadable⟩)
    · have := copied_le size u
      omega
    · by_contra full
      have := copied_le size u
      have all : (copied size u).length = min size u.count := by omega
      have count : min size u.count = size := by omega
      unfold copied at all
      split at all
      · exact UserBuffer.readable_of_full all k (by omega) (by rwa [Nat.zero_add])
      · rw [List.length_nil] at all
        omega

theorem post_copyIn {start : LocalChars size} {Q : Cursor size → Prop} :
    (copyIn u start).Post Q ↔
      LeavesRoom size u ∧ Q { buf := start.withText (copied size u), len := (copied size u).length } := by
  have bytes {R : List U8 → Prop} : (u.copyFromUser 0 (min size u.count) : Parser (List U8)).Post R ↔ R (copied size u) := by
    unfold UserBuffer.copyFromUser
    rw [if_pos (.inr (by omega))]
    exact Iff.rfl
  have fits := copied_le size u
  have text := LocalChars.filled_append (a := start) (p := 0) (copied size u) [0#8]
  rw [Nat.zero_add] at text
  unfold copyIn
  rw [Routine.post_bind, bytes, Routine.post_bind, LocalChars.post_fill (Nat.zero_le _), Routine.post_bind,
    LocalChars.post_store, copied_short_iff, LocalChars.withText, ← text]
  exact and_iff_right (by omega)

theorem copied_terminated (room : LeavesRoom size u) (start : LocalChars size) :
    Terminated (start.withText (copied size u)) (copied size u).length where
  fits := copied_short_iff.mpr room
  known k inside := by
    have held := @LocalChars.withText_holds size start (copied size u) k (by rw [List.length_append]; exact Nat.lt_succ_of_le inside)
    rw [Nat.zero_add] at held
    exact ⟨_, held⟩
  ended := by
    have held := @LocalChars.withText_holds size start (copied size u) (copied size u).length (by simp)
    rw [Nat.zero_add] at held
    rw [held]
    simp

/-- A first character that tells a command is followed by the rest of the text. -/
theorem Cursor.Located.behind {c : U8} (located : s.Located total) (here : s.buf.cells s.p1 = some c) (other : c ≠ 0#8) :
    s.Behind total := by
  refine located.token.resolve_left fun at_end => ?_
  have before := located.text.before located.inside here other
  omega

end TwinpassGateway.Eth.Parsers
