import TwinpassGateway.Foundation.CharArray
import TwinpassGateway.Foundation.LocalMemory
import TwinpassGateway.Switch.AdmIoctl

/-!
The write handlers of the files under `/proc/adm6996`: which text keeps them inside their local buffers and inside the
user's buffer. What they set in the switch is a sequence of orders.
-/

namespace TwinpassGateway.Switch

open Foundation

def admSwMaxPortNum : Nat := 5

inductive SwOrder where
  | setBndwth (port : Nat) (txrx : Bool) (speed : U32)
  | setTcpudpFilter (fn port qno : U32)
  | setQosControl (qos : Bool)
  | setQueueWeight (qno : Nat) (weight : U32)
  | setq (port : Nat) (qno : U32)
  | enaFc (port : Nat)
  | disFc (port : Nat)
  | setIgmpProxy (bit : U32)
  | setAdditionalSnoopCtr (bit : U32)
  | setIgmp (bit : U32)
  | setVlanmode (bit : U32)
  | disableCpuPort
  | setCpuPort (port : U32)
  | setMacPriority (mac : List U8) (addmac : Bool) (pri : U32)
  deriving DecidableEq

abbrev ProcRoutine := Routine SwOrder

/-- The characters that `strn_len` goes over. -/
def inWord (c : U8) : Bool := !(asciiText "\"\n\r\t ,").contains c

/-- The characters that `count_trail_chars` goes over. -/
def inGap (c : U8) : Bool := (asciiText "\"\n\r\t =,").contains c

/-- The loop of `strn_len` and `count_trail_chars`, which ask for the bytes from `start` on one by one. -/
def scan (goesOn : U8 → Bool) (u : UserBuffer) (start : Nat) : Nat → Nat → ProcRoutine Int
  | 0, i => pure i
  | left + 1, i => do
    match ← u.getUser (start + i) with
    | none => pure (-efault)
    | some c => if goesOn c then scan goesOn u start left (i + 1) else pure i

def strnLen (u : UserBuffer) (start maxlen : Nat) : ProcRoutine Int := scan inWord u start maxlen 0

def countTrailChars (u : UserBuffer) (start maxlen : Nat) : ProcRoutine Int := scan inGap u start maxlen 0

/-- `simple_strtoul` to the base 10. -/
def simpleStrtoul (text : List U8) : U32 :=
  (text.takeWhile fun c => 0x30#8 ≤ c && c ≤ 0x39#8).foldl (fun result c => result * 10 + (c - 0x30#8).setWidth 32) 0

/-- `c - '0'`. -/
def digit (c : U8) : U32 := c.signExtend 32 - 48#32

def has (needle : String) (text : List U8) : Bool := (strstr (asciiText needle) text).isSome

def checked (len : Int) : ProcRoutine Nat := if len < 0 then .returns len else pure len.toNat

/-- The statements with which every word is taken: its length, and the buffer with the word and a NUL. -/
def takeWord (u : UserBuffer) (buf : LocalChars 80) (i : Nat) : ProcRoutine (Nat × LocalChars 80) := do
  let len ← checked (← strnLen u i 80)
  let bytes ← u.copyFromUser i len
  let buf ← buf.fill 0 bytes
  if bytes.length ≠ len then .returns (-efault)
  else do
    let buf ← buf.store len 0#8
    pure (len, buf)

/-- The statements with which every gap is passed: the length of it. -/
def passGap (u : UserBuffer) (i : Nat) : ProcRoutine Nat := do checked (← countTrailChars u i 80)

/-- `simple_strtoul(buf, &ptr, 10)`. -/
def number (buf : LocalChars 80) : ProcRoutine U32 := do return simpleStrtoul (← buf.text 0)

/-- `buf[len-1] - '0'`. -/
def lastDigit (buf : LocalChars 80) (len : Nat) : ProcRoutine U32 := do return digit (← buf.load (len - 1))

section Handlers

variable (u : UserBuffer)

/-- The loop of `ifx_sw_bdhctl_write_proc`, with so many ports left. -/
def bandwidths (txrx : Bool) : Nat → Nat → LocalChars 80 → Nat → ProcRoutine Unit
  | 0, _, _, _ => pure ()
  | left + 1, port, buf, i => do
    let (len, buf) ← takeWord u buf i
    let speed ← number buf
    let gap ← passGap u (i + len)
    .order (.setBndwth port txrx speed)
    bandwidths txrx left (port + 1) buf (i + len + gap)

def bdhctlWriteProc : ProcRoutine Int := do
  let (len, buf) ← takeWord u {} 0
  let text ← buf.text 0
  if has "TX" text || has "RX" text then do
    let gap ← passGap u len
    bandwidths u (has "TX" text) (admSwMaxPortNum + 1) 0 buf (len + gap)
    pure u.count
  else .returns len

def tcpudpctlWriteProc : ProcRoutine Int := do
  let (len, buf) ← takeWord u {} 0
  let fn ← lastDigit buf len
  let gap ← passGap u len
  let i := len + gap
  let (len, buf) ← takeWord u buf i
  let port ← number buf
  let gap ← passGap u (i + len)
  let i := i + len + gap
  let (len, buf) ← takeWord u buf i
  let qno ← number buf
  let _ ← passGap u (i + len)
  .order (.setTcpudpFilter fn port qno)
  pure u.count

def qosctlWriteProc : ProcRoutine Int := do
  let (_, buf) ← takeWord u {} 0
  let text ← buf.text 0
  .order (.setQosControl (has "1" text))
  pure u.count

/-- The loops that give an order for each number of a list, with so many numbers left. -/
def settings (set : Nat → U32 → SwOrder) : Nat → Nat → LocalChars 80 → Nat → ProcRoutine Unit
  | 0, _, _, _ => pure ()
  | left + 1, n, buf, i => do
    let (len, buf) ← takeWord u buf i
    let value ← number buf
    .order (set n value)
    let gap ← passGap u (i + len)
    settings set left (n + 1) buf (i + len + gap)

def qctlWriteProc : ProcRoutine Int := do
  settings u .setQueueWeight 4 0 {} 0
  pure u.count

def portOrder (ppfc : Bool) (n : Nat) (value : U32) : SwOrder :=
  if ppfc then .setq n value else if value ≠ 0 then .enaFc n else .disFc n

/-- Behind the first word, `PP` or `FC`, a number for every port. -/
def portNumbers (buf : LocalChars 80) (len : Nat) (text : List U8) : ProcRoutine Int :=
  if has "PP" text || has "FC" text then do
    let gap ← passGap u len
    settings u (portOrder (has "PP" text)) (admSwMaxPortNum + 1) 0 buf (len + gap)
    pure u.count
  else .returns len

def pctlWriteProc : ProcRoutine Int := do
  let (len, buf) ← takeWord u {} 0
  let text ← buf.text 0
  portNumbers u buf len text

/-- Behind the first word a second one, whose last character is the setting. -/
def secondDigit (buf : LocalChars 80) (len : Nat) : ProcRoutine U32 := do
  let gap ← passGap u len
  let (len, buf) ← takeWord u buf (len + gap)
  lastDigit buf len

def igmpctlWriteProc : ProcRoutine Int := do
  let (len, buf) ← takeWord u {} 0
  let text ← buf.text 0
  if has "PROXY" text then do
    .order (.setIgmpProxy (← secondDigit u buf len))
    pure u.count
  else if has "AD_SNOOP" text then do
    .order (.setAdditionalSnoopCtr (← secondDigit u buf len))
    pure u.count
  else do
    .order (.setIgmp (← lastDigit buf len))
    pure u.count

inductive VlanSetting where
  | none
  | setMode
  | setCpuPort
  | setFilterAdd
  | setFilterDel
  deriving DecidableEq

def vlanSetting (text : List U8) : VlanSetting :=
  if has "mode" text then .setMode
  else if has "cpu" text then .setCpuPort
  else if has "filter_add" text then .setFilterAdd
  else if has "filter_del" text then .setFilterDel
  else .none

/-- The loop over the members of a filter, which are read but not set: the two bytes in front of the gap are looked at
without `get_user`. -/
def members : Nat → LocalChars 80 → Nat → ProcRoutine Unit
  | 0, _, _ => pure ()
  | left + 1, buf, i => do
    let gap ← passGap u i
    if (← u.deref i) = 0#8 then pure ()
    else if (← u.deref (i + 1)) = 0#8 then pure ()
    else do
      let (len, buf) ← takeWord u buf (i + gap)
      members left buf (i + gap + len)

def vlanctlWriteProc : ProcRoutine Int := do
  let (len, buf) ← takeWord u {} 0
  let text ← buf.text 0
  let gap ← passGap u len
  let i := len + gap
  let (len, buf) ← takeWord u buf i
  match vlanSetting text with
  | .setMode => do
    .order (.setVlanmode (← lastDigit buf len))
    pure u.count
  | .setCpuPort => do
    if has "disable" (← buf.text 0) then .order .disableCpuPort
    else .order (.setCpuPort (← lastDigit buf len))
    pure u.count
  | .setFilterAdd | .setFilterDel => do
    let _ ← lastDigit buf len
    members u (admSwMaxPortNum + 1) buf (i + len)
    pure u.count
  | .none => pure u.count

def devctlWriteProc : ProcRoutine Int := do
  let (len, buf) ← takeWord u {} 0
  let text ← buf.text 0
  if has "ADD" text || has "DEL" text then do
    let gap ← passGap u len
    let i := len + gap
    let (len, buf) ← takeWord u buf i
    let mac : LocalChars 20 := { cells := fun _ => some 0#8 }
    let mac ← mac.fill 0 (← buf.loads 0 len)
    let gap ← passGap u (i + len)
    let i := i + len + gap
    let (_, buf) ← takeWord u buf i
    let value ← number buf
    .order (.setMacPriority (← mac.text 0) (has "ADD" text) value)
    pure u.count
  else portNumbers u buf len text

end Handlers

inductive ProcFile where
  | bdhctl
  | tcpudpctl
  | qosctl
  | qctl
  | pctl
  | igmpctl
  | vlanctl
  | devctl
  deriving DecidableEq

def ProcFile.writeProc : ProcFile → UserBuffer → ProcRoutine Int
  | .bdhctl => bdhctlWriteProc
  | .tcpudpctl => tcpudpctlWriteProc
  | .qosctl => qosctlWriteProc
  | .qctl => qctlWriteProc
  | .pctl => pctlWriteProc
  | .igmpctl => igmpctlWriteProc
  | .vlanctl => vlanctlWriteProc
  | .devctl => devctlWriteProc

/-! ### Texts that fit -/

section Texts

variable (u : UserBuffer)

/-- A word of fewer characters than the local buffer has, and behind it, in front of the count, a separator; then `next`
is for its length. Or a byte comes there that cannot be read. -/
def WordAt (i : Nat) (next : Nat → Prop) : Prop :=
  ∃ n < 80, u.Spans inWord i n ∧ u.EndsAt inWord (i + n) ∧ (u.byte (i + n) ≠ none → next n)

/-- A gap, and behind it, in front of the count, another character, unless the gap is as long as the handler looks. -/
def GapAt (i : Nat) (next : Nat → Prop) : Prop :=
  ∃ n ≤ 80, u.Spans inGap i n ∧ (n = 80 ∨ u.EndsAt inGap (i + n)) ∧ (n = 80 ∨ u.byte (i + n) ≠ none → next n)

def wordText (i n : Nat) : List U8 := (u.readable i n).takeWhile (· ≠ 0#8)

def NumbersAt : Nat → Nat → Prop
  | 0, _ => True
  | left + 1, i => WordAt u i fun n => GapAt u (i + n) fun g => NumbersAt left (i + n + g)

/-- The members of a filter, up to a NUL behind the first separator. -/
def MembersAt : Nat → Nat → Prop
  | 0, _ => True
  | left + 1, i => GapAt u i fun g => u.byte (i + 1) ≠ some 0#8 → WordAt u (i + g) fun n => MembersAt left (i + g + n)

def PortsAt (n : Nat) : Prop :=
  has "PP" (wordText u 0 n) ∨ has "FC" (wordText u 0 n) → GapAt u n fun g => NumbersAt u 6 (n + g)

def ProcFile.Fits : ProcFile → Prop
  | .bdhctl => WordAt u 0 fun n =>
      has "TX" (wordText u 0 n) ∨ has "RX" (wordText u 0 n) → GapAt u n fun g => NumbersAt u 6 (n + g)
  | .tcpudpctl => WordAt u 0 fun n => 0 < n ∧ GapAt u n fun g => NumbersAt u 2 (n + g)
  | .qosctl => WordAt u 0 fun _ => True
  | .qctl => NumbersAt u 4 0
  | .pctl => WordAt u 0 (PortsAt u)
  | .igmpctl => WordAt u 0 fun n =>
      if has "PROXY" (wordText u 0 n) ∨ has "AD_SNOOP" (wordText u 0 n) then
        GapAt u n fun g => WordAt u (n + g) fun m => 0 < m
      else 0 < n
  | .vlanctl => WordAt u 0 fun n => GapAt u n fun g => WordAt u (n + g) fun m =>
      match vlanSetting (wordText u 0 n) with
      | .setMode => 0 < m
      | .setCpuPort => has "disable" (wordText u (n + g) m) ∨ 0 < m
      | .setFilterAdd | .setFilterDel => 0 < m ∧ MembersAt u 6 (n + g + m)
      | .none => True
  | .devctl => WordAt u 0 fun n =>
      if has "ADD" (wordText u 0 n) ∨ has "DEL" (wordText u 0 n) then
        GapAt u n fun g => WordAt u (n + g) fun m => m ≤ 20 ∧
          GapAt u (n + g + m) fun g' => WordAt u (n + g + m + g') fun _ => m < 20 ∨ 0#8 ∈ u.readable (n + g) m
      else PortsAt u n

end Texts

/-! ### One word, one gap -/

variable {u : UserBuffer} {buf : LocalChars 80} {i n : Nat} {α β : Type}

theorem post_scan {goesOn : U8 → Bool} {start left : Nat} {Q : Int → Prop} :
    (scan goesOn u start left i).Post Q ↔ ∃ n ≤ left, u.Spans goesOn (start + i) n ∧
      (n = left ∧ Q (i + n : Nat) ∨
        n < left ∧ u.EndsAt goesOn (start + i + n) ∧ Q (if u.byte (start + i + n) = none then -efault else (i + n : Nat))) := by
  induction left generalizing i with
  | zero =>
    constructor
    · intro post
      exact ⟨0, le_rfl, fun k below => absurd below (Nat.not_lt_zero k), .inl ⟨rfl, post⟩⟩
    · rintro ⟨n, small, -, ⟨rfl, post⟩ | ⟨below, -⟩⟩
      · exact post
      · exact absurd below (by omega)
  | succ left ih =>
    unfold scan
    rw [Routine.post_bind, UserBuffer.post_getUser]
    by_cases goes : ∃ c, u.byte (start + i) = some c ∧ goesOn c = true
    · obtain ⟨c, here, good⟩ := goes
      rw [here]
      dsimp only
      rw [if_pos good, ih]
      constructor
      · rintro ⟨inside, n, small, spans, ends⟩
        refine ⟨n + 1, by omega, UserBuffer.spans_succ.mpr ⟨⟨inside, c, here, good⟩, spans⟩, ?_⟩
        rw [show start + i + (n + 1) = start + (i + 1) + n by omega, show i + (n + 1) = i + 1 + n by omega]
        obtain ⟨rfl, post⟩ | ⟨below, ends⟩ := ends
        · exact .inl ⟨rfl, post⟩
        · exact .inr ⟨by omega, ends⟩
      · rintro ⟨n, small, spans, ends⟩
        cases n with
        | zero =>
          obtain ⟨none_left, -⟩ | ⟨-, ⟨-, other⟩, -⟩ := ends
          · cases none_left
          · exact absurd (good.symm.trans (other c here)) nofun
        | succ n =>
          obtain ⟨⟨inside, -⟩, later⟩ := UserBuffer.spans_succ.mp spans
          rw [show start + i + (n + 1) = start + (i + 1) + n by omega, show i + (n + 1) = i + 1 + n by omega] at ends
          refine ⟨inside, n, by omega, later, ?_⟩
          obtain ⟨full, post⟩ | ⟨below, ends⟩ := ends
          · exact .inl ⟨by omega, post⟩
          · exact .inr ⟨by omega, ends⟩
    · have stop (Q : Int → Prop) : ((match u.byte (start + i) with
            | none => pure (-efault)
            | some c => if goesOn c then scan goesOn u start left (i + 1) else pure i) : ProcRoutine Int).Post Q ↔
          Q (if u.byte (start + i) = none then -efault else (i : Nat)) := by
        cases here : u.byte (start + i) with
        | none => exact Iff.rfl
        | some c =>
          have other : ¬ goesOn c = true := fun good => goes ⟨c, here, good⟩
          simp [other]
      rw [stop]
      constructor
      · rintro ⟨inside, post⟩
        refine ⟨0, Nat.zero_le _, fun k below => absurd below (Nat.not_lt_zero k), .inr ⟨Nat.zero_lt_succ _, ⟨inside, ?_⟩, post⟩⟩
        intro c here
        exact Bool.eq_false_iff.mpr fun good => goes ⟨c, here, good⟩
      · rintro ⟨n, small, spans, ends⟩
        cases n with
        | zero =>
          obtain ⟨none_left, -⟩ | ⟨-, ⟨inside, -⟩, post⟩ := ends
          · cases none_left
          · exact ⟨inside, post⟩
        | succ n => exact absurd (UserBuffer.spans_succ.mp spans).1.2 goes

structure Taken (u : UserBuffer) (i n : Nat) : Prop where
  short : n < 80
  spans : u.Spans inWord i n
  inside : i + n < u.count
  ended : ∃ c, u.byte (i + n) = some c ∧ inWord c = false

theorem Taken.length (taken : Taken u i n) : (u.readable i n).length = n := UserBuffer.readable_length taken.spans

theorem post_checked {len : Int} {Q : Nat → Prop} : (checked len).Post Q ↔ len < 0 ∨ Q len.toNat := by
  unfold checked
  by_cases negative : len < 0
  · simp [negative]
  · simp [negative]

/-- The loop with the check behind it, which goes over 80 characters at most. -/
theorem post_scan_checked {goesOn : U8 → Bool} {Q : Nat → Prop} :
    (scan goesOn u i 80 0).Post (fun len => (checked len).Post Q) ↔
      ∃ n ≤ 80, u.Spans goesOn i n ∧ (n = 80 ∨ u.EndsAt goesOn (i + n)) ∧ (n = 80 ∨ u.byte (i + n) ≠ none → Q n) := by
  have negative : -efault < 0 := by decide
  have counted (n : Nat) : (checked ((0 + n : Nat) : Int)).Post Q ↔ Q n := by
    rw [Nat.zero_add, post_checked, Int.toNat_natCast]
    exact or_iff_right (Int.not_lt.mpr (Int.natCast_nonneg n))
  simp only [post_scan, Nat.add_zero]
  refine exists_congr fun n => and_congr_right fun small => and_congr_right fun spans => ?_
  by_cases full : n = 80
  · have here := counted n
    subst full
    simpa using here
  · have below : n < 80 := by omega
    by_cases unreadable : u.byte (i + n) = none
    · simp only [full, below, unreadable, if_true, post_checked, negative]
      simp
    · simp only [full, below, if_neg unreadable, counted]
      simp [unreadable]

/-- The word is copied into the buffer, and the NUL is stored behind it. -/
theorem post_copyWord (spans : u.Spans inWord i n) {Q : Nat × LocalChars 80 → Prop} :
    (u.copyFromUser i n : ProcRoutine (List U8)).Post (fun bytes => (buf.fill 0 bytes : ProcRoutine (LocalChars 80)).Post fun buf =>
      (if bytes.length ≠ n then .returns (-efault)
        else do
          let buf ← buf.store n 0#8
          pure (n, buf) : ProcRoutine (Nat × LocalChars 80)).Post Q) ↔
      n < 80 ∧ Q (n, buf.withText (u.readable i n)) := by
  have length := UserBuffer.readable_length spans
  have text := LocalChars.filled_append (a := buf) (p := 0) (u.readable i n) [0#8]
  rw [Nat.zero_add, length] at text
  rw [UserBuffer.post_copyFromUser spans, LocalChars.post_fill (Nat.zero_le 80), length, if_neg (not_not.mpr rfl),
    Routine.post_bind, LocalChars.post_store, LocalChars.withText, ← text]
  exact and_iff_right_of_imp fun stored => by omega

theorem post_takeWord {next : Nat × LocalChars 80 → ProcRoutine α} {Q : α → Prop} {R : Nat → Prop}
    (after : ∀ n, Taken u i n → ((next (n, buf.withText (u.readable i n))).Post Q ↔ R n)) :
    (takeWord u buf i >>= next).Post Q ↔ WordAt u i R := by
  unfold takeWord WordAt strnLen
  simp only [Routine.post_bind, post_scan_checked]
  constructor
  · rintro ⟨n, small, spans, ends, post⟩
    have written (come : n = 80 ∨ u.byte (i + n) ≠ none) := (post_copyWord spans).mp (post come)
    have below : n < 80 := by
      by_contra full
      exact full (written (.inl (by omega))).1
    have ended := ends.resolve_left (by omega)
    refine ⟨n, below, spans, ended, fun readable => ?_⟩
    obtain ⟨c, here⟩ := Option.ne_none_iff_exists'.mp readable
    exact (after n ⟨below, spans, ended.1, c, here, ended.2 c here⟩).mp (written (.inr readable)).2
  · rintro ⟨n, below, spans, ended, rest⟩
    refine ⟨n, below.le, spans, .inr ended, fun come => (post_copyWord spans).mpr ⟨below, ?_⟩⟩
    have readable := come.resolve_left (by omega)
    obtain ⟨c, here⟩ := Option.ne_none_iff_exists'.mp readable
    exact (after n ⟨below, spans, ended.1, c, here, ended.2 c here⟩).mpr (rest readable)

theorem post_passGap {next : Nat → ProcRoutine α} {Q : α → Prop} {R : Nat → Prop}
    (after : ∀ n, u.Spans inGap i n → (n = 80 ∨ u.EndsAt inGap (i + n) ∧ u.byte (i + n) ≠ none) →
      ((next n).Post Q ↔ R n)) :
    (passGap u i >>= next).Post Q ↔ GapAt u i R := by
  unfold passGap GapAt countTrailChars
  simp only [Routine.post_bind, post_scan_checked]
  refine exists_congr fun n => and_congr_right fun small => and_congr_right fun spans => and_congr_right fun ends => ?_
  refine forall_congr' fun come => after n spans ?_
  obtain full | readable := come
  · exact .inl full
  · exact ends.imp_right fun ended => ⟨ended, readable⟩

theorem post_text (taken : Taken u i n) {Q : List U8 → Prop} :
    ((buf.withText (u.readable i n)).text 0 : ProcRoutine (List U8)).Post Q ↔ Q (wordText u i n) :=
  LocalChars.post_withText (by rw [taken.length]; exact taken.short)

theorem post_number (taken : Taken u i n) {Q : U32 → Prop} :
    (number (buf.withText (u.readable i n))).Post Q ↔ Q (simpleStrtoul (wordText u i n)) := by
  unfold number
  rw [Routine.post_bind, post_text taken]
  exact Iff.rfl

theorem post_lastDigit (taken : Taken u i n) {Q : U32 → Prop} {R : Prop} (after : ∀ v, Q v ↔ R) :
    (lastDigit (buf.withText (u.readable i n)) n).Post Q ↔ 0 < n ∧ R := by
  have length := taken.length
  have last := @LocalChars.post_withText_last SwOrder 80 buf (u.readable i n)
  rw [length] at last
  unfold lastDigit
  rw [Routine.post_bind, last taken.short]
  constructor
  · rintro ⟨c, found, post⟩
    refine ⟨?_, (after _).mp post⟩
    rw [← length]
    exact List.length_pos_of_mem (List.mem_of_getLast? found)
  · rintro ⟨positive, rest⟩
    have nonempty : u.readable i n ≠ [] := List.ne_nil_of_length_pos (by omega)
    exact ⟨_, List.getLast?_eq_getLast_of_ne_nil nonempty, (after _).mpr rest⟩

/-! ### The handlers -/

theorem bandwidths_inBounds (txrx : Bool) (left port : Nat) (buf : LocalChars 80) (i : Nat) :
    (bandwidths u txrx left port buf i).InBounds ↔ NumbersAt u left i := by
  induction left generalizing port buf i with
  | zero => exact Iff.rfl
  | succ left ih =>
    refine post_takeWord fun n taken => ?_
    rw [Routine.post_bind, post_number taken]
    refine post_passGap fun g _ _ => ?_
    rw [Routine.post_bind, Routine.post_order]
    exact ih _ _ _

theorem settings_inBounds (set : Nat → U32 → SwOrder) (left k : Nat) (buf : LocalChars 80) (i : Nat) :
    (settings u set left k buf i).InBounds ↔ NumbersAt u left i := by
  induction left generalizing k buf i with
  | zero => exact Iff.rfl
  | succ left ih =>
    refine post_takeWord fun n taken => ?_
    rw [Routine.post_bind, post_number taken, Routine.post_bind, Routine.post_order]
    exact post_passGap fun g _ _ => ih _ _ _

theorem post_loop {loop : ProcRoutine Unit} {r : Int} : (loop >>= fun _ => pure r).InBounds ↔ loop.InBounds :=
  Routine.post_bind

theorem bdhctl_inBounds : (bdhctlWriteProc u).InBounds ↔ ProcFile.bdhctl.Fits u := by
  refine post_takeWord fun n taken => ?_
  rw [Routine.post_bind, post_text taken]
  by_cases known : has "TX" (wordText u 0 n) = true ∨ has "RX" (wordText u 0 n) = true
  · rw [if_pos (by simpa using known)]
    refine Iff.trans (b := GapAt u n fun g => NumbersAt u 6 (n + g)) ?_ ⟨fun fits _ => fits, fun fits => fits known⟩
    refine post_passGap fun g _ _ => ?_
    exact post_loop.trans (bandwidths_inBounds _ _ _ _ _)
  · rw [if_neg (by simpa using known)]
    exact iff_of_true Routine.post_returns fun named => absurd named known

theorem portNumbers_inBounds :
    (portNumbers u (buf.withText (u.readable 0 n)) n (wordText u 0 n)).InBounds ↔ PortsAt u n := by
  unfold portNumbers
  by_cases known : has "PP" (wordText u 0 n) = true ∨ has "FC" (wordText u 0 n) = true
  · rw [if_pos (by simpa using known)]
    refine Iff.trans (b := GapAt u n fun g => NumbersAt u 6 (n + g)) ?_ ⟨fun fits _ => fits, fun fits => fits known⟩
    refine post_passGap fun g _ _ => ?_
    exact post_loop.trans (settings_inBounds _ _ _ _ _)
  · rw [if_neg (by simpa using known)]
    exact iff_of_true Routine.post_returns fun named => absurd named known

theorem pctl_inBounds : (pctlWriteProc u).InBounds ↔ ProcFile.pctl.Fits u := by
  refine post_takeWord fun n taken => ?_
  rw [Routine.post_bind, post_text taken]
  exact portNumbers_inBounds

theorem qctl_inBounds : (qctlWriteProc u).InBounds ↔ ProcFile.qctl.Fits u :=
  post_loop.trans (settings_inBounds _ _ _ _ _)

theorem qosctl_inBounds : (qosctlWriteProc u).InBounds ↔ ProcFile.qosctl.Fits u := by
  refine post_takeWord fun n taken => ?_
  rw [Routine.post_bind, post_text taken]
  exact Iff.rfl

theorem tcpudpctl_inBounds : (tcpudpctlWriteProc u).InBounds ↔ ProcFile.tcpudpctl.Fits u := by
  refine post_takeWord fun n taken => ?_
  rw [Routine.post_bind]
  refine post_lastDigit taken fun fn => ?_
  refine post_passGap fun g _ _ => ?_
  refine post_takeWord fun m taken' => ?_
  rw [Routine.post_bind, post_number taken']
  refine post_passGap fun g' _ _ => ?_
  refine post_takeWord fun k taken'' => ?_
  rw [Routine.post_bind, post_number taken'']
  exact post_passGap fun _ _ _ => Iff.rfl

theorem post_secondDigit {Q : U32 → Prop} (always : ∀ v, Q v) :
    (secondDigit u buf n).Post Q ↔ GapAt u n fun g => WordAt u (n + g) fun m => 0 < m := by
  refine post_passGap fun g _ _ => ?_
  refine post_takeWord fun m taken => ?_
  exact (post_lastDigit taken fun v => iff_true_intro (always v)).trans (and_iff_left trivial)

theorem igmpctl_inBounds : (igmpctlWriteProc u).InBounds ↔ ProcFile.igmpctl.Fits u := by
  refine post_takeWord fun n taken => ?_
  rw [Routine.post_bind, post_text taken]
  by_cases proxy : has "PROXY" (wordText u 0 n) = true
  · rw [if_pos proxy, if_pos (.inl proxy), Routine.post_bind]
    exact post_secondDigit fun _ => trivial
  · rw [if_neg proxy]
    by_cases snoop : has "AD_SNOOP" (wordText u 0 n) = true
    · rw [if_pos snoop, if_pos (.inr snoop), Routine.post_bind]
      exact post_secondDigit fun _ => trivial
    · rw [if_neg snoop, if_neg (by simp [proxy, snoop]), Routine.post_bind]
      exact (post_lastDigit taken fun _ => iff_true_intro trivial).trans (and_iff_left trivial)

theorem inGap_of_separator {c : U8} (separator : inWord c = false) : inGap c = true := by
  unfold inWord at separator
  unfold inGap
  have listed : c ∈ asciiText "\"\n\r\t ," := by simpa using separator
  have also : ∀ c ∈ asciiText "\"\n\r\t ,", (asciiText "\"\n\r\t =,").contains c = true := by decide
  exact also c listed

/-- The bytes that are looked at without `get_user` were looked at in the gap. -/
theorem members_inBounds (left : Nat) (buf : LocalChars 80) (i : Nat)
    (separator : ∃ c, u.byte i = some c ∧ inWord c = false) : (members u left buf i).InBounds ↔ MembersAt u left i := by
  induction left generalizing buf i with
  | zero => exact Iff.rfl
  | succ left ih =>
    obtain ⟨c, here, ended⟩ := separator
    refine post_passGap fun g spans ends => ?_
    have gap : inGap c = true := inGap_of_separator ended
    have some_gap : 0 < g := by
      rw [Nat.pos_iff_ne_zero]
      rintro rfl
      obtain full | ⟨ends, -⟩ := ends
      · cases full
      · exact absurd (gap.symm.trans (ends.2 c here)) nofun
    have inside : i < u.count := (spans 0 some_gap).1
    obtain ⟨inside', c', here'⟩ : i + 1 < u.count ∧ ∃ c', u.byte (i + 1) = some c' := by
      by_cases longer : 1 < g
      · obtain ⟨inside', c', here', -⟩ := spans 1 longer
        exact ⟨inside', c', here'⟩
      · obtain rfl : g = 1 := by omega
        obtain ⟨ends, readable⟩ := ends.resolve_left nofun
        exact ⟨ends.1, Option.ne_none_iff_exists'.mp readable⟩
    have other : c ≠ 0#8 := by
      rintro rfl
      exact absurd gap (by decide)
    rw [Routine.post_bind, UserBuffer.post_deref inside here, if_neg other, Routine.post_bind,
      UserBuffer.post_deref inside' here', here']
    by_cases nul : c' = 0#8
    · rw [if_pos nul]
      exact iff_of_true trivial fun more => absurd (congrArg some nul) more
    · rw [if_neg nul]
      refine Iff.trans (b := WordAt u (i + g) fun n => MembersAt u left (i + g + n)) ?_
        ⟨fun fits _ => fits, fun fits => fits fun same => nul (Option.some.inj same)⟩
      exact post_takeWord fun n taken => ih _ _ taken.ended

theorem vlanctl_inBounds : (vlanctlWriteProc u).InBounds ↔ ProcFile.vlanctl.Fits u := by
  refine post_takeWord fun n taken => ?_
  rw [Routine.post_bind, post_text taken]
  refine post_passGap fun g _ _ => ?_
  refine post_takeWord fun m taken' => ?_
  cases vlanSetting (wordText u 0 n) with
  | setMode =>
    dsimp only
    rw [Routine.post_bind]
    exact (post_lastDigit taken' fun _ => iff_true_intro trivial).trans (and_iff_left trivial)
  | setCpuPort =>
    dsimp only
    rw [Routine.post_bind, post_text taken']
    by_cases disable : has "disable" (wordText u (n + g) m) = true
    · rw [if_pos disable]
      exact iff_of_true trivial (.inl disable)
    · rw [if_neg disable, or_iff_right disable, Routine.post_bind]
      exact (post_lastDigit taken' fun _ => iff_true_intro trivial).trans (and_iff_left trivial)
  | setFilterAdd | setFilterDel =>
    dsimp only
    rw [Routine.post_bind]
    refine post_lastDigit taken' fun _ => ?_
    exact post_loop.trans (members_inBounds 6 _ _ taken'.ended)
  | none => exact Iff.rfl

theorem devctl_inBounds : (devctlWriteProc u).InBounds ↔ ProcFile.devctl.Fits u := by
  refine post_takeWord fun n taken => ?_
  rw [Routine.post_bind, post_text taken]
  by_cases named : has "ADD" (wordText u 0 n) = true ∨ has "DEL" (wordText u 0 n) = true
  · rw [if_pos (by simpa using named), if_pos named]
    refine post_passGap fun g _ _ => ?_
    refine post_takeWord fun m taken' => ?_
    have length := taken'.length
    have copied := @LocalChars.post_withText_loads SwOrder 80 (({} : LocalChars 80).withText (u.readable 0 n))
      (u.readable (n + g) m)
    rw [length] at copied
    rw [Routine.post_bind, copied taken'.short, Routine.post_bind, LocalChars.post_fill (Nat.zero_le 20), length, Nat.zero_add]
    refine and_congr_right fun fits => ?_
    refine post_passGap fun g' _ _ => ?_
    refine post_takeWord fun k taken'' => ?_
    have string := @LocalChars.text_zeros SwOrder 20 { cells := fun _ => some 0#8 } (u.readable (n + g) m) (fun _ => rfl)
    rw [length] at string
    rw [Routine.post_bind, post_number taken'', Routine.post_bind]
    exact string fits
  · rw [if_neg (by simpa using named), if_neg named]
    exact portNumbers_inBounds

/-- A write to a file under `/proc/adm6996` stays inside the buffers if and only if its text fits. -/
theorem writeProc_inBounds_iff (f : ProcFile) (u : UserBuffer) : (f.writeProc u).InBounds ↔ f.Fits u := by
  cases f with
  | bdhctl => exact bdhctl_inBounds
  | tcpudpctl => exact tcpudpctl_inBounds
  | qosctl => exact qosctl_inBounds
  | qctl => exact qctl_inBounds
  | pctl => exact pctl_inBounds
  | igmpctl => exact igmpctl_inBounds
  | vlanctl => exact vlanctl_inBounds
  | devctl => exact devctl_inBounds

/-- A count that leaves the separator out, and a word of 80 characters. -/
theorem writeProc_leaves_buffers :
    ¬ (∀ (f : ProcFile) (u : UserBuffer), (f.writeProc u).InBounds) ∧
    (ProcFile.qosctl.writeProc (.ofText (asciiText "1\n") 1)).result = .error (.fault .beyond) ∧
    (ProcFile.qosctl.writeProc (.ofText (asciiText "1\n") 2)).result = .ok 2 ∧
    (ProcFile.qosctl.writeProc (.ofText (List.replicate 80 0x31#8 ++ asciiText "\n") 81)).result = .error (.fault .outside) := by
  refine ⟨fun always => absurd (always .qosctl (.ofText (asciiText "1\n") 1)) (by decide +kernel), ?_⟩
  decide +kernel

end TwinpassGateway.Switch
