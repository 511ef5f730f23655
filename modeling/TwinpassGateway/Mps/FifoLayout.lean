import TwinpassGateway.Foundation.Segment
import TwinpassGateway.Mps.Fifo

/-!
How unread messages lie in the mailbox FIFO, and what each entry point does to that layout.
A layout is either one stretch from the read offset to the write offset, or a stretch that ends in
the wrap-around marker followed by a second one from offset 0.
-/

namespace TwinpassGateway.Mps

open Foundation

/-! ### Header bits -/

theorem msgReady_or (v : U32) : msgReady (v ||| 0x8000#32) = true := by
  simp [msgReady]

theorem msgReady_and (v : U32) : msgReady (v &&& ~~~0x8000#32) = false := by
  simp [msgReady]

theorem msgNextWrapped_or (v : U32) : msgNextWrapped (v ||| 0x8000#32) = msgNextWrapped v := by
  simp [msgNextWrapped]

theorem msgNextWrapped_and (v : U32) : msgNextWrapped (v &&& ~~~0x8000#32) = msgNextWrapped v := by
  simp [msgNextWrapped]

theorem msgLen_or (v : U32) : msgLen (v ||| 0x8000#32) = msgLen v := by
  have low : (v ||| 0x8000#32).extractLsb' 0 8 = v.extractLsb' 0 8 := by
    apply BitVec.eq_of_getLsbD_eq
    intro i h
    interval_cases i <;> simp
  rw [msgLen, low, msgLen]

theorem msg4bytes_or (v : U32) : msg4bytes (v ||| 0x8000#32) = msg4bytes v := by
  rw [msg4bytes, msgLen_or, msg4bytes]

theorem msg4bytes_two (v : U32) : 2 ≤ msg4bytes v := by
  simp only [msg4bytes, mpsMsghdrLen]
  omega

theorem msg4bytes_le (v : U32) : msg4bytes v ≤ 66 := by
  have := (v.extractLsb' 0 8).isLt
  simp only [msg4bytes, mpsMsghdrLen, msgLen]
  omega

/-! ### Messages -/

def headerWord (ws : List U32) : U32 := ws.getD 1 0

def markReady (ws : List U32) : List U32 := ws.modify 1 (· ||| 0x8000#32)

@[simp] theorem markReady_length (ws : List U32) : (markReady ws).length = ws.length := by simp [markReady]

theorem headerWord_markReady {ws : List U32} (two : 2 ≤ ws.length) :
    headerWord (markReady ws) = headerWord ws ||| 0x8000#32 := by
  simp [headerWord, markReady, List.getD_eq_getElem?_getD,
    List.getElem?_eq_getElem (show 1 < ws.length by omega)]

/-- A published message: ready, not a wrap-around marker, and as long as its header says. -/
structure Entry (ws : List U32) : Prop where
  ready : msgReady (headerWord ws) = true
  notWrapped : msgNextWrapped (headerWord ws) = false
  words : msg4bytes (headerWord ws) = ws.length

theorem Entry.two {ws : List U32} (e : Entry ws) : 2 ≤ ws.length := e.words ▸ msg4bytes_two _

/-! ### The representation invariant -/

namespace MpsFifo

def words (f : MpsFifo) : Nat := f.size / 4

structure Blank (f : MpsFifo) (off : Nat) : Prop where
  notReady : msgReady (f.val1 off) = false
  notWrapped : msgNextWrapped (f.val1 off) = false

structure Straight (f : MpsFifo) (q : List (List U32)) : Prop where
  laid : Holds f.mem f.preadOff q.flatten
  ends : f.pwriteOff = f.preadOff + q.flatten.length
  room : f.pwriteOff = 0 ∨ f.pwriteOff + 2 < f.words
  free : msgReady (f.val1 f.pwriteOff) = false
  unmarked : f.pwriteOff = 0 ∨ msgNextWrapped (f.val1 f.pwriteOff) = false
  start : f.preadOff = 0 ∨ 2 ≤ f.preadOff ∧ f.Blank 0

/-- The older messages end in the marker, the newer ones start at offset 0. The writer may also
have gone back to a beginning that is still unread: then nothing has been written there. -/
structure Wrapped (f : MpsFifo) (older newer : List (List U32)) : Prop where
  laid : Holds f.mem f.preadOff older.flatten
  marker : f.val1 (f.preadOff + older.flatten.length) = 0x4000#32
  room : f.preadOff + older.flatten.length + 1 < f.words
  low : Holds f.mem 0 newer.flatten
  ends : f.pwriteOff = newer.flatten.length
  gap : f.preadOff = 0 ∧ newer = [] ∧ older ≠ [] ∨
    2 ≤ f.preadOff ∧ f.pwriteOff + 2 ≤ f.preadOff ∧ f.Blank f.pwriteOff

/-- The FIFO represents the queue of unread messages `q`. -/
def Represents (f : MpsFifo) (q : List (List U32)) : Prop :=
  (∀ m ∈ q, Entry m) ∧
    (f.Straight q ∨ ∃ older newer, q = older ++ newer ∧ f.Wrapped older newer)

end MpsFifo

theorem zeroed_represents {size : Nat} (size_lt : size < 2 ^ 32) : (MpsFifo.zeroed size size_lt).Represents [] := by
  refine ⟨by simp, Or.inl ⟨by simp, rfl, Or.inl rfl, ?_, Or.inl rfl, Or.inl rfl⟩⟩
  simp [MpsFifo.zeroed, MpsFifo.val1, msgReady]

theorem holds_header {f : MpsFifo} {m : List U32} {rest : List (List U32)} {off : Nat} (e : Entry m)
    (laid : Holds f.mem off (m :: rest).flatten) : f.val1 off = headerWord m := by
  have head := (holds_append.mp (List.flatten_cons ▸ laid)).1
  exact head.getD 1 e.two 0

theorem holds_message {f : MpsFifo} {m : List U32} {rest : List (List U32)} {off : Nat} (e : Entry m)
    (laid : Holds f.mem off (m :: rest).flatten) : f.message off = m := by
  rw [MpsFifo.message, holds_header e laid, e.words]
  exact (holds_append.mp (List.flatten_cons ▸ laid)).1.read

/-! ### Reading -/

/-- The reader after it has followed the marker, if it stands on one. -/
def settle (f : MpsFifo) : MpsFifo := { f with preadOff := readPosition f }

theorem read_eq (f : MpsFifo) : ifxMpsdrvFifoRead f =
    (if msgReady ((settle f).val1 (settle f).preadOff) then some (settle f).preadOff else none, settle f) := rfl

theorem settle_of_notWrapped {f : MpsFifo} (h : msgNextWrapped (f.val1 f.preadOff) = false) : settle f = f := by
  simp [settle, readPosition, h]

theorem settle_of_zero {f : MpsFifo} (h : f.preadOff = 0) : settle f = f := by
  cases f with | mk mem size preadOff pwriteOff size_lt =>
  subst h
  simp [settle, readPosition]

/-- After following the marker the reader stands on a message, or the queue is empty. -/
def Settled (f : MpsFifo) (q : List (List U32)) : Prop :=
  (q = [] → msgReady (f.val1 f.preadOff) = false) ∧
    ∀ m rest, q = m :: rest → Holds f.mem f.preadOff m

theorem straight_settle {f : MpsFifo} {q : List (List U32)} (entries : ∀ m ∈ q, Entry m) (s : f.Straight q) :
    settle f = f ∧ Settled f q := by
  cases q with
  | nil =>
    have same : f.pwriteOff = f.preadOff := by simpa using s.ends
    refine ⟨?_, fun _ => same ▸ s.free, by simp⟩
    rcases s.unmarked with zero | unmarked
    · exact settle_of_zero (same ▸ zero)
    · exact settle_of_notWrapped (same ▸ unmarked)
  | cons m rest =>
    have e := entries m List.mem_cons_self
    refine ⟨settle_of_notWrapped (by rw [holds_header e s.laid]; exact e.notWrapped), by simp, ?_⟩
    rintro m' rest' ⟨⟩
    exact (holds_append.mp (List.flatten_cons ▸ s.laid)).1

theorem wrapped_settle_older {f : MpsFifo} {m : List U32} {older newer : List (List U32)} (e : Entry m)
    (w : f.Wrapped (m :: older) newer) : settle f = f ∧ Holds f.mem f.preadOff m :=
  ⟨settle_of_notWrapped (by rw [holds_header e w.laid]; exact e.notWrapped),
    (holds_append.mp (List.flatten_cons ▸ w.laid)).1⟩

theorem wrapped_settle_marker {f : MpsFifo} {newer : List (List U32)} (w : f.Wrapped [] newer) :
    (settle f).Straight newer := by
  have zero : readPosition f = 0 := by
    have marker : f.val1 f.preadOff = 0x4000#32 := by simpa using w.marker
    simp [readPosition, marker, msgNextWrapped]
  have room := w.room
  rcases w.gap with ⟨_, _, none⟩ | ⟨_, gap, blank⟩
  · exact absurd rfl none
  · refine ⟨?_, ?_, Or.inr ?_, blank.notReady, Or.inr blank.notWrapped, Or.inl zero⟩
    · simpa [settle, zero] using w.low
    · simpa [settle, zero] using w.ends
    · simp only [List.flatten_nil, List.length_nil] at room
      show f.pwriteOff + 2 < f.words
      omega

theorem settle_represents {f : MpsFifo} {q : List (List U32)} (h : f.Represents q) :
    (settle f).Represents q ∧ Settled (settle f) q := by
  obtain ⟨entries, straight | ⟨older, newer, rfl, wrapped⟩⟩ := h
  · obtain ⟨same, settled⟩ := straight_settle entries straight
    rw [same]
    exact ⟨⟨entries, Or.inl straight⟩, settled⟩
  · cases older with
    | nil =>
      have straight := wrapped_settle_marker wrapped
      have settled := straight_settle entries straight
      exact ⟨⟨entries, Or.inl straight⟩, settled.2⟩
    | cons m older =>
      obtain ⟨same, head⟩ := wrapped_settle_older (entries m (by simp)) wrapped
      rw [same]
      refine ⟨⟨entries, Or.inr ⟨m :: older, newer, rfl, wrapped⟩⟩, by simp, ?_⟩
      rintro m' rest ⟨⟩
      exact head

theorem read_nil {f : MpsFifo} (h : f.Represents []) : ifxMpsdrvFifoRead f = (none, settle f) := by
  obtain ⟨_, settled⟩ := settle_represents h
  rw [read_eq, if_neg (by simp [settled.1 rfl])]

theorem read_cons {f : MpsFifo} {m : List U32} {q : List (List U32)} (h : f.Represents (m :: q)) :
    ifxMpsdrvFifoRead f = (some (settle f).preadOff, settle f) ∧
      (settle f).message (settle f).preadOff = m := by
  obtain ⟨⟨entries, _⟩, settled⟩ := settle_represents h
  have e := entries m (by simp)
  have laid : Holds (settle f).mem (settle f).preadOff [m].flatten := by simpa using settled.2 m q rfl
  refine ⟨?_, holds_message e laid⟩
  rw [read_eq, if_pos (by rw [holds_header e laid]; exact e.ready)]

/-! ### Moving the read offset -/

theorem readPtrInc_val1_same (f : MpsFifo) {n : Nat} (h : n ≤ f.size) :
    (ifxMpsdrvFifoReadPtrInc f n).val1 f.preadOff = f.val1 f.preadOff &&& ~~~0x8000#32 := by
  simp [ifxMpsdrvFifoReadPtrInc, Nat.not_lt.mpr h, MpsFifo.val1]

theorem readPtrInc_mem_other (f : MpsFifo) (n : Nat) {i : Nat} (h : i ≠ f.preadOff + 1) :
    (ifxMpsdrvFifoReadPtrInc f n).mem i = f.mem i := by
  unfold ifxMpsdrvFifoReadPtrInc
  split
  · rfl
  · exact Function.update_of_ne h _ _

theorem readPtrInc_blank_other {f : MpsFifo} {n off : Nat} (b : f.Blank off) (h : off ≠ f.preadOff) :
    (ifxMpsdrvFifoReadPtrInc f n).Blank off := by
  have same : (ifxMpsdrvFifoReadPtrInc f n).val1 off = f.val1 off := readPtrInc_mem_other f n (by omega)
  exact ⟨same ▸ b.notReady, same ▸ b.notWrapped⟩

/-- A message that has been read is blank: its ready bit is gone and it never carried the marker. -/
theorem readPtrInc_blank_same {f : MpsFifo} {n : Nat} (h : n ≤ f.size)
    (unmarked : msgNextWrapped (f.val1 f.preadOff) = false) :
    (ifxMpsdrvFifoReadPtrInc f n).Blank f.preadOff :=
  ⟨by rw [readPtrInc_val1_same f h, msgReady_and], by rw [readPtrInc_val1_same f h, msgNextWrapped_and, unmarked]⟩

theorem readPtrInc_preadOff {f : MpsFifo} {n : Nat} (h : n ≤ f.size) (sum : f.preadOff + n < 2 ^ 32) :
    (ifxMpsdrvFifoReadPtrInc f n).preadOff = f.preadOff + n := by
  simp [ifxMpsdrvFifoReadPtrInc, Nat.not_lt.mpr h, u32_eq sum]

@[simp] theorem readPtrInc_pwriteOff (f : MpsFifo) (n : Nat) :
    (ifxMpsdrvFifoReadPtrInc f n).pwriteOff = f.pwriteOff := by
  unfold ifxMpsdrvFifoReadPtrInc; split <;> rfl

@[simp] theorem readPtrInc_size (f : MpsFifo) (n : Nat) : (ifxMpsdrvFifoReadPtrInc f n).size = f.size := by
  unfold ifxMpsdrvFifoReadPtrInc; split <;> rfl

@[simp] theorem readPtrInc_words (f : MpsFifo) (n : Nat) : (ifxMpsdrvFifoReadPtrInc f n).words = f.words := by
  simp [MpsFifo.words]

theorem straight_readPtrInc {f : MpsFifo} {m : List U32} {q : List (List U32)} (e : Entry m)
    (s : f.Straight (m :: q)) : (ifxMpsdrvFifoReadPtrInc f m.length).Straight q := by
  have two := e.two
  have ends := s.ends
  simp only [List.flatten_cons, List.length_append] at ends
  have room : f.pwriteOff + 2 < f.words := by rcases s.room with zero | room <;> omega
  have fits : m.length ≤ f.size := by unfold MpsFifo.words at room; omega
  have moved := readPtrInc_preadOff fits (by have := f.size_lt; unfold MpsFifo.words at room; omega)
  have unmarked : msgNextWrapped (f.val1 f.preadOff) = false := by
    rw [holds_header e s.laid]; exact e.notWrapped
  have writeHeader : (ifxMpsdrvFifoReadPtrInc f m.length).val1 f.pwriteOff = f.val1 f.pwriteOff :=
    readPtrInc_mem_other f _ (by omega)
  refine ⟨?_, ?_, Or.inr (by simpa using room), ?_, Or.inr ?_, Or.inr ⟨by omega, ?_⟩⟩
  · rw [moved]
    refine (holds_append.mp (List.flatten_cons ▸ s.laid)).2.frame fun i low _ => ?_
    exact readPtrInc_mem_other f _ (by omega)
  · rw [moved, readPtrInc_pwriteOff]; omega
  · rw [readPtrInc_pwriteOff, writeHeader]; exact s.free
  · rw [readPtrInc_pwriteOff, writeHeader]
    exact s.unmarked.resolve_left (by omega)
  · rcases s.start with zero | ⟨two', blank⟩
    · exact zero ▸ readPtrInc_blank_same fits unmarked
    · exact readPtrInc_blank_other blank (by omega)

theorem wrapped_readPtrInc {f : MpsFifo} {m : List U32} {older newer : List (List U32)} (e : Entry m)
    (w : f.Wrapped (m :: older) newer) : (ifxMpsdrvFifoReadPtrInc f m.length).Wrapped older newer := by
  have two := e.two
  have room := w.room
  have marker := w.marker
  simp only [List.flatten_cons, List.length_append, ← Nat.add_assoc] at room marker
  have fits : m.length ≤ f.size := by unfold MpsFifo.words at room; omega
  have moved := readPtrInc_preadOff fits (by have := f.size_lt; unfold MpsFifo.words at room; omega)
  have unmarked : msgNextWrapped (f.val1 f.preadOff) = false := by
    rw [holds_header e w.laid]; exact e.notWrapped
  refine ⟨?_, ?_, ?_, ?_, by rw [readPtrInc_pwriteOff]; exact w.ends, Or.inr ⟨by omega, ?_⟩⟩
  · rw [moved]
    refine (holds_append.mp (List.flatten_cons ▸ w.laid)).2.frame fun i low _ => ?_
    exact readPtrInc_mem_other f _ (by omega)
  · rw [moved, ← marker]
    exact readPtrInc_mem_other f _ (by omega)
  · rw [moved, readPtrInc_words]; exact room
  · refine w.low.frame fun i _ high => readPtrInc_mem_other f _ ?_
    have ends := w.ends
    rcases w.gap with ⟨_, none, _⟩ | ⟨_, gap, _⟩
    · simp [none] at high
    · omega
  · rw [readPtrInc_pwriteOff, moved]
    rcases w.gap with ⟨zero, none, _⟩ | ⟨_, gap, blank⟩
    · have start : f.pwriteOff = f.preadOff := by rw [zero, w.ends, none]; rfl
      exact ⟨by omega, start ▸ readPtrInc_blank_same fits unmarked⟩
    · exact ⟨by omega, readPtrInc_blank_other blank (by omega)⟩

theorem readPtrInc_represents {f : MpsFifo} {m : List U32} {q : List (List U32)} (h : f.Represents (m :: q)) :
    (ifxMpsdrvFifoReadPtrInc (settle f) m.length).Represents q := by
  obtain ⟨⟨entries, layout⟩, settled⟩ := settle_represents h
  have e := entries m (by simp)
  have rest : ∀ m' ∈ q, Entry m' := fun m' member => entries m' (List.mem_cons_of_mem _ member)
  refine ⟨rest, ?_⟩
  rcases layout with straight | ⟨older, newer, split, wrapped⟩
  · exact Or.inl (straight_readPtrInc e straight)
  · cases older with
    | nil =>
      -- the settled reader stands on `m`, not on the marker
      have laid : Holds (settle f).mem (settle f).preadOff [m].flatten := by simpa using settled.2 m q rfl
      have marker := wrapped.marker
      simp only [List.flatten_nil, List.length_nil, Nat.add_zero, holds_header e laid] at marker
      have ready := e.ready
      rw [marker] at ready
      exact absurd ready (by decide)
    | cons m' older =>
      obtain ⟨rfl, rfl⟩ := List.cons.inj split
      exact Or.inr ⟨older, newer, rfl, wrapped_readPtrInc e wrapped⟩

end TwinpassGateway.Mps
