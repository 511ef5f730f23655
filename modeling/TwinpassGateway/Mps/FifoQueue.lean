import TwinpassGateway.Foundation.Run
import TwinpassGateway.Mps.FifoWrite

/-!
The mailbox FIFO is a queue: over every interleaving of whole write and read calls the reader gets
the accepted messages, once each and in order.
-/

namespace TwinpassGateway.Mps

open Foundation

/-- A message whose `length` is the size its header announces and covers exactly the words of
`data`, and which is not a wrap-around marker. -/
structure Framed (data : List U32) (length : Nat) : Prop where
  announced : length = mpsMsghdrLen + msgLen (headerWord data)
  covers : data.length = (length + 3) / 4
  notWrapped : msgNextWrapped (headerWord data) = false

/-- What a caller of `ifx_mpsdrv_fifo_write` passes: both protocol bits are clear. -/
structure WellFormed (data : List U32) (length : Nat) : Prop extends Framed data length where
  notReady : msgReady (headerWord data) = false

inductive Call where
  | write (data : List U32) (length : Nat)
  | read

def Call.WellFormed : Call → Prop
  | .write data length => Mps.WellFormed data length
  | .read => True

def Store.index? : Store → Option Nat
  | .word index _ => some index
  | .writeOff _ => none

structure Traffic where
  fifo : MpsFifo
  accepted : List (List U32) := []
  received : List (List U32) := []
  /-- Indices of the words that either side has stored. -/
  stored : List Nat := []

def Traffic.start (size : Nat) (size_lt : size < 2 ^ 32) : Traffic := { fifo := .zeroed size size_lt }

/-- One whole call. A read that returns a message is followed by `ifx_mpsdrv_fifo_read_ptr_inc`. -/
def Traffic.step (t : Traffic) : Call → Traffic
  | .write data length =>
    let (ok, stores) := ifxMpsdrvFifoWrite t.fifo data length
    { t with
      fifo := t.fifo.applyAll stores
      accepted := if ok then t.accepted ++ [data] else t.accepted
      stored := t.stored ++ stores.filterMap Store.index? }
  | .read =>
    match ifxMpsdrvFifoRead t.fifo with
    | (none, f) => { t with fifo := f }
    | (some off, f) =>
      let increment := msg4bytes (f.val1 off)
      { t with
        fifo := ifxMpsdrvFifoReadPtrInc f increment
        received := t.received ++ [f.message off]
        stored := t.stored ++ if increment > f.size then [] else [f.preadOff + 1] }

/-- The messages, with their positions, that a reader would still get from the FIFO as it stands. -/
def drain : Nat → MpsFifo → List (Nat × List U32)
  | 0, _ => []
  | n + 1, f =>
    match ifxMpsdrvFifoRead f with
    | (none, _) => []
    | (some off, f') => (off, f'.message off) :: drain n (ifxMpsdrvFifoReadPtrInc f' (msg4bytes (f'.val1 off)))

def unread (f : MpsFifo) : List (Nat × List U32) := drain f.size f

/-! ### Draining a represented queue -/

theorem drain_none {f f' : MpsFifo} (h : ifxMpsdrvFifoRead f = (none, f')) (n : Nat) : drain n f = [] := by
  cases n with
  | zero => rfl
  | succ n => rw [drain, h]

theorem read_found {f : MpsFifo} {m : List U32} {rest : List (List U32)} (e : Entry m)
    (laid : Holds f.mem f.preadOff (m :: rest).flatten) (same : settle f = f) :
    ifxMpsdrvFifoRead f = (some f.preadOff, f) ∧ f.message f.preadOff = m ∧
      msg4bytes (f.val1 f.preadOff) = m.length := by
  refine ⟨?_, holds_message e laid, by rw [holds_header e laid, e.words]⟩
  rw [read_eq, same, if_pos (by rw [holds_header e laid]; exact e.ready)]

theorem drain_straight {f : MpsFifo} {q : List (List U32)} (entries : ∀ m ∈ q, Entry m) (s : f.Straight q)
    {n : Nat} (fuel : q.length ≤ n) : drain n f = placed f.preadOff q := by
  induction q generalizing f n with
  | nil => exact drain_none (read_nil ⟨entries, Or.inl s⟩) n
  | cons m rest ih =>
    obtain ⟨n, rfl⟩ : ∃ k, n = k + 1 := ⟨n - 1, by simp at fuel; omega⟩
    have e := entries m List.mem_cons_self
    obtain ⟨found, message, words⟩ := read_found e s.laid (straight_settle entries s).1
    have next := straight_readPtrInc e s
    rw [drain, found]
    simp only [message, words, placed]
    rw [ih (fun m' member => entries m' (List.mem_cons_of_mem _ member)) next (by simpa using fuel)]
    congr 2
    have start := next.ends
    have ends := s.ends
    simp only [readPtrInc_pwriteOff, List.flatten_cons, List.length_append] at start ends
    omega

theorem drain_wrapped {f : MpsFifo} {older newer : List (List U32)} (entries : ∀ m ∈ older ++ newer, Entry m)
    (w : f.Wrapped older newer) {n : Nat} (fuel : (older ++ newer).length ≤ n) :
    drain n f = placed f.preadOff older ++ placed 0 newer := by
  induction older generalizing f n with
  | nil =>
    have s := wrapped_settle_marker w
    have again := (straight_settle entries s).1
    have zero : (settle f).preadOff = 0 := by
      have marker : f.val1 f.preadOff = 0x4000#32 := by simpa using w.marker
      simp [settle, readPosition, marker, msgNextWrapped]
    have same : drain n f = drain n (settle f) := by
      cases n with
      | zero => rfl
      | succ n => rw [drain, drain, read_eq (settle f), again, ← read_eq]
    rw [same, drain_straight entries s fuel, zero]
    rfl
  | cons m older ih =>
    obtain ⟨n, rfl⟩ : ∃ k, n = k + 1 := ⟨n - 1, by simp at fuel; omega⟩
    have e := entries m (by simp)
    obtain ⟨found, message, words⟩ := read_found e w.laid (wrapped_settle_older e w).1
    have next := wrapped_readPtrInc e w
    have room := w.room
    simp only [List.flatten_cons, List.length_append] at room
    have moved := readPtrInc_preadOff (f := f) (n := m.length) (by unfold MpsFifo.words at room; omega)
      (by have := f.size_lt; unfold MpsFifo.words at room; omega)
    rw [drain, found]
    simp only [message, words, placed, List.cons_append]
    rw [ih (fun m' member => entries m' (by simp at member ⊢; tauto)) next (by simpa using fuel), moved]

theorem entries_length {q : List (List U32)} (entries : ∀ m ∈ q, Entry m) : 2 * q.length ≤ q.flatten.length := by
  induction q with
  | nil => simp
  | cons m rest ih =>
    have two := (entries m List.mem_cons_self).two
    have := ih fun m' member => entries m' (List.mem_cons_of_mem _ member)
    simp only [List.length_cons, List.flatten_cons, List.length_append]
    omega

theorem represents_length {f : MpsFifo} {q : List (List U32)} (h : f.Represents q) : q.length ≤ f.size := by
  have two := entries_length h.1
  obtain ⟨_, s | ⟨older, newer, rfl, w⟩⟩ := h
  · have ends := s.ends
    rcases s.room with zero | room <;> unfold MpsFifo.words at * <;> omega
  · have room := w.room
    have ends := w.ends
    have low : newer.flatten.length ≤ f.preadOff := by
      rcases w.gap with ⟨_, none, _⟩ | ⟨_, gap, _⟩
      · simp [none]
      · omega
    simp only [List.flatten_append, List.length_append] at two ⊢
    unfold MpsFifo.words at room
    omega

theorem represents_drain {f : MpsFifo} {q : List (List U32)} (h : f.Represents q) {n : Nat}
    (fuel : q.length ≤ n) : (drain n f).map Prod.snd = q := by
  obtain ⟨entries, s | ⟨older, newer, rfl, w⟩⟩ := h
  · rw [drain_straight entries s fuel, placed_blocks]
  · rw [drain_wrapped entries w fuel, List.map_append, placed_blocks, placed_blocks]

theorem represents_unread {f : MpsFifo} {q : List (List U32)} (h : f.Represents q) :
    (unread f).map Prod.snd = q := represents_drain h (represents_length h)

/-! ### Where a write stores -/

theorem entryStores_index {f : MpsFifo} {off : Nat} {data : List U32} (sum : off + data.length < 2 ^ 32) {i : Nat}
    (member : i ∈ (entryStores f off data data.length).filterMap Store.index?) (two : 2 ≤ data.length) :
    off ≤ i ∧ i < off + data.length + 2 := by
  simp only [entryStores, u32_eq sum, copyStores, List.filterMap_append, List.filterMap_map, List.mem_append,
    List.mem_filterMap, Function.comp_apply, Store.index?, List.mem_range, Option.some.injEq, List.mem_cons,
    List.not_mem_nil, or_false] at member
  rcases member with ⟨k, low, rfl⟩ | ⟨st, rfl | rfl | rfl | rfl, same⟩
  · omega
  · cases same; omega
  · cases same
  · cases same; omega
  · cases same; omega

theorem wrapStores_index {f : MpsFifo} {i : Nat} (member : i ∈ (wrapStores f).filterMap Store.index?) :
    i = f.pwriteOff + 1 := by
  simpa [wrapStores, Store.index?] using member

theorem unread_bounds {f : MpsFifo} {q : List (List U32)} (h : f.Represents q) {e : Nat × List U32}
    (member : e ∈ unread f) :
    (f.preadOff ≤ e.1 ∧ (f.Straight q → e.1 + e.2.length ≤ f.pwriteOff)) ∨
      f.pwriteOff < f.preadOff ∧ e.1 + e.2.length ≤ f.pwriteOff := by
  have fuel := represents_length h
  obtain ⟨entries, s | ⟨older, newer, rfl, w⟩⟩ := h
  · rw [unread, drain_straight entries s fuel] at member
    have bounds := placed_bounds member
    exact Or.inl ⟨bounds.1, fun _ => s.ends ▸ bounds.2⟩
  · rw [unread, drain_wrapped entries w fuel, List.mem_append] at member
    rcases member with old | new
    · have bounds := placed_bounds old
      refine Or.inl ⟨bounds.1, fun s => ?_⟩
      have ends := s.ends
      simp only [List.flatten_append, List.length_append] at ends
      omega
    · have bounds := placed_bounds new
      have ends := w.ends
      rcases w.gap with ⟨_, none, _⟩ | ⟨_, gap, _⟩
      · subst none; simp [placed] at new
      · exact Or.inr ⟨by omega, by omega⟩

theorem write_avoids_unread {f : MpsFifo} {q : List (List U32)} {data : List U32} {length : Nat}
    (h : f.Represents q) (two : 2 ≤ data.length) (words : u32 (length + 3) / 4 = data.length)
    (inside : f.pwriteOff + data.length + 2 < 2 ^ 32) {i : Nat}
    (stored : i ∈ (ifxMpsdrvFifoWrite f data length).2.filterMap Store.index?) {e : Nat × List U32}
    (member : e ∈ unread f) : i < e.1 ∨ e.1 + e.2.length ≤ i := by
  have bounds := unread_bounds h member
  have outcome := write_outcome f words inside
  generalize (ifxMpsdrvFifoWrite f data length).1 = ok at outcome
  generalize (ifxMpsdrvFifoWrite f data length).2 = stores at outcome stored
  cases outcome with
  | refused => simp at stored
  | wrapRefused _ free ahead =>
    have := wrapStores_index stored
    have s := straight_of_ahead h free ahead
    rcases bounds with ⟨_, below⟩ | ⟨behind, _⟩
    · have := below s; omega
    · omega
  | fits _ free room =>
    have range := entryStores_index (by omega) stored two
    rcases room with ⟨behind, room⟩ | ⟨ahead, room⟩
    · rcases bounds with ⟨above, _⟩ | ⟨_, below⟩ <;> omega
    · have s := straight_of_ahead h free ahead
      rcases bounds with ⟨_, below⟩ | ⟨behind, _⟩
      · have := below s; omega
      · omega
  | wraps _ free ahead _ _ room =>
    have s := straight_of_ahead h free ahead
    rw [List.filterMap_append, List.mem_append] at stored
    rcases bounds with ⟨above, below⟩ | ⟨behind, _⟩
    · have := below s
      rcases stored with marker | entry
      · have := wrapStores_index marker; omega
      · have := entryStores_index (by omega) entry two; omega
    · omega

theorem represents_preadOff {f : MpsFifo} {q : List (List U32)} (h : f.Represents q) :
    f.preadOff = 0 ∨ f.preadOff + 1 < f.words := by
  obtain ⟨_, s | ⟨older, newer, rfl, w⟩⟩ := h
  · have ends := s.ends
    rcases s.room with zero | room <;> omega
  · have := w.room; omega

theorem represents_pwriteOff {f : MpsFifo} {q : List (List U32)} (h : f.Represents q) :
    f.pwriteOff = 0 ∨ f.pwriteOff + 1 < f.words := by
  obtain ⟨_, s | ⟨older, newer, rfl, w⟩⟩ := h
  · rcases s.room with zero | room <;> omega
  · have := w.room
    rcases w.gap with ⟨_, none, _⟩ | ⟨_, gap, _⟩
    · exact Or.inl (by rw [w.ends, none]; rfl)
    · omega

theorem write_inside {f : MpsFifo} {q : List (List U32)} {data : List U32} {length : Nat}
    (h : f.Represents q) (header : 8 ≤ length) (two : 2 ≤ data.length) (words : u32 (length + 3) / 4 = data.length)
    (inside : f.pwriteOff + data.length + 2 < 2 ^ 32) {i : Nat}
    (stored : i ∈ (ifxMpsdrvFifoWrite f data length).2.filterMap Store.index?) : i < f.words := by
  have readOff := represents_preadOff h
  have writeOff := represents_pwriteOff h
  have outcome := write_outcome f words inside
  generalize (ifxMpsdrvFifoWrite f data length).1 = ok at outcome
  generalize (ifxMpsdrvFifoWrite f data length).2 = stores at outcome stored
  cases outcome with
  | refused => simp at stored
  | wrapRefused short =>
    have := wrapStores_index stored
    have : 2 ≤ f.words := by unfold MpsFifo.words; omega
    omega
  | fits _ _ room =>
    have := entryStores_index (by omega) stored two
    omega
  | wraps _ _ _ _ _ room =>
    rw [List.filterMap_append, List.mem_append] at stored
    rcases stored with marker | entry
    · have := wrapStores_index marker
      omega
    · have := entryStores_index (by omega) entry two
      omega

/-! ### Whole runs -/

theorem Framed.entry {data : List U32} {length : Nat} (wf : Framed data length) :
    Entry (markReady data) ∧ 2 ≤ data.length ∧ 8 ≤ length ∧ data.length ≤ 66 ∧
      u32 (length + 3) / 4 = data.length := by
  have announced := wf.announced
  have covers := wf.covers
  have small := msg4bytes_le (headerWord data)
  have counted : msg4bytes (headerWord data) = data.length := by
    rw [covers, announced, msg4bytes]
  simp only [mpsMsghdrLen] at announced
  have two : 2 ≤ data.length := by omega
  refine ⟨⟨?_, ?_, ?_⟩, two, by omega, by omega, ?_⟩
  · rw [headerWord_markReady two, msgReady_or]
  · rw [headerWord_markReady two, msgNextWrapped_or, wf.notWrapped]
  · rw [headerWord_markReady two, msg4bytes_or, counted, markReady_length]
  · rw [u32_eq (by omega), ← covers]

theorem represents_sum {f : MpsFifo} {q : List (List U32)} (h : f.Represents q) {n : Nat} (small : n ≤ 66) :
    f.pwriteOff + n + 2 < 2 ^ 32 := by
  have := represents_pwriteOff h
  have := f.size_lt
  unfold MpsFifo.words at *
  omega

/-- The invariant of every run: what has been accepted is what has been received and what the FIFO
still represents, and all stores so far were inside the memory. -/
structure Traffic.Faithful (t : Traffic) : Prop where
  queue : ∃ q, t.fifo.Represents q ∧ t.received ++ q = t.accepted.map markReady
  inside : ∀ i ∈ t.stored, i < t.fifo.words

theorem start_faithful {size : Nat} (size_lt : size < 2 ^ 32) : (Traffic.start size size_lt).Faithful :=
  ⟨⟨[], zeroed_represents size_lt, rfl⟩, by simp [Traffic.start]⟩

theorem applyAll_words (f : MpsFifo) (stores : List Store) : (f.applyAll stores).words = f.words := by
  simp [MpsFifo.words]

theorem write_faithful {t : Traffic} {data : List U32} {length : Nat} (inv : t.Faithful)
    (wf : WellFormed data length) : (t.step (.write data length)).Faithful := by
  obtain ⟨⟨q, h, history⟩, inside⟩ := inv
  obtain ⟨e, two, header, small, words⟩ := wf.entry
  have sum := represents_sum h small
  have next := write_represents h e header words sum
  refine ⟨⟨_, next, ?_⟩, ?_⟩
  · simp only [Traffic.step]
    split
    · rw [List.map_append, ← history, List.append_assoc]; rfl
    · exact history
  · intro i member
    simp only [Traffic.step, applyAll_words, List.mem_append] at member ⊢
    rcases member with old | new
    · exact inside i old
    · exact write_inside h header two words sum new

theorem read_faithful {t : Traffic} (inv : t.Faithful) : (t.step .read).Faithful := by
  obtain ⟨⟨q, h, history⟩, inside⟩ := inv
  have settled := settle_represents h
  cases q with
  | nil =>
    simp only [Traffic.step, read_nil h]
    exact ⟨⟨[], settled.1, history⟩, inside⟩
  | cons m rest =>
    obtain ⟨found, message⟩ := read_cons h
    have e := h.1 m List.mem_cons_self
    have laid : Holds (settle t.fifo).mem (settle t.fifo).preadOff [m].flatten := by
      simpa using settled.2.2 m rest rfl
    have words : msg4bytes ((settle t.fifo).val1 (settle t.fifo).preadOff) = m.length := by
      rw [holds_header e laid, e.words]
    simp only [Traffic.step, found, message, words]
    refine ⟨⟨rest, readPtrInc_represents h, by rw [List.append_assoc]; exact history⟩, ?_⟩
    intro i member
    simp only [readPtrInc_words, List.mem_append] at member ⊢
    rcases member with old | new
    · exact inside i old
    · split at new
      · simp at new
      · rename_i short
        have two := e.two
        have readOff := represents_preadOff settled.1
        have own : (settle t.fifo).preadOff + 1 < (settle t.fifo).words := by
          have := settled.1.2
          rcases readOff with zero | inside'
          · rcases this with s | ⟨older, newer, _, w⟩
            · have ends := s.ends
              have room := s.room
              simp only [List.flatten_cons, List.length_append] at ends
              omega
            · have := w.room; omega
          · exact inside'
        rw [List.mem_singleton.mp new]
        exact own

theorem step_faithful (t : Traffic) (c : Call) (inv : t.Faithful) (wf : c.WellFormed) : (t.step c).Faithful := by
  cases c with
  | write data length => exact write_faithful inv wf
  | read => exact read_faithful inv

theorem step_size (t : Traffic) (c : Call) : (t.step c).fifo.size = t.fifo.size := by
  cases c with
  | write data length => simp [Traffic.step]
  | read =>
    simp only [Traffic.step, read_eq]
    cases msgReady ((settle t.fifo).val1 (settle t.fifo).preadOff) <;> simp [settle]

theorem run_size (t : Traffic) (calls : List Call) : (exec Traffic.step t calls).fifo.size = t.fifo.size := by
  induction calls generalizing t with
  | nil => rfl
  | cons c rest ih => rw [exec_cons, ih, step_size]

/-- The mailbox FIFO refines a queue, for every size and every interleaving of whole calls. -/
theorem mailbox_refines_queue {size : Nat} (size_lt : size < 2 ^ 32) {calls : List Call}
    (wellFormed : ∀ c ∈ calls, c.WellFormed) :
    let t := exec Traffic.step (.start size size_lt) calls
    t.received <+: t.accepted.map markReady ∧
    t.received ++ (unread t.fifo).map Prod.snd = t.accepted.map markReady ∧
    (∀ i ∈ t.stored, 4 * i + 4 ≤ size) ∧
    ∀ data length, WellFormed data length →
      let write := ifxMpsdrvFifoWrite t.fifo data length
      (∀ i ∈ write.2.filterMap Store.index?, ∀ e ∈ unread t.fifo, i < e.1 ∨ e.1 + e.2.length ≤ i) ∧
      (write.1 = false → (unread (t.fifo.applyAll write.2)).map Prod.snd = (unread t.fifo).map Prod.snd) := by
  intro t
  have inv : t.Faithful := exec_invariant step_faithful (start_faithful size_lt) wellFormed
  obtain ⟨⟨q, h, history⟩, inside⟩ := inv
  have bytes : t.fifo.size = size := run_size _ calls
  refine ⟨⟨q, history⟩, by rw [represents_unread h, history], ?_, ?_⟩
  · intro i member
    have := inside i member
    unfold MpsFifo.words at this
    omega
  · intro data length wf
    obtain ⟨e, two, header, small, words⟩ := wf.entry
    have sum := represents_sum h small
    refine ⟨fun i stored entry member => write_avoids_unread h two words sum stored member, fun refused => ?_⟩
    have next := write_represents h e header words sum
    rw [refused] at next
    rw [represents_unread next, represents_unread h]
    rfl

theorem mailbox_refines_queue_two_calls :
    (exec Traffic.step (.start 64 (by decide))
        [.write [0x01050101#32, 0x00000004#32, 7#32] 12, .read]).received <+:
      (exec Traffic.step (.start 64 (by decide))
        [.write [0x01050101#32, 0x00000004#32, 7#32] 12, .read]).accepted.map markReady := by
  refine (mailbox_refines_queue (show 64 < 2 ^ 32 by decide) ?_).1
  intro c member
  simp only [List.mem_cons, List.not_mem_nil, or_false] at member
  rcases member with rfl | rfl
  · exact ⟨⟨by decide, by decide, by decide⟩, by decide⟩
  · trivial

example : (exec Traffic.step (.start 64 (by decide))
    [.write [0x01050101#32, 0x00000004#32, 7#32] 12, .read]).received =
      [[0x01050101#32, 0x00008004#32, 7#32]] := by decide

end TwinpassGateway.Mps
