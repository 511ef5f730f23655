import TwinpassGateway.Mps.FifoLayout

/-!
What a mailbox write does to the layout of the FIFO. `WriteOutcome` lists everything
`ifx_mpsdrv_fifo_write` can do; the layout results are proved from it.
-/

namespace TwinpassGateway.Mps

open Foundation

/-! ### The stores of one entry -/

theorem copyStores_succ (off : Nat) (data : List U32) (n : Nat) :
    copyStores off data (n + 1) = copyStores off data n ++ [.word (off + n) (data.getD n 0)] := by
  simp [copyStores, List.range_succ]

theorem applyAll_copyStores (f : MpsFifo) (off : Nat) (data : List U32) (n : Nat) :
    f.applyAll (copyStores off data n) =
      { f with mem := fun j => if off ≤ j ∧ j < off + n then data.getD (j - off) 0 else f.mem j } := by
  induction n with
  | zero =>
    have none : ∀ j, ¬(off ≤ j ∧ j < off + 0) := fun j h => by omega
    simp only [none, if_false]
    rfl
  | succ n ih =>
    rw [copyStores_succ, MpsFifo.applyAll_append, ih]
    simp only [MpsFifo.applyAll_cons, MpsFifo.applyAll_nil, MpsFifo.apply, MpsFifo.mk.injEq, and_true]
    funext j
    by_cases last : j = off + n
    · subst last
      simp
    · rw [Function.update_of_ne last]
      by_cases before : off ≤ j ∧ j < off + n
      · rw [if_pos before, if_pos (by omega)]
      · rw [if_neg before, if_neg (by omega)]

/-- `g` is `f` with the message `m` published at `off` and the header behind it cleared. -/
structure Published (f g : MpsFifo) (off : Nat) (m : List U32) : Prop where
  held : Holds g.mem off m
  cleared : g.val1 (off + m.length) = 0
  frame : ∀ j, j < off ∨ off + m.length + 2 ≤ j → g.mem j = f.mem j
  writeOff : g.pwriteOff = off + m.length

theorem Published.blank {f g : MpsFifo} {off : Nat} {m : List U32} (p : Published f g off m) : g.Blank g.pwriteOff := by
  rw [p.writeOff]
  exact ⟨by rw [p.cleared]; decide, by rw [p.cleared]; decide⟩

theorem entryStores_published (f : MpsFifo) (off : Nat) {data : List U32} (two : 2 ≤ data.length)
    (sum : off + data.length < 2 ^ 32) :
    Published f (f.applyAll (entryStores f off data data.length)) off (markReady data) := by
  have next : u32 (off + data.length) = off + data.length := u32_eq sum
  simp only [entryStores, next, MpsFifo.applyAll_append, applyAll_copyStores, MpsFifo.applyAll_cons,
    MpsFifo.applyAll_nil, MpsFifo.apply]
  refine ⟨?_, ?_, ?_, by simp⟩
  · intro i h
    rw [markReady_length] at h
    dsimp only
    rw [Function.update_of_ne (by omega), Function.update_of_ne (by omega)]
    by_cases header : i = 1
    · subst header
      simp [MpsFifo.val1, markReady, show 1 < data.length by omega, List.getD_eq_getElem?_getD]
    · rw [Function.update_of_ne (by omega), if_pos (by omega)]
      simp [markReady, List.getD_eq_getElem?_getD, List.getElem?_eq_getElem h, Ne.symm header]
  · simp [MpsFifo.val1]
  · intro j outside
    rw [markReady_length] at outside
    dsimp only
    rw [Function.update_of_ne (by omega), Function.update_of_ne (by omega),
      Function.update_of_ne (by omega), if_neg (by omega)]

/-! ### Everything a write can do -/

/-- The FIFO after the writer has left the marker and gone back to the beginning. -/
def MpsFifo.wrapped (f : MpsFifo) : MpsFifo := f.applyAll (wrapStores f)

theorem wrapped_mem_other (f : MpsFifo) {j : Nat} (h : j ≠ f.pwriteOff + 1) : f.wrapped.mem j = f.mem j :=
  Function.update_of_ne h _ _

theorem wrapped_marker (f : MpsFifo) : f.wrapped.val1 f.pwriteOff = 0x4000#32 := Function.update_self ..

@[simp] theorem wrapped_pwriteOff (f : MpsFifo) : f.wrapped.pwriteOff = 0 := rfl

@[simp] theorem wrapped_preadOff (f : MpsFifo) : f.wrapped.preadOff = f.preadOff := rfl

@[simp] theorem wrapped_size (f : MpsFifo) : f.wrapped.size = f.size := rfl

@[simp] theorem wrapped_words (f : MpsFifo) : f.wrapped.words = f.words := rfl

/-- The outcomes of `ifx_mpsdrv_fifo_write` for a message of `data.length` words, with the tests
that lead to each of them. -/
inductive WriteOutcome (f : MpsFifo) (data : List U32) (length : Nat) : Bool → List Store → Prop where
  | refused (why : f.size < length ∨ msgReady (f.val1 f.pwriteOff) = true ∨
      f.pwriteOff < f.preadOff ∧ f.preadOff < f.pwriteOff + data.length + 2) :
      WriteOutcome f data length false []
  | wrapRefused (short : length ≤ f.size) (free : msgReady (f.val1 f.pwriteOff) = false)
      (ahead : f.preadOff ≤ f.pwriteOff) (past : f.words ≤ f.pwriteOff + data.length + 2)
      (why : msgReady (f.wrapped.val1 0) = true ∨ f.preadOff < data.length + 2) :
      WriteOutcome f data length false (wrapStores f)
  | fits (short : length ≤ f.size) (free : msgReady (f.val1 f.pwriteOff) = false)
      (room : f.pwriteOff < f.preadOff ∧ f.pwriteOff + data.length + 2 ≤ f.preadOff ∨
        f.preadOff ≤ f.pwriteOff ∧ f.pwriteOff + data.length + 2 < f.words) :
      WriteOutcome f data length true (entryStores f f.pwriteOff data data.length)
  | wraps (short : length ≤ f.size) (free : msgReady (f.val1 f.pwriteOff) = false)
      (ahead : f.preadOff ≤ f.pwriteOff) (past : f.words ≤ f.pwriteOff + data.length + 2)
      (freeStart : msgReady (f.wrapped.val1 0) = false) (room : data.length + 2 ≤ f.preadOff) :
      WriteOutcome f data length true (wrapStores f ++ entryStores f.wrapped 0 data data.length)

theorem write_outcome (f : MpsFifo) {data : List U32} {length : Nat} (words : u32 (length + 3) / 4 = data.length)
    (inside : f.pwriteOff + data.length + 2 < 2 ^ 32) :
    WriteOutcome f data length (ifxMpsdrvFifoWrite f data length).1 (ifxMpsdrvFifoWrite f data length).2 := by
  have sum : u32 (f.pwriteOff + data.length + mpsMinMargin) = f.pwriteOff + data.length + 2 := u32_eq inside
  have start : u32 (f.wrapped.pwriteOff + data.length + mpsMinMargin) = data.length + 2 := by
    rw [wrapped_pwriteOff, Nat.zero_add]
    exact u32_eq (by simp only [mpsMinMargin]; omega)
  have back : f.applyAll (wrapStores f) = f.wrapped := rfl
  simp only [ifxMpsdrvFifoWrite, words, sum, back, start, wrapped_preadOff]
  by_cases short : length ≤ f.size
  · rw [if_neg (Nat.not_lt.mpr short)]
    cases free : msgReady (f.val1 f.pwriteOff) with
    | true => exact .refused (Or.inr (Or.inl free))
    | false =>
      simp only [Bool.false_eq_true, if_false]
      by_cases behind : f.pwriteOff < f.preadOff
      · rw [if_pos behind]
        by_cases tight : f.pwriteOff + data.length + 2 > f.preadOff
        · rw [if_pos tight]; exact .refused (Or.inr (Or.inr ⟨behind, tight⟩))
        · rw [if_neg tight]; exact .fits short free (Or.inl ⟨behind, by omega⟩)
      · rw [if_neg behind]
        by_cases past : f.pwriteOff + data.length + 2 ≥ f.size / 4
        · rw [if_pos past]
          cases freeStart : msgReady (f.wrapped.val1 0) with
          | true => exact .wrapRefused short free (by omega) past (Or.inl freeStart)
          | false =>
            simp only [Bool.false_eq_true, if_false]
            by_cases tight : data.length + 2 > f.preadOff
            · rw [if_pos tight]; exact .wrapRefused short free (by omega) past (Or.inr tight)
            · rw [if_neg tight]; exact .wraps short free (by omega) past freeStart (by omega)
        · rw [if_neg past]; exact .fits short free (Or.inr ⟨by omega, Nat.not_le.mp past⟩)
  · rw [if_pos (by omega)]
    exact .refused (Or.inl (by omega))

/-! ### Writing keeps the layout -/

/-- The layout of a FIFO whose writer is not behind its reader and stands on a free header. -/
theorem straight_of_ahead {f : MpsFifo} {q : List (List U32)} (h : f.Represents q)
    (free : msgReady (f.val1 f.pwriteOff) = false) (ahead : f.preadOff ≤ f.pwriteOff) : f.Straight q := by
  obtain ⟨entries, straight | ⟨older, newer, rfl, w⟩⟩ := h
  · exact straight
  · rcases w.gap with ⟨zero, none, some⟩ | ⟨_, gap, _⟩
    · -- the writer went back to an unread beginning, whose header is ready
      obtain ⟨m, rest, rfl⟩ := List.exists_cons_of_ne_nil some
      have e := entries m (by simp)
      have start : f.pwriteOff = f.preadOff := by rw [zero, w.ends, none]; rfl
      rw [start, holds_header e w.laid, e.ready] at free
      exact absurd free (by decide)
    · omega

theorem wrapped_of_behind {f : MpsFifo} {q : List (List U32)} (h : f.Represents q)
    (behind : f.pwriteOff < f.preadOff) :
    ∃ older newer, q = older ++ newer ∧ f.Wrapped older newer ∧ f.Blank f.pwriteOff := by
  obtain ⟨_, straight | ⟨older, newer, split, w⟩⟩ := h
  · have := straight.ends; omega
  · refine ⟨older, newer, split, w, ?_⟩
    rcases w.gap with ⟨zero, _, _⟩ | ⟨_, _, blank⟩
    · omega
    · exact blank

theorem straight_bounds {f : MpsFifo} {q : List (List U32)} (s : f.Straight q) (two : 2 ≤ f.words) :
    f.pwriteOff + 1 < f.words := by
  rcases s.room with zero | room <;> omega

/-- Going back to the beginning keeps the unread messages, whether or not a message follows. -/
theorem wrapped_represents {f : MpsFifo} {q : List (List U32)} (h : f.Represents q) (two : 2 ≤ f.words)
    (free : msgReady (f.val1 f.pwriteOff) = false) (ahead : f.preadOff ≤ f.pwriteOff) :
    f.wrapped.Represents q := by
  have s := straight_of_ahead h free ahead
  have ends := s.ends
  have laid : Holds f.wrapped.mem f.preadOff q.flatten :=
    s.laid.frame fun i _ high => wrapped_mem_other f (by omega)
  have inside := straight_bounds s two
  have marker : f.wrapped.val1 (f.preadOff + q.flatten.length) = 0x4000#32 := ends ▸ wrapped_marker f
  refine ⟨h.1, ?_⟩
  rcases s.start with zero | ⟨two', blank⟩
  · cases q with
    | nil =>
      have start : f.pwriteOff = 0 := by simpa [zero] using ends
      refine Or.inl ⟨by simp, by simp [zero], Or.inl rfl, ?_, Or.inl rfl, Or.inl zero⟩
      rw [wrapped_pwriteOff, ← start, wrapped_marker]
      decide
    | cons m rest =>
      exact Or.inr ⟨m :: rest, [], by simp, laid, marker, ends ▸ inside, by simp, rfl,
        Or.inl ⟨zero, rfl, by simp⟩⟩
  · have same : f.wrapped.val1 0 = f.val1 0 := wrapped_mem_other f (by omega)
    exact Or.inr ⟨q, [], by simp, laid, marker, ends ▸ inside, by simp, rfl,
      Or.inr ⟨two', by simpa using two', same ▸ blank.notReady, same ▸ blank.notWrapped⟩⟩

theorem straight_published {f g : MpsFifo} {q : List (List U32)} {m : List U32} (s : f.Straight q)
    (p : Published f g f.pwriteOff m) (sameRead : g.preadOff = f.preadOff) (sameSize : g.size = f.size)
    (room : f.pwriteOff + m.length + 2 < f.words) : g.Straight (q ++ [m]) := by
  have ends := s.ends
  have flat : (q ++ [m]).flatten = q.flatten ++ m := by simp
  have writeOff := p.writeOff
  refine ⟨?_, ?_, Or.inr ?_, p.blank.notReady, Or.inr p.blank.notWrapped, ?_⟩
  · rw [flat, sameRead]
    refine holds_append.mpr ⟨s.laid.frame fun i _ high => p.frame i (by omega), ?_⟩
    rw [← ends]; exact p.held
  · rw [flat, List.length_append, sameRead]; omega
  · simp only [MpsFifo.words, sameSize] at room ⊢; omega
  · rw [sameRead]
    rcases s.start with zero | ⟨two', blank⟩
    · exact Or.inl zero
    · have same : g.val1 0 = f.val1 0 := p.frame 1 (by omega)
      exact Or.inr ⟨two', same ▸ blank.notReady, same ▸ blank.notWrapped⟩

theorem wrapped_published {f g : MpsFifo} {older newer : List (List U32)} {m : List U32}
    (w : f.Wrapped older newer) (p : Published f g f.pwriteOff m)
    (sameRead : g.preadOff = f.preadOff) (sameSize : g.size = f.size)
    (room : f.pwriteOff + m.length + 2 ≤ f.preadOff) : g.Wrapped older (newer ++ [m]) := by
  have ends := w.ends
  have flat : (newer ++ [m]).flatten = newer.flatten ++ m := by simp
  refine ⟨?_, ?_, ?_, ?_, ?_, Or.inr ⟨?_, ?_, p.blank⟩⟩
  · rw [sameRead]
    exact w.laid.frame fun i low _ => p.frame i (by omega)
  · rw [sameRead, ← w.marker]
    exact p.frame _ (by omega)
  · rw [sameRead]; simp only [MpsFifo.words, sameSize]; exact w.room
  · rw [flat]
    refine holds_append.mpr ⟨w.low.frame fun i _ high => p.frame i (by omega), ?_⟩
    rw [Nat.zero_add, ← ends]; exact p.held
  · rw [flat, List.length_append, p.writeOff]; omega
  · omega
  · rw [p.writeOff, sameRead]; exact room

/-- A write appends its message or leaves the queue as it is. -/
theorem write_represents {f : MpsFifo} {q : List (List U32)} {data : List U32} {length : Nat}
    (h : f.Represents q) (e : Entry (markReady data)) (header : 8 ≤ length)
    (words : u32 (length + 3) / 4 = data.length) (inside : f.pwriteOff + data.length + 2 < 2 ^ 32) :
    (f.applyAll (ifxMpsdrvFifoWrite f data length).2).Represents
      (if (ifxMpsdrvFifoWrite f data length).1 then q ++ [markReady data] else q) := by
  have two : 2 ≤ data.length := by simpa using e.two
  have entries : ∀ m ∈ q ++ [markReady data], Entry m := by
    intro m member
    rcases List.mem_append.mp member with old | new
    · exact h.1 m old
    · exact List.mem_singleton.mp new ▸ e
  have outcome := write_outcome f words inside
  generalize (ifxMpsdrvFifoWrite f data length).1 = ok at outcome ⊢
  generalize (ifxMpsdrvFifoWrite f data length).2 = stores at outcome ⊢
  cases outcome with
  | refused => simpa using h
  | wrapRefused short free ahead _ _ =>
    exact wrapped_represents h (by unfold MpsFifo.words; omega) free ahead
  | fits short free room =>
    have p := entryStores_published f f.pwriteOff two (by omega)
    rw [if_pos rfl]
    refine ⟨entries, ?_⟩
    rcases room with ⟨behind, room⟩ | ⟨ahead, room⟩
    · obtain ⟨older, newer, rfl, w, _⟩ := wrapped_of_behind h behind
      exact Or.inr ⟨older, newer ++ [markReady data], by simp,
        wrapped_published w p (by simp) (by simp) (by simpa using room)⟩
    · exact Or.inl (straight_published (straight_of_ahead h free ahead) p (by simp) (by simp)
        (by simpa using room))
  | wraps short free ahead _ _ room =>
    have p := entryStores_published f.wrapped f.wrapped.pwriteOff two (by rw [wrapped_pwriteOff]; omega)
    rw [if_pos rfl, MpsFifo.applyAll_append]
    refine ⟨entries, ?_⟩
    have back := wrapped_represents h (by unfold MpsFifo.words; omega) free ahead
    obtain ⟨older, newer, rfl, w, _⟩ := wrapped_of_behind back (by rw [wrapped_pwriteOff, wrapped_preadOff]; omega)
    exact Or.inr ⟨older, newer ++ [markReady data], by simp,
      wrapped_published w p (by simp) (by simp) (by simpa using room)⟩

end TwinpassGateway.Mps
