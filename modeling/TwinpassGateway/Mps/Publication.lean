import TwinpassGateway.Mps.Mailbox

/-!
What a reader on the other CPU can see while a mailbox write is under way: the points between two
stores of the write, and the reader's progress at each of them.
-/

namespace TwinpassGateway.Mps

open Foundation

/-- Where a reader that has taken `taken` messages since finds the next one marked ready. -/
def polled : Nat → MpsFifo → Option Nat
  | 0, f => (ifxMpsdrvFifoRead f).1
  | taken + 1, f =>
    match ifxMpsdrvFifoRead f with
    | (none, _) => none
    | (some off, f') => polled taken (ifxMpsdrvFifoReadPtrInc f' (msg4bytes (f'.val1 off)))

/-- At every point of the write a reader that has taken `taken` messages finds nothing, or an entry
that was there before the write, or one of which no word and no word of the header behind it is
still to be stored. -/
def PublishedInOrder (f : MpsFifo) (words : Nat) (stores : List Store) (taken : Nat) : Prop :=
  ∀ done rest, stores = done ++ rest → ∀ off, polled taken (f.applyAll done) = some off →
    off ∈ (unread f).map Prod.fst ∨ ∀ i ∈ rest.filterMap Store.index?, i < off ∨ off + words + 2 ≤ i

/-- The tests a message has to pass before any of its words is stored. -/
structure MpsFifo.HasRoom (f : MpsFifo) (bytes words : Nat) : Prop where
  short : bytes ≤ f.size
  free : msgReady (f.val1 f.pwriteOff) = false
  room : f.pwriteOff < f.preadOff ∧ f.pwriteOff + words + 2 ≤ f.preadOff ∨
    f.preadOff ≤ f.pwriteOff ∧ (f.pwriteOff + words + 2 < f.words ∨ words + 2 ≤ f.preadOff)

/-! ### Polling -/

theorem polled_drain {f : MpsFifo} {taken n : Nat} (fuel : taken < n) :
    polled taken f = ((drain n f)[taken]?).map Prod.fst := by
  induction taken generalizing f n with
  | zero =>
    obtain ⟨n, rfl⟩ : ∃ k, n = k + 1 := ⟨n - 1, by omega⟩
    rw [polled, drain]
    rcases ifxMpsdrvFifoRead f with ⟨_ | off, f'⟩ <;> rfl
  | succ taken ih =>
    obtain ⟨n, rfl⟩ : ∃ k, n = k + 1 := ⟨n - 1, by omega⟩
    rw [polled, drain]
    rcases ifxMpsdrvFifoRead f with ⟨_ | off, f'⟩
    · rfl
    · simpa using ih (by omega)

theorem laid_moved {g : MpsFifo} {n k : Nat} (room : g.preadOff + (n + k) ≤ g.words) :
    (ifxMpsdrvFifoReadPtrInc g n).preadOff = g.preadOff + n := by
  have := g.size_lt
  unfold MpsFifo.words at room
  exact readPtrInc_preadOff (by omega) (by omega)

theorem polled_caught_up {f : MpsFifo} {q : List (List U32)} (h : f.Represents q) : polled q.length f = none := by
  have count : (drain (q.length + 1) f).length = q.length := by
    rw [← List.length_map, represents_drain h (Nat.le_succ _)]
  rw [polled_drain (Nat.lt_succ_self _), List.getElem?_eq_none (Nat.le_of_eq count)]
  rfl

theorem polled_straight {g : MpsFifo} {q : List (List U32)} (entries : ∀ m ∈ q, Entry m)
    (laid : Holds g.mem g.preadOff q.flatten) (room : g.preadOff + q.flatten.length ≤ g.words)
    {taken : Nat} (h : taken < q.length) :
    polled taken g = ((placed g.preadOff q)[taken]?).map Prod.fst := by
  induction taken generalizing g q with
  | zero =>
    obtain ⟨m, rest, rfl⟩ := List.exists_cons_of_length_pos h
    have e := entries m List.mem_cons_self
    have same : settle g = g := settle_of_notWrapped (by rw [holds_header e laid]; exact e.notWrapped)
    rw [polled, (read_found e laid same).1]
    rfl
  | succ taken ih =>
    obtain ⟨m, rest, rfl⟩ := List.exists_cons_of_length_pos (Nat.zero_lt_of_lt h)
    have e := entries m List.mem_cons_self
    have two := e.two
    have same : settle g = g := settle_of_notWrapped (by rw [holds_header e laid]; exact e.notWrapped)
    obtain ⟨found, _, words⟩ := read_found e laid same
    simp only [List.flatten_cons, List.length_append] at room
    have moved := laid_moved room
    rw [polled, found]
    simp only [words, placed, List.getElem?_cons_succ]
    rw [← moved]
    refine ih (fun m' member => entries m' (List.mem_cons_of_mem _ member)) ?_ ?_ (by simpa using h)
    · rw [moved]
      refine (holds_append.mp (List.flatten_cons ▸ laid)).2.frame fun i low _ => ?_
      exact readPtrInc_mem_other g _ (by omega)
    · rw [moved, readPtrInc_words]; omega

/-- The same for messages that continue at offset 0 behind the wrap-around marker. -/
theorem polled_wrapped {g : MpsFifo} {older newer : List (List U32)} (entries : ∀ m ∈ older ++ newer, Entry m)
    (laid : Holds g.mem g.preadOff older.flatten) (marker : g.val1 (g.preadOff + older.flatten.length) = 0x4000#32)
    (room : g.preadOff + older.flatten.length ≤ g.words) (low : Holds g.mem 0 newer.flatten)
    (below : newer.flatten.length ≤ g.preadOff) {taken : Nat} (h : taken < (older ++ newer).length) :
    polled taken g = ((placed g.preadOff older ++ placed 0 newer)[taken]?).map Prod.fst := by
  induction older generalizing g taken with
  | nil =>
    have zero : (settle g).preadOff = 0 := by
      have marker : g.val1 g.preadOff = 0x4000#32 := by simpa using marker
      simp [settle, readPosition, marker, msgNextWrapped]
    have start : polled taken g = polled taken (settle g) := by
      have again : settle (settle g) = settle g := settle_of_zero zero
      cases taken <;> rw [polled, polled, read_eq (settle g), again, ← read_eq]
    rw [start, polled_straight entries (by rw [zero]; exact low) ?_ h, zero]
    · rfl
    · rw [zero]
      simp only [List.flatten_nil, List.length_nil] at room
      show 0 + newer.flatten.length ≤ g.words
      omega
  | cons m older ih =>
    have e := entries m (by simp)
    have same : settle g = g := settle_of_notWrapped (by rw [holds_header e laid]; exact e.notWrapped)
    obtain ⟨found, _, words⟩ := read_found e laid same
    have two := e.two
    simp only [List.flatten_cons, List.length_append] at room marker
    have moved := laid_moved room
    cases taken with
    | zero => rw [polled, found]; rfl
    | succ taken =>
      rw [polled, found]
      simp only [words, placed, List.cons_append, List.getElem?_cons_succ]
      rw [← moved]
      refine ih (fun m' member => entries m' (by simp at member ⊢; tauto)) ?_ ?_ ?_ ?_ ?_ (by simpa using h)
      · rw [moved]
        refine (holds_append.mp (List.flatten_cons ▸ laid)).2.frame fun i low _ => ?_
        exact readPtrInc_mem_other g _ (by omega)
      · rw [moved, ← marker, Nat.add_assoc]
        exact readPtrInc_mem_other g _ (by omega)
      · rw [moved, readPtrInc_words]; omega
      · exact low.frame fun i _ high => readPtrInc_mem_other g _ (by omega)
      · omega

/-! ### The stores of a write and the messages before it -/

theorem applyAll_mem_other {f : MpsFifo} {stores : List Store} {i : Nat}
    (h : i ∉ stores.filterMap Store.index?) : (f.applyAll stores).mem i = f.mem i := by
  induction stores generalizing f with
  | nil => rfl
  | cons st rest ih =>
    cases st with
    | word index value =>
      simp only [List.filterMap_cons, Store.index?, List.mem_cons, not_or] at h
      rw [MpsFifo.applyAll_cons, ih h.2]
      exact Function.update_of_ne h.1 _ _
    | writeOff off =>
      rw [MpsFifo.applyAll_cons, ih (by simpa [Store.index?] using h)]
      rfl

/-- A store falls between the two offsets, on the side where no unread message lies. -/
def MpsFifo.Vacant (f : MpsFifo) (i : Nat) : Prop :=
  msgReady (f.val1 f.pwriteOff) = false ∧
    (f.pwriteOff < f.preadOff ∧ f.pwriteOff ≤ i ∧ i < f.preadOff ∨
      f.preadOff ≤ f.pwriteOff ∧ (f.pwriteOff ≤ i ∨ i < f.preadOff))

theorem write_vacant {f : MpsFifo} {data : List U32} {length : Nat} (two : 2 ≤ data.length)
    (words : u32 (length + 3) / 4 = data.length) (inside : f.pwriteOff + data.length + 2 < 2 ^ 32) {i : Nat}
    (stored : i ∈ (ifxMpsdrvFifoWrite f data length).2.filterMap Store.index?) : f.Vacant i := by
  have outcome := write_outcome f words inside
  generalize (ifxMpsdrvFifoWrite f data length).1 = ok at outcome
  generalize (ifxMpsdrvFifoWrite f data length).2 = stores at outcome stored
  cases outcome with
  | refused => simp at stored
  | wrapRefused _ free ahead =>
    have := wrapStores_index stored
    exact ⟨free, Or.inr ⟨ahead, Or.inl (by omega)⟩⟩
  | fits _ free room =>
    have range := entryStores_index (by omega) stored two
    refine ⟨free, ?_⟩
    rcases room with ⟨behind, room⟩ | ⟨ahead, room⟩
    · exact Or.inl ⟨behind, range.1, by omega⟩
    · exact Or.inr ⟨ahead, Or.inl range.1⟩
  | wraps _ free ahead _ _ room =>
    rw [List.filterMap_append, List.mem_append] at stored
    refine ⟨free, Or.inr ⟨ahead, ?_⟩⟩
    rcases stored with marker | entry
    · have := wrapStores_index marker
      exact Or.inl (by omega)
    · have := entryStores_index (by omega) entry two
      exact Or.inr (by omega)

theorem polled_older {f : MpsFifo} {q : List (List U32)} {done : List Store} (h : f.Represents q)
    (vacant : ∀ i ∈ done.filterMap Store.index?, f.Vacant i) {taken : Nat} (behind : taken < q.length) :
    polled taken (f.applyAll done) = ((unread f)[taken]?).map Prod.fst := by
  have fuel := represents_length h
  obtain ⟨entries, s | ⟨older, newer, rfl, w⟩⟩ := h
  · have ends := s.ends
    rw [unread, drain_straight entries s fuel]
    have laid : Holds (f.applyAll done).mem f.preadOff q.flatten := by
      refine s.laid.frame fun i _ high => applyAll_mem_other fun stored => ?_
      have := (vacant i stored).2
      omega
    have room : f.preadOff + q.flatten.length ≤ f.words := by rcases s.room with zero | room <;> omega
    have polls := polled_straight (g := f.applyAll done) entries (by rwa [MpsFifo.applyAll_preadOff])
      (by rwa [MpsFifo.applyAll_preadOff, applyAll_words]) behind
    rwa [MpsFifo.applyAll_preadOff] at polls
  · have room := w.room
    have ends := w.ends
    rw [unread, drain_wrapped entries w fuel]
    have other : ∀ i ∈ done.filterMap Store.index?, newer.flatten.length ≤ i ∧ i < f.preadOff := by
      intro i stored
      obtain ⟨free, between | ⟨ahead, _⟩⟩ := vacant i stored
      · omega
      · have s := (straight_of_ahead ⟨entries, Or.inr ⟨older, newer, rfl, w⟩⟩ free ahead).ends
        have some := entries_length entries
        simp only [List.flatten_append, List.length_append] at s some
        simp only [List.length_append] at behind
        rcases w.gap with ⟨_, none, _⟩ | ⟨_, gap, _⟩
        · simp only [none, List.flatten_nil, List.length_nil] at *; omega
        · omega
    have outside : ∀ i, i < newer.flatten.length ∨ f.preadOff ≤ i → (f.applyAll done).mem i = f.mem i := by
      intro i range
      refine applyAll_mem_other fun stored => ?_
      have := other i stored
      omega
    have laid : Holds (f.applyAll done).mem f.preadOff older.flatten :=
      w.laid.frame fun i low _ => outside i (Or.inr low)
    have marker : (f.applyAll done).val1 (f.preadOff + older.flatten.length) = 0x4000#32 := by
      rw [← w.marker]; exact outside _ (Or.inr (by omega))
    have low : Holds (f.applyAll done).mem 0 newer.flatten := w.low.frame fun i _ high => outside i (Or.inl (by omega))
    have below : newer.flatten.length ≤ f.preadOff := by
      rcases w.gap with ⟨_, none, _⟩ | ⟨_, gap, _⟩
      · simp [none]
      · omega
    have polls := polled_wrapped (g := f.applyAll done) entries (by rwa [MpsFifo.applyAll_preadOff])
      (by rwa [MpsFifo.applyAll_preadOff]) (by rw [MpsFifo.applyAll_preadOff, applyAll_words]; omega) low
      (by rwa [MpsFifo.applyAll_preadOff]) behind
    rwa [MpsFifo.applyAll_preadOff] at polls

/-- A reader that has taken everything polls the newest message even while the header word behind
it, which no poll looks at, is something else. -/
theorem polled_newest {f g : MpsFifo} {q : List (List U32)} {m : List U32} {off : Nat}
    (h : f.Represents (q ++ [m])) (ends : f.pwriteOff = off + m.length)
    (other : ∀ i, i ≠ f.pwriteOff → g.mem i = f.mem i) (sameRead : g.preadOff = f.preadOff)
    (sameSize : g.size = f.size) : polled q.length g = some off := by
  obtain ⟨entries, s | ⟨older, newer, split, w⟩⟩ := h
  · have total := s.ends
    have laid : Holds g.mem g.preadOff (q ++ [m]).flatten := by
      rw [sameRead]
      exact s.laid.frame fun i _ high => other i (by omega)
    have room : g.preadOff + (q ++ [m]).flatten.length ≤ g.words := by
      rw [sameRead, MpsFifo.words, sameSize, ← total]
      rcases s.room with zero | room
      · omega
      · unfold MpsFifo.words at room; omega
    rw [polled_straight entries laid room (by simp), placed_last]
    simp only [List.flatten_append, List.length_append, List.flatten_singleton] at total
    simp only [Option.map_some, Option.some.injEq]
    omega
  · have two := (entries m (by simp)).two
    have low := w.ends
    have room := w.room
    rcases w.gap with ⟨_, none, _⟩ | ⟨_, gap, _⟩
    · simp only [none, List.flatten_nil, List.length_nil] at low
      omega
    · obtain ⟨newer, rfl⟩ : ∃ rest, newer = rest ++ [m] := by
        rcases List.eq_nil_or_concat newer with none | ⟨rest, last, rfl⟩
        · simp only [none, List.flatten_nil, List.length_nil] at low
          omega
        · rw [List.concat_eq_append, ← List.append_assoc] at split
          exact ⟨rest, by rw [List.concat_eq_append, (List.append_inj' split rfl).2]⟩
      rw [← List.append_assoc] at split
      have same : q = older ++ newer := (List.append_inj' split rfl).1
      have outside : ∀ i, i < f.pwriteOff ∨ f.preadOff ≤ i → g.mem i = f.mem i :=
        fun i range => other i (by omega)
      have laid : Holds g.mem g.preadOff older.flatten := by
        rw [sameRead]
        exact w.laid.frame fun i low _ => outside i (Or.inr low)
      have marker : g.val1 (g.preadOff + older.flatten.length) = 0x4000#32 := by
        rw [sameRead, ← w.marker]
        exact outside _ (Or.inr (by omega))
      have start : Holds g.mem 0 (newer ++ [m]).flatten := w.low.frame fun i _ high => outside i (Or.inl (by omega))
      have bound : g.preadOff + older.flatten.length ≤ g.words := by
        rw [sameRead, MpsFifo.words, sameSize]
        unfold MpsFifo.words at room
        omega
      rw [same, polled_wrapped (g := g) (by rw [← List.append_assoc, ← same]; exact entries) laid marker bound start
        (by omega) (by simp)]
      have count : (placed g.preadOff older).length = older.length := by rw [← List.length_map, placed_blocks]
      have last : ((older ++ newer).length - older.length) = newer.length := by simp
      rw [List.getElem?_append_right (by simp [count]), count, last, placed_last]
      simp only [List.flatten_append, List.length_append, List.flatten_singleton] at low
      simp only [Option.map_some, Option.some.injEq]
      omega

/-! ### One write -/

theorem entryStores_last (f : MpsFifo) (off : Nat) (data : List U32) (sum : off + data.length < 2 ^ 32) :
    ∃ done, entryStores f off data data.length = done ++ [.word (off + data.length) 0] := by
  refine ⟨copyStores off data data.length ++
    [.word (off + 1) ((f.applyAll (copyStores off data data.length)).val1 off ||| 0x8000#32),
      .writeOff (off + data.length), .word (off + data.length + 1) 0], ?_⟩
  simp [entryStores, u32_eq sum]

theorem entryStores_marks (f : MpsFifo) (off : Nat) (data : List U32) (words : Nat) :
    off + 1 ∈ (entryStores f off data words).filterMap Store.index? := by
  simp [entryStores, Store.index?, List.filterMap_append]

/-- A write stores its message exactly when there is room for it; its last store is then still to
come when the message has long been there for the reader. -/
theorem write_room {f : MpsFifo} {q : List (List U32)} {data : List U32} {length : Nat} (h : f.Represents q)
    (framed : Framed data length) :
    (f.HasRoom length data.length → ∃ done off, (ifxMpsdrvFifoWrite f data length).2 =
        done ++ [.word (off + data.length) 0] ∧ polled q.length (f.applyAll done) = some off ∧
        off + 1 ∈ (ifxMpsdrvFifoWrite f data length).2.filterMap Store.index?) ∧
      (¬f.HasRoom length data.length → (ifxMpsdrvFifoWrite f data length).2 = [] ∨
        (ifxMpsdrvFifoWrite f data length).2 = wrapStores f) := by
  obtain ⟨e, two, header, small, words⟩ := framed.entry
  have sum := represents_sum h small
  have next := write_represents h e header words sum
  have outcome := write_outcome f words sum
  generalize (ifxMpsdrvFifoWrite f data length).1 = ok at outcome next
  generalize (ifxMpsdrvFifoWrite f data length).2 = stores at outcome next
  have newest : ∀ {done off}, stores = done ++ [.word (off + data.length) 0] → ok = true →
      (f.applyAll stores).pwriteOff = off + data.length → polled q.length (f.applyAll done) = some off := by
    rintro done off rfl rfl ends
    refine polled_newest next (by rw [ends, markReady_length]) (fun i differs => ?_) (by simp) (by simp)
    rw [MpsFifo.applyAll_append]
    exact (Function.update_of_ne (by rw [← ends]; exact differs) _ _).symm
  cases outcome with
  | refused why =>
    refine ⟨fun room => ?_, fun _ => Or.inl rfl⟩
    have fits := room.room
    rcases why with long | ready | tight
    · exact absurd room.short (by omega)
    · rw [room.free] at ready
      exact absurd ready (by decide)
    · omega
  | wrapRefused short free ahead past why =>
    refine ⟨fun room => ?_, fun _ => Or.inr rfl⟩
    have fits := room.room
    have start := (straight_of_ahead h free ahead).start
    rcases why with ready | tight
    · rcases start with zero | ⟨_, blank⟩
      · omega
      · rw [MpsFifo.val1, wrapped_mem_other f (by omega), ← MpsFifo.val1, blank.notReady] at ready
        exact absurd ready (by decide)
    · omega
  | fits short free room =>
    have p := entryStores_published f f.pwriteOff two (by omega)
    obtain ⟨done, split⟩ := entryStores_last f f.pwriteOff data (by omega)
    refine ⟨fun _ => ⟨done, f.pwriteOff, split, newest split rfl ?_, ?_⟩, fun none => absurd ⟨short, free, ?_⟩ none⟩
    · rw [p.writeOff, markReady_length]
    · exact entryStores_marks f f.pwriteOff data data.length
    · omega
  | wraps short free ahead past freeStart room =>
    have p := entryStores_published f.wrapped 0 two (by omega)
    obtain ⟨done, split⟩ := entryStores_last f.wrapped 0 data (by omega)
    have whole : wrapStores f ++ entryStores f.wrapped 0 data data.length =
        (wrapStores f ++ done) ++ [.word (0 + data.length) 0] := by rw [split, List.append_assoc]
    refine ⟨fun _ => ⟨wrapStores f ++ done, 0, whole, newest whole rfl ?_, ?_⟩,
      fun none => absurd ⟨short, free, ?_⟩ none⟩
    · rw [MpsFifo.applyAll_append]
      exact p.writeOff.trans (by rw [markReady_length])
    · rw [List.filterMap_append]
      exact List.mem_append_right _ (entryStores_marks f.wrapped 0 data data.length)
    · omega

theorem represents_unread_length {f : MpsFifo} {q : List (List U32)} (h : f.Represents q) :
    (unread f).length = q.length := by
  rw [← represents_unread h, List.length_map]

theorem polled_unread {f : MpsFifo} {taken off : Nat}
    (found : ((unread f)[taken]?).map Prod.fst = some off) : off ∈ (unread f).map Prod.fst := by
  obtain ⟨e, place, rfl⟩ := Option.map_eq_some_iff.mp found
  exact List.mem_map_of_mem (List.mem_of_getElem? place)

/-- The order of publication of one write: kept for a reader that is still behind, and broken for
one that has caught up, unless the message is refused. -/
theorem write_published_iff {f : MpsFifo} {q : List (List U32)} {data : List U32} {length : Nat}
    (h : f.Represents q) (framed : Framed data length) {taken : Nat} (progress : taken ≤ (unread f).length) :
    PublishedInOrder f data.length (ifxMpsdrvFifoWrite f data length).2 taken ↔
      taken < (unread f).length ∨ ¬f.HasRoom length data.length := by
  obtain ⟨_, two, _, small, words⟩ := framed.entry
  have sum := represents_sum h small
  obtain ⟨roomy, refused⟩ := write_room h framed
  rw [represents_unread_length h] at progress ⊢
  constructor
  · intro ordered
    by_contra caught
    push Not at caught
    obtain ⟨behind, room⟩ := caught
    obtain rfl : taken = q.length := by omega
    obtain ⟨done, off, split, found, own⟩ := roomy room
    rcases ordered done _ split off found with old | complete
    · obtain ⟨e, member, rfl⟩ := List.mem_map.mp old
      have entry : e.2 ∈ q := by rw [← represents_unread h]; exact List.mem_map_of_mem member
      have := (h.1 e.2 entry).two
      have := write_avoids_unread h two words sum own member
      omega
    · have := complete (off + data.length) (by simp [Store.index?])
      omega
  · rintro cond done rest split off found
    by_cases behind : taken < q.length
    · left
      have vacant : ∀ i ∈ done.filterMap Store.index?, f.Vacant i := fun i stored =>
        write_vacant two words sum (by rw [split, List.filterMap_append]; exact List.mem_append_left _ stored)
      rw [polled_older h vacant behind] at found
      exact polled_unread found
    · right
      have room := cond.resolve_left behind
      obtain rfl : taken = q.length := by omega
      rcases refused room with none | marker
      · rw [none] at split
        simp [(List.append_eq_nil_iff.mp split.symm).2]
      · rw [marker, wrapStores] at split
        cases done with
        | nil =>
          rw [MpsFifo.applyAll_nil, polled_caught_up h] at found
          exact absurd found (by simp)
        | cons st done =>
          -- only the write offset can still be missing
          have later : [Store.writeOff 0] = done ++ rest := (List.cons.inj split).2
          intro i stored
          have last : i ∈ [Store.writeOff 0].filterMap Store.index? := by
            rw [later, List.filterMap_append]
            exact List.mem_append_right _ stored
          simp [Store.index?] at last

/-! ### Sends -/

theorem published_nil (f : MpsFifo) (words taken : Nat) : PublishedInOrder f words [] taken := by
  intro done rest split off found
  simp [(List.append_eq_nil_iff.mp split.symm).2]

theorem send_published_iff {d : MpsDevice} (inv : d.Queued) (cpuId : MpsCpuId) {pMsg : List U32}
    (message : FramedMessage pMsg) (mbx : Mbx) {taken : Nat} (progress : taken ≤ (unread (d mbx)).length) :
    ((ifxMpsdrvMbxSend d cpuId pMsg).mbx = some mbx →
      PublishedInOrder (d mbx) pMsg.length (ifxMpsdrvMbxSend d cpuId pMsg).stores taken) ↔
      (mbxSelect cpuId (msgType pMsg)).map Prod.fst ≠ some mbx ∨ taken < (unread (d mbx)).length ∨
        ¬(ifxMpsdrvFifoMemRequest (d mbx) (mpsMsghdrLen + msgLen (headerWord pMsg)) = true ∧
          (d mbx).HasRoom (mpsMsghdrLen + msgLen (headerWord pMsg)) pMsg.length) := by
  obtain ⟨q, h⟩ := inv mbx
  have marked := write_published_iff h message.markReady progress
  rw [markReady_length] at marked
  by_cases chosen : (ifxMpsdrvMbxSend d cpuId pMsg).mbx = some mbx
  · rw [send_stores chosen]
    rw [send_mbx] at chosen ⊢
    by_cases space : ifxMpsdrvFifoMemRequest (d mbx) (mpsMsghdrLen + msgLen (headerWord pMsg)) = true
    · simp only [chosen, space, if_true, true_and, forall_const, ne_eq, not_true_eq_false, false_or]
      exact marked
    · simpa [chosen, space] using published_nil (d mbx) pMsg.length taken
  · rw [send_mbx] at chosen ⊢
    simp [chosen]

/-- The order of publication of a mailbox write, in every state that whole calls of the two CPUs
lead to, for every sender, every message and every progress of the reader. -/
theorem mailbox_publication (size : Mbx → Nat) (size_lt : ∀ mbx, size mbx < 2 ^ 32) (calls : List MbxCall)
    (framed : ∀ c ∈ calls, c.Framed) (cpuId : MpsCpuId) (pMsg : List U32) (message : FramedMessage pMsg)
    (mbx : Mbx) (taken : Nat) :
    let d := exec MpsDevice.step (.start size size_lt) calls
    let bytes := mpsMsghdrLen + msgLen (headerWord pMsg)
    let send := ifxMpsdrvMbxSend d cpuId pMsg
    taken ≤ (unread (d mbx)).length →
    (PublishedInOrder (d mbx) pMsg.length (ifxMpsdrvFifoWrite (d mbx) pMsg bytes).2 taken ↔
      taken < (unread (d mbx)).length ∨ ¬(d mbx).HasRoom bytes pMsg.length) ∧
    ((send.mbx = some mbx → PublishedInOrder (d mbx) pMsg.length send.stores taken) ↔
      (mbxSelect cpuId (msgType pMsg)).map Prod.fst ≠ some mbx ∨ taken < (unread (d mbx)).length ∨
        ¬(ifxMpsdrvFifoMemRequest (d mbx) bytes = true ∧ (d mbx).HasRoom bytes pMsg.length)) := by
  intro d bytes send progress
  have inv : d.Queued := device_queued size_lt framed
  obtain ⟨q, h⟩ := inv mbx
  exact ⟨write_published_iff h message progress, send_published_iff inv cpuId message mbx progress⟩

def sampleCommand : List U32 := [0x04010000#32, 0x00000004#32, 7#32]

def sampleDevice : MpsDevice := .start (fun _ => 64) (fun _ => by decide)

theorem mailbox_publication_first_send :
    ¬PublishedInOrder (sampleDevice .commandDwstrm) 3
      (ifxMpsdrvFifoWrite (sampleDevice .commandDwstrm) sampleCommand 12).2 0 := by
  have result := mailbox_publication (fun _ => 64) (fun _ => by decide) [] (by simp) .cpu0 sampleCommand
    ⟨by decide, by decide, by decide⟩ .commandDwstrm 0 (Nat.zero_le _)
  have room : (sampleDevice .commandDwstrm).HasRoom 12 3 := ⟨by decide, by decide, by decide⟩
  exact fun ordered => (result.1.mp ordered).elim (by decide) (fun none => none room)

/-- After two stores the reader takes the command, whose third word is still to come. -/
theorem send_half_written :
    ¬((ifxMpsdrvMbxSend sampleDevice .cpu0 sampleCommand).mbx = some .commandDwstrm →
      PublishedInOrder (sampleDevice .commandDwstrm) 3
        (ifxMpsdrvMbxSend sampleDevice .cpu0 sampleCommand).stores 0) := by
  intro ordered
  have point := ordered (by decide) ((ifxMpsdrvMbxSend sampleDevice .cpu0 sampleCommand).stores.take 2) _
    (List.take_append_drop 2 _).symm 0 (by decide)
  have unstored : 2 ∈ ((ifxMpsdrvMbxSend sampleDevice .cpu0 sampleCommand).stores.drop 2).filterMap Store.index? := by
    decide
  rcases point with old | complete
  · revert old; decide
  · have := complete 2 unstored
    omega

end TwinpassGateway.Mps
