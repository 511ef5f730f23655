import TwinpassGateway.Mps.PoolQueue

/-!
Filling a pool queue for the first time, and what is left when the memory runs out on the way.
-/

namespace TwinpassGateway.Mps

open Foundation

structure MpsQueueHead where
  circularBuf : Option (Nat → U32)
  maxcount : Nat
  rpos : Nat
  wpos : Nat

def MpsQueueHead.zeroed : MpsQueueHead := { circularBuf := none, maxcount := 0, rpos := 0, wpos := 0 }

/-- The loop of `mps_queue_free`; `maxcount + 1` turns are enough between two slots of the ring. -/
def freeLoop (circularBuf : Nat → U32) (maxcount wpos : Nat) : Nat → Nat → List U32 × Nat
  | 0, rpos => ([], rpos)
  | turns + 1, rpos =>
    if rpos ≠ wpos then
      let (rest, rpos') := freeLoop circularBuf maxcount wpos turns (mpsNextQPos rpos maxcount)
      (circularBuf rpos :: rest, rpos')
    else ([], rpos)

structure QueueFree where
  count : Nat
  q : MpsQueueHead
  /-- The buffers passed to `free_fn`. -/
  released : List U32
  /-- Whether `kfree` was given slots. -/
  slotsFreed : Bool

/-- `mps_queue_free` of a head that exists. -/
def mpsQueueFree (q : MpsQueueHead) (freeCircularBuf : Bool) : QueueFree :=
  let (released, rpos) :=
    match q.circularBuf with
    | some buf => freeLoop buf q.maxcount q.wpos (q.maxcount + 1) q.rpos
    | none => ([], q.rpos)
  { count := released.length
    q := { q with rpos }
    released
    slotsFreed := freeCircularBuf && q.circularBuf.isSome }

/-- The loop of `mps_queue_init`: how far it came, and the slots if no allocation failed. -/
def fillLoop (alloc : Nat → U32) (numEntries : Nat) : Nat → Nat → (Nat → U32) → Nat × Option (Nat → U32)
  | 0, i, tmp => (i, some tmp)
  | turns + 1, i, tmp =>
    if i < numEntries then
      let tmp := Function.update tmp i (alloc i)
      if alloc i = 0 then (i, none) else fillLoop alloc numEntries turns (i + 1) tmp
    else (i, some tmp)

structure QueueInit where
  ret : Int
  q : MpsQueueHead
  /-- The buffers that `alloc_fn` has handed out. -/
  allocated : List U32 := []
  released : List U32 := []
  slotsAllocated : Bool := false
  slotsFreed : Bool := false

/-- `mps_queue_init`. `slots` is what `mps_inv_alloc` answers, with what that memory holds. -/
def mpsQueueInit (q : MpsQueueHead) (size numEntries : Nat) (slots : Option (Nat → U32)) (alloc : Nat → U32) :
    QueueInit :=
  if q.circularBuf.isSome then { ret := -17, q }
  else
    match slots with
    | none => { ret := -12, q }
    | some tmp =>
      if size ≠ 0 then
        let q := { q with rpos := 0 }
        match fillLoop alloc numEntries numEntries 0 tmp with
        | (i, none) =>
          let freed := mpsQueueFree { q with maxcount := i, wpos := i } true
          { ret := -12, q := freed.q, allocated := (List.range i).map alloc, released := freed.released,
            slotsAllocated := true, slotsFreed := freed.slotsFreed }
        | (i, some tmp) =>
          { ret := 0, q := { q with circularBuf := some tmp, maxcount := numEntries, wpos := numEntries },
            allocated := (List.range i).map alloc, slotsAllocated := true }
      else
        { ret := 0, q := { circularBuf := some fun _ => 0, maxcount := numEntries, rpos := 0, wpos := 0 },
          slotsAllocated := true }

/-- `ifx_mps_queue_init` on the head of an entry, or on a new one if the entry has none yet. -/
def ifxMpsQueueInit (head : Option MpsQueueHead) (headAlloc : Bool) (size numEntries : Nat)
    (slots : Option (Nat → U32)) (alloc : Nat → U32) : Option QueueInit :=
  match head with
  | some q => some (mpsQueueInit q size numEntries slots alloc)
  | none => if headAlloc then some (mpsQueueInit .zeroed size numEntries slots alloc) else none

/-! ### How far the loop comes -/

variable {alloc : Nat → U32} {numEntries : Nat}

theorem fillLoop_fails {f turns i : Nat} (tmp : Nat → U32) (below : f < numEntries) (fails : alloc f = 0)
    (first : ∀ k < f, alloc k ≠ 0) (reached : i ≤ f) (enough : f < i + turns) :
    fillLoop alloc numEntries turns i tmp = (f, none) := by
  induction turns generalizing i tmp with
  | zero => omega
  | succ turns ih =>
    rw [fillLoop, if_pos (by omega)]
    rcases reached.eq_or_lt with rfl | before
    · exact if_pos fails
    · simp only [if_neg (first i before)]
      exact ih _ before (by omega)

theorem fillLoop_fills {turns i : Nat} (tmp : Nat → U32) (succeed : ∀ k < numEntries, alloc k ≠ 0)
    (reached : i ≤ numEntries) (enough : numEntries ≤ i + turns) :
    ∃ tmp', fillLoop alloc numEntries turns i tmp = (numEntries, some tmp') ∧
      ∀ k, tmp' k = if i ≤ k ∧ k < numEntries then alloc k else tmp k := by
  induction turns generalizing i tmp with
  | zero =>
    have done : i = numEntries := by omega
    subst done
    exact ⟨tmp, rfl, fun k => (if_neg (by omega)).symm⟩
  | succ turns ih =>
    rw [fillLoop]
    by_cases more : i < numEntries
    · obtain ⟨tmp', filled, slots⟩ := ih (i := i + 1) (Function.update tmp i (alloc i)) (by omega) (by omega)
      simp only [if_pos more, if_neg (succeed i more)]
      refine ⟨tmp', filled, fun k => ?_⟩
      rw [slots]
      by_cases here : k = i
      · subst here
        rw [if_neg (by omega), if_pos (by omega), Function.update_self]
      · rw [Function.update_of_ne here]
        exact if_congr (by omega) rfl rfl
    · have done : i = numEntries := by omega
      subst done
      rw [if_neg more]
      exact ⟨tmp, rfl, fun k => (if_neg (by omega)).symm⟩

theorem first_failure (fails : ∃ i < numEntries, alloc i = 0) :
    ∃ f < numEntries, alloc f = 0 ∧ ∀ k < f, alloc k ≠ 0 := by
  classical
  obtain ⟨below, zero⟩ := Nat.find_spec fails
  refine ⟨Nat.find fails, below, zero, fun k before null => ?_⟩
  exact Nat.find_min fails before ⟨before.trans below, null⟩

/-! ### All -/

/-- If every buffer is granted, the queue holds them all, in order, and nothing is released. -/
theorem queue_init_fills {q : MpsQueueHead} (fresh : q.circularBuf = none) {size : Nat} (sized : size ≠ 0)
    (tmp : Nat → U32) (succeed : ∀ k < numEntries, alloc k ≠ 0) :
    ∃ buf, mpsQueueInit q size numEntries (some tmp) alloc =
        { ret := 0, q := { circularBuf := some buf, maxcount := numEntries, rpos := 0, wpos := numEntries },
          allocated := (List.range numEntries).map alloc, slotsAllocated := true } ∧
      MpsBuffHead.Stores { circularBuf := buf, maxcount := numEntries, rpos := 0, wpos := numEntries } numEntries
        ((List.range numEntries).map alloc) := by
  obtain ⟨buf, filled, slots⟩ := fillLoop_fills tmp succeed (Nat.zero_le _) (show numEntries ≤ 0 + numEntries by omega)
  refine ⟨buf, ?_, rfl, Nat.zero_le _, Nat.le_refl _, ?_⟩
  · simp [mpsQueueInit, fresh, sized, filled]
  · have whole : Ring.count numEntries 0 numEntries = numEntries := by simp [Ring.count]
    rw [Ring.items, whole]
    apply List.map_congr_left
    intro i member
    have below := List.mem_range.mp member
    have place : Ring.slot numEntries 0 i = i := by
      rw [Ring.slot, if_pos (by omega), Nat.zero_add]
    rw [place]
    exact (slots i).trans (if_pos ⟨Nat.zero_le _, below⟩)

theorem freeLoop_items (buf : Nat → U32) {max r w turns : Nat} (read : r ≤ max) (write : w ≤ max)
    (enough : Ring.count max r w ≤ turns) : freeLoop buf max w turns r = (Ring.items buf max r w, w) := by
  induction turns generalizing r with
  | zero =>
    have same : r = w := by
      by_contra filled
      have some := Ring.count_pos read write filled
      omega
    rw [same, Ring.items_self, freeLoop]
  | succ turns ih =>
    rw [freeLoop]
    by_cases filled : r ≠ w
    · have rest := Ring.count_next_read read write filled
      have later := ih (Ring.next_le read) (show Ring.count max (Ring.next max r) w ≤ turns by omega)
      rw [if_pos filled, Ring.items_pop read write filled]
      show (buf r :: (freeLoop buf max w turns (Ring.next max r)).1,
        (freeLoop buf max w turns (Ring.next max r)).2) = _
      rw [later]
    · have same : r = w := not_not.mp filled
      rw [if_neg filled, same, Ring.items_self]

/-- A release of a filled queue gives every stored buffer back once, in order, and leaves the queue empty. -/
theorem queue_free_releases {q : MpsQueueHead} {buf : Nat → U32} (filled : q.circularBuf = some buf)
    (read : q.rpos ≤ q.maxcount) (write : q.wpos ≤ q.maxcount) (freeCircularBuf : Bool) :
    (mpsQueueFree q freeCircularBuf).released = Ring.items buf q.maxcount q.rpos q.wpos ∧
      (mpsQueueFree q freeCircularBuf).q = { q with rpos := q.wpos } := by
  have most := Ring.count_le read write
  have looped := freeLoop_items buf read write (show _ ≤ q.maxcount + 1 by omega)
  simp [mpsQueueFree, filled, looped]

/-! ### Or nothing -/

/-- The queue is empty with its positions reset, and every buffer handed out has been released once. -/
def QueueInit.Emptied (r : QueueInit) : Prop := (r.q.rpos = 0 ∧ r.q.wpos = 0) ∧ r.released.Perm r.allocated

/-- The slots have been freed as well. -/
def QueueInit.RolledBack (r : QueueInit) : Prop := r.Emptied ∧ r.slotsFreed = r.slotsAllocated

/-- The head has no slots yet when `mps_queue_free` is called, which therefore releases nothing. -/
theorem queue_init_fails {q : MpsQueueHead} (fresh : q.circularBuf = none) {size : Nat} (sized : size ≠ 0)
    (tmp : Nat → U32) {f : Nat} (below : f < numEntries) (fails : alloc f = 0) (first : ∀ k < f, alloc k ≠ 0) :
    mpsQueueInit q size numEntries (some tmp) alloc =
      { ret := -12, q := { circularBuf := none, maxcount := f, rpos := 0, wpos := f },
        allocated := (List.range f).map alloc, slotsAllocated := true } := by
  have stopped := fillLoop_fails tmp below fails first (Nat.zero_le _) (show f < 0 + numEntries by omega)
  simp [mpsQueueInit, fresh, sized, stopped, mpsQueueFree]

/-- A failed allocation is never rolled back: the slots are lost every time, and positions and buffers are as they
should be only if it is the first request that fails. `ifx_mps_queue_init` leaves the same. -/
theorem queue_init_never_rolls_back {q : MpsQueueHead} (fresh : q.circularBuf = none) {size : Nat} (sized : size ≠ 0)
    (tmp : Nat → U32) (fails : ∃ i < numEntries, alloc i = 0) :
    ¬ (mpsQueueInit q size numEntries (some tmp) alloc).RolledBack ∧
      ((mpsQueueInit q size numEntries (some tmp) alloc).Emptied ↔ alloc 0 = 0) ∧
      ∀ head : Option MpsQueueHead, head.getD .zeroed = q →
        ifxMpsQueueInit head true size numEntries (some tmp) alloc =
          some (mpsQueueInit q size numEntries (some tmp) alloc) := by
  obtain ⟨f, below, zero, first⟩ := first_failure fails
  refine ⟨?_, ?_, ?_⟩
  · rw [queue_init_fails fresh sized tmp below zero first]
    intro ⟨_, slots⟩
    cases slots
  · rw [queue_init_fails fresh sized tmp below zero first]
    constructor
    · intro ⟨⟨_, wpos⟩, _⟩
      have start : f = 0 := wpos
      rwa [start] at zero
    · intro null
      have start : f = 0 := by
        by_contra later
        exact first 0 (by omega) null
      subst start
      exact ⟨⟨rfl, rfl⟩, List.Perm.nil⟩
  · rintro head rfl
    cases head <;> rfl

/-- Four entries, of which the third is refused. -/
theorem queue_init_never_rolls_back_third :
    ¬ (mpsQueueInit .zeroed 512 4 (some fun _ => 0) fun k => if k = 2 then 0 else 0x80001000).RolledBack ∧
      ((mpsQueueInit .zeroed 512 4 (some fun _ => 0) fun k => if k = 2 then 0 else 0x80001000).Emptied ↔
        (if 0 = 2 then 0 else 0x80001000 : U32) = 0) ∧
      ∀ head : Option MpsQueueHead, head.getD .zeroed = .zeroed →
        ifxMpsQueueInit head true 512 4 (some fun _ => 0) (fun k => if k = 2 then 0 else 0x80001000) =
          some (mpsQueueInit .zeroed 512 4 (some fun _ => 0) fun k => if k = 2 then 0 else 0x80001000) :=
  queue_init_never_rolls_back rfl (by decide) _ ⟨2, by decide, rfl⟩

/-- Two buffers are lost, and the queue counts two that are not there. -/
theorem queue_init_loses_buffers :
    let r := mpsQueueInit .zeroed 512 4 (some fun _ => 0) fun k => if k = 2 then 0 else 0x80001000 + BitVec.ofNat 32 k
    r.ret = -12 ∧ r.allocated = [0x80001000, 0x80001001] ∧ r.released = [] ∧ r.q.wpos = 2 ∧ ¬ r.RolledBack := by
  refine ⟨by decide, by decide, by decide, by decide, ?_⟩
  intro ⟨_, slots⟩
  revert slots
  decide

end TwinpassGateway.Mps
