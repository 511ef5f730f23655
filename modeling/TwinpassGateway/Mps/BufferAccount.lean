import TwinpassGateway.Foundation.Custody
import TwinpassGateway.Mps.BufferPool

/-!
Where the buffers of the shared pools are: one place for each outstanding buffer, over every
interleaving of CPU0's loops with CPU1's calls.
-/

namespace TwinpassGateway.Mps

open Foundation

inductive Place where
  | queue (q : QueueId)
  | user
  deriving DecidableEq

/-! ### Queues -/

structure MpsBuffHead.InRange (h : MpsBuffHead) : Prop where
  read : h.rpos ≤ h.maxcount
  write : h.wpos ≤ h.maxcount

theorem mpsNextQPos_eq (pos max : Nat) : mpsNextQPos pos max = Ring.next max pos := rfl

theorem mpsGetQCount_eq (q : MpsBuffHead) : mpsGetQCount q = Ring.count q.maxcount q.rpos q.wpos := rfl

def MpsBuffHead.popped (h : MpsBuffHead) : MpsBuffHead :=
  { h with
    circularBuf := Function.update h.circularBuf h.rpos 0xEEEEEEEE#32
    rpos := Ring.next h.maxcount h.rpos }

def MpsBuffHead.pushed (h : MpsBuffHead) (buf : U32) : MpsBuffHead :=
  { h with
    circularBuf := Function.update h.circularBuf h.wpos buf
    wpos := Ring.next h.maxcount h.wpos }

theorem popped_inRange {h : MpsBuffHead} (range : h.InRange) : h.popped.InRange :=
  ⟨Ring.next_le range.read, range.write⟩

theorem pushed_inRange {h : MpsBuffHead} (range : h.InRange) (buf : U32) : (h.pushed buf).InRange :=
  ⟨range.read, Ring.next_le range.write⟩

theorem queueTail_cases (buf : U32) (q : Option MpsBuffHead) :
    ((mpsQueueTail buf q).1 < 0 ∧ (mpsQueueTail buf q).2 = q) ∨
    ∃ h, q = some h ∧ Ring.next h.maxcount h.wpos ≠ h.rpos ∧ (mpsQueueTail buf q).1 = 0 ∧
      (mpsQueueTail buf q).2 = some (h.pushed buf) := by
  cases q with
  | none => exact Or.inl ⟨by show (-22 : Int) < 0; decide, rfl⟩
  | some h =>
    by_cases full : mpsIsQFull h
    · exact Or.inl ⟨by simp [mpsQueueTail, full], by simp [mpsQueueTail, full]⟩
    · refine Or.inr ⟨h, rfl, ?_, by simp [mpsQueueTail, full], ?_⟩
      · exact fun same => full (by simp [mpsIsQFull, mpsNextQPos_eq, same])
      · simp [mpsQueueTail, full, mpsSetQItem, mpsNextQPos_eq, MpsBuffHead.pushed]

theorem dequeueHead_cases (q : Option MpsBuffHead) :
    ((mpsDequeueHead q).1 = 0 ∧ (mpsDequeueHead q).2 = q) ∨
    ∃ h, q = some h ∧ h.rpos ≠ h.wpos ∧ (mpsDequeueHead q).1 = h.circularBuf h.rpos ∧
      (mpsDequeueHead q).2 = some h.popped := by
  cases q with
  | none => exact Or.inl ⟨rfl, rfl⟩
  | some h =>
    by_cases empty : mpsIsQEmpty h
    · exact Or.inl ⟨by simp [mpsDequeueHead, empty], by simp [mpsDequeueHead, empty]⟩
    · refine Or.inr ⟨h, rfl, ?_, by simp [mpsDequeueHead, empty], ?_⟩
      · simpa [mpsIsQEmpty] using empty
      · simp [mpsDequeueHead, empty, mpsNextQPos_eq, MpsBuffHead.popped]

/-! ### A release under way -/

/-- The local positions of a release lie between the positions of its queue, in this order. -/
structure Behind (h : MpsBuffHead) (r w : Nat) : Prop where
  read : r ≤ h.maxcount
  write : w ≤ h.maxcount
  freed : Ring.count h.maxcount h.rpos h.wpos = Ring.count h.maxcount h.rpos r + Ring.count h.maxcount r h.wpos
  left : Ring.count h.maxcount r h.wpos = Ring.count h.maxcount r w + Ring.count h.maxcount w h.wpos

theorem Behind.start {h : MpsBuffHead} (range : h.InRange) : Behind h h.rpos h.wpos :=
  ⟨range.read, range.write, by simp, by simp⟩

theorem Behind.filled {h : MpsBuffHead} {r w : Nat} (behind : Behind h r w) (more : r ≠ w) : r ≠ h.wpos := by
  rintro rfl
  have := Ring.count_pos behind.read behind.write more
  have left := behind.left
  simp only [Ring.count_self] at left
  omega

theorem Behind.free {h : MpsBuffHead} {r w : Nat} (range : h.InRange) (behind : Behind h r w) (more : r ≠ w) :
    Behind h (Ring.next h.maxcount r) w := by
  have one := Ring.count_next_read behind.read behind.write more
  have another := Ring.count_next_read behind.read range.write (behind.filled more)
  have total := Ring.count_le range.read range.write
  have freed := behind.freed
  have left := behind.left
  have room : Ring.next h.maxcount r ≠ h.rpos := by
    intro full
    have := (Ring.full_iff range.read behind.read).mp full
    omega
  have next := Ring.count_next_write range.read behind.read room
  exact ⟨Ring.next_le behind.read, behind.write, by omega, by omega⟩

theorem Behind.room {h : MpsBuffHead} {r w : Nat} (range : h.InRange) (behind : Behind h r w)
    (room : Ring.next h.maxcount h.wpos ≠ h.rpos) : Ring.next h.maxcount h.wpos ≠ r := by
  intro full
  have most := (Ring.full_iff behind.read range.write).mp full
  have total := Ring.count_le range.read range.write
  have freed := behind.freed
  have whole : Ring.count h.maxcount h.rpos h.wpos = h.maxcount := by omega
  exact room ((Ring.full_iff range.read range.write).mpr whole)

theorem Behind.append {h : MpsBuffHead} {r w : Nat} (range : h.InRange) (behind : Behind h r w)
    (room : Ring.next h.maxcount h.wpos ≠ h.rpos) (buf : U32) : Behind (h.pushed buf) r w := by
  have own := behind.room range room
  have freed := behind.freed
  have left := behind.left
  have whole := Ring.count_next_write range.read range.write room
  have rest := Ring.count_next_write behind.read range.write own
  have later : Ring.next h.maxcount h.wpos ≠ w := by
    intro full
    have most := (Ring.full_iff behind.write range.write).mp full
    have bound := Ring.count_le behind.read range.write
    have none : Ring.count h.maxcount r w = 0 := by omega
    have same : r = w := by
      by_contra differs
      have := Ring.count_pos behind.read behind.write differs
      omega
    exact own (full.trans same.symm)
  have last := Ring.count_next_write behind.write range.write later
  refine ⟨behind.read, behind.write, ?_, ?_⟩ <;> simp only [MpsBuffHead.pushed] <;> omega

/-! ### Where the buffers are -/

def Cpu0Job.releasing (q : QueueId) : Cpu0Job → Option Nat
  | .release _ _ (some l) => if l.queue = q then some l.rpos else none
  | _ => none

/-- The position from which on the entries of a queue are still in it: a release that is under way
has freed the entries before its local read position. -/
def readFrom (inside : List Cpu0Job) (q : QueueId) (h : MpsBuffHead) : Nat :=
  (inside.findSome? (Cpu0Job.releasing q)).getD h.rpos

def queueItems (inside : List Cpu0Job) (q : QueueId) : Option MpsBuffHead → List U32
  | none => []
  | some h => Ring.items h.circularBuf h.maxcount (readFrom inside q h) h.wpos

namespace MpsBuffers

def shelf (s : MpsBuffers) : Place → List U32
  | .queue q => queueItems s.inside q (s.queue q)
  | .user => s.held

def JobFits (queue : QueueId → Option MpsBuffHead) : Cpu0Job → Prop
  | .topup _ _ (some l) => l.queue.isPool = true ∧ ∃ h, queue l.queue = some h ∧ l.wpos = h.wpos ∧
      Ring.count h.maxcount h.rpos h.wpos ≤ l.count
  | .release _ _ (some l) => l.queue.isPool = false ∧ ∃ h, queue l.queue = some h ∧ Behind h l.rpos l.wpos
  | _ => True

structure Sound (s : MpsBuffers) : Prop where
  bookKeep : s.mpsListBookKeep = 1 - s.inside.length - s.refused
  single : s.inside.length ≤ 1
  range : ∀ q h, s.queue q = some h → h.InRange
  jobs : ∀ job ∈ s.inside, JobFits s.queue job
  custody : ∃ place, Custody s.shelf s.supplied s.returned place
  null : 0 ∉ s.supplied

end MpsBuffers

/-! ### Changing one queue -/

theorem fits_setQueue {s : MpsBuffers} (sound : s.Sound) {q : QueueId} {h h' : MpsBuffHead}
    (found : s.queue q = some h)
    (topup : q.isPool = true → h'.wpos = h.wpos ∧
      Ring.count h'.maxcount h'.rpos h'.wpos ≤ Ring.count h.maxcount h.rpos h.wpos)
    (release : q.isPool = false → ∀ r w, Behind h r w → Behind h' r w) :
    ∀ job ∈ s.inside, MpsBuffers.JobFits (Function.update s.queue q (some h')) job := by
  intro job member
  have fits := sound.jobs job member
  rcases job with ⟨seq, i, _ | l⟩ | ⟨seq, i, _ | l⟩
  · trivial
  · obtain ⟨isPool, g, own, wpos, count⟩ := fits
    by_cases same : l.queue = q
    · subst same
      rw [found] at own
      cases own
      obtain ⟨still, less⟩ := topup isPool
      exact ⟨isPool, h', Function.update_self .., by rw [still, wpos], by omega⟩
    · exact ⟨isPool, g, by rw [Function.update_of_ne same, own], wpos, count⟩
  · trivial
  · obtain ⟨notPool, g, own, behind⟩ := fits
    by_cases same : l.queue = q
    · subst same
      rw [found] at own
      cases own
      exact ⟨notPool, h', Function.update_self .., release notPool _ _ behind⟩
    · exact ⟨notPool, g, by rw [Function.update_of_ne same, own], behind⟩

theorem sound_replace {s : MpsBuffers} (sound : s.Sound) {q : QueueId} {h' : MpsBuffHead} {inside : List Cpu0Job}
    {held supplied returned : List U32} (range : h'.InRange) (calls : inside.length = s.inside.length)
    (fits : ∀ job ∈ inside, MpsBuffers.JobFits (Function.update s.queue q (some h')) job)
    (others : ∀ q' h, q' ≠ q → readFrom inside q' h = readFrom s.inside q' h)
    (custody : ∃ place, Custody (Function.update (Function.update s.shelf (.queue q)
      (queueItems inside q (some h'))) .user held) supplied returned place)
    (null : 0 ∉ supplied) :
    ({ s.setQueue q (some h') with inside, held, supplied, returned } : MpsBuffers).Sound := by
  refine ⟨by dsimp only; rw [calls]; exact sound.bookKeep, by dsimp only; rw [calls]; exact sound.single, ?_, fits, ?_, null⟩
  · intro q' g found
    by_cases own : q' = q
    · subst own
      simp only [MpsBuffers.setQueue, Function.update_self, Option.some.injEq] at found
      exact found ▸ range
    · simp only [MpsBuffers.setQueue, Function.update_of_ne own] at found
      exact sound.range q' g found
  · obtain ⟨place, custody⟩ := custody
    refine ⟨place, ?_⟩
    convert custody using 1
    funext p
    cases p with
    | user => simp [MpsBuffers.shelf]
    | queue q' =>
      by_cases own : q' = q
      · subst own
        simp [MpsBuffers.shelf, MpsBuffers.setQueue]
      · simp only [MpsBuffers.shelf, MpsBuffers.setQueue, Function.update_of_ne own, ne_eq, reduceCtorEq,
          not_false_eq_true, Function.update_of_ne, Place.queue.injEq, own]
        cases found : s.queue q' with
        | none => rfl
        | some h => simp only [queueItems, others q' h own]

theorem update_user (s : MpsBuffers) (q : QueueId) (x : List U32) :
    Function.update (Function.update s.shelf (.queue q) x) .user s.held = Function.update s.shelf (.queue q) x :=
  Function.update_eq_self_iff.mpr (by simp [MpsBuffers.shelf])

theorem readFrom_pool {s : MpsBuffers} (sound : s.Sound) {q : QueueId} (pool : q.isPool = true) (h : MpsBuffHead) :
    readFrom s.inside q h = h.rpos := by
  have none : s.inside.findSome? (Cpu0Job.releasing q) = none := by
    rw [List.findSome?_eq_none_iff]
    intro job member
    have fits := sound.jobs job member
    rcases job with ⟨seq, i, _ | l⟩ | ⟨seq, i, _ | l⟩ <;> try rfl
    simp only [Cpu0Job.releasing]
    rw [if_neg]
    rintro rfl
    rw [fits.1] at pool
    exact absurd pool (by decide)
  simp [readFrom, none]

/-- A queue that CPU1 may append to has room behind every buffer still in it. -/
theorem readFrom_room {s : MpsBuffers} (sound : s.Sound) {q : QueueId} {h : MpsBuffHead}
    (found : s.queue q = some h) (room : Ring.next h.maxcount h.wpos ≠ h.rpos) :
    readFrom s.inside q h ≤ h.maxcount ∧ Ring.next h.maxcount h.wpos ≠ readFrom s.inside q h := by
  have range := sound.range q h found
  unfold readFrom
  cases released : s.inside.findSome? (Cpu0Job.releasing q) with
  | none => exact ⟨range.read, room⟩
  | some r =>
    obtain ⟨job, member, own⟩ := List.exists_of_findSome?_eq_some released
    have fits := sound.jobs job member
    rcases job with ⟨seq, i, _ | l⟩ | ⟨seq, i, _ | l⟩ <;> simp only [Cpu0Job.releasing, reduceCtorEq] at own
    split at own
    · rename_i same
      cases own
      obtain ⟨_, h', found', behind⟩ := fits
      rw [same, found] at found'
      cases found'
      exact ⟨behind.read, behind.room range room⟩
    · cases own

end TwinpassGateway.Mps
