import TwinpassGateway.Mps.BufferAccount

/-!
No buffer of the shared pools is lost, handed out twice or freed twice: what each step of either CPU
does to the custody of the buffers, and from it what every run does.
-/

namespace TwinpassGateway.Mps

open Foundation

variable {s : MpsBuffers} {q : QueueId} {buf : U32}

/-! ### CPU1 -/

theorem setQueue_self (s : MpsBuffers) (q : QueueId) : s.setQueue q (s.queue q) = s := by
  simp [MpsBuffers.setQueue]

theorem sound_setPool (sound : s.Sound) (seq : Nat) (p : MpsBuffPoolHead) : (s.setPool seq p).Sound :=
  ⟨sound.bookKeep, sound.single, sound.range, sound.jobs, sound.custody, sound.null⟩

theorem ne_null_of_mem (sound : s.Sound) {p : Place} (member : buf ∈ s.shelf p) : buf ≠ 0 := by
  obtain ⟨place, custody⟩ := sound.custody
  rintro rfl
  have here := custody.place_of_mem member
  have counted := custody.ledger 0
  rw [here, List.count_eq_zero.mpr sound.null] at counted
  simp at counted

theorem sound_take (sound : s.Sound) (pool : q.isPool = true) :
    ((s.setQueue q (mpsDequeueHead (s.queue q)).2).hold (mpsDequeueHead (s.queue q)).1).Sound := by
  rcases dequeueHead_cases (s.queue q) with ⟨null, same⟩ | ⟨h, found, filled, taken, after⟩
  · rw [null, same, setQueue_self]
    exact sound
  · have range := sound.range q h found
    have here : s.shelf (.queue q) = h.circularBuf h.rpos ::
        Ring.items h.circularBuf h.maxcount (Ring.next h.maxcount h.rpos) h.wpos := by
      simp only [MpsBuffers.shelf, found, queueItems, readFrom_pool sound pool]
      exact Ring.items_pop range.read range.write filled
    have member : h.circularBuf h.rpos ∈ s.shelf (.queue q) := by rw [here]; exact List.mem_cons_self
    have less := Ring.count_next_read range.read range.write filled
    have rest : queueItems s.inside q (some h.popped) = (s.shelf (.queue q)).erase (h.circularBuf h.rpos) := by
      rw [here, List.erase_cons_head, queueItems, readFrom_pool sound pool]
      exact Ring.items_update_read range.read range.write _
    rw [taken, after, MpsBuffers.hold, if_neg (ne_null_of_mem sound member)]
    refine sound_replace sound (popped_inRange range) rfl ?_ (fun _ _ _ => rfl) ?_ sound.null
    · refine fits_setQueue sound found (fun _ => ⟨rfl, ?_⟩) fun notPool => ?_
      · simp only [MpsBuffHead.popped]
        omega
      · rw [pool] at notPool
        exact absurd notPool (by decide)
    · obtain ⟨place, custody⟩ := sound.custody
      refine ⟨Function.update place (h.circularBuf h.rpos) (some .user), ?_⟩
      show Custody (Function.update (Function.update s.shelf (.queue q) (queueItems s.inside q (some h.popped)))
        .user (s.held ++ [h.circularBuf h.rpos])) s.supplied s.returned _
      rw [rest]
      exact custody.move member .user

theorem sound_give (sound : s.Sound) (free : q.isPool = false) (member : buf ∈ s.held) :
    ((s.setQueue q (mpsQueueTail buf (s.queue q)).2).letGo
      (if (mpsQueueTail buf (s.queue q)).1 < 0 then -1 else 0) buf).Sound := by
  rcases queueTail_cases buf (s.queue q) with ⟨failed, same⟩ | ⟨h, found, room, ok, after⟩
  · rw [same, setQueue_self, if_pos failed]
    exact sound
  · have range := sound.range q h found
    obtain ⟨read, behind⟩ := readFrom_room sound found room
    have mine : buf ∈ s.shelf .user := member
    have longer : queueItems s.inside q (some (h.pushed buf)) = s.shelf (.queue q) ++ [buf] := by
      have same : readFrom s.inside q (h.pushed buf) = readFrom s.inside q h := rfl
      simp only [queueItems, MpsBuffers.shelf, found, same]
      exact Ring.items_push_update read range.write behind buf
    rw [ok, after]
    refine sound_replace sound (pushed_inRange range buf) rfl ?_ (fun _ _ _ => rfl) ?_ sound.null
    · refine fits_setQueue sound found (fun isPool => ?_) fun _ r w order => order.append range room buf
      rw [free] at isPool
      exact absurd isPool (by decide)
    · obtain ⟨place, custody⟩ := sound.custody
      have moved := custody.move mine (.queue q)
      rw [putOn, takeOff, Function.update_comm (by simp)] at moved
      refine ⟨Function.update place buf (some (.queue q)), ?_⟩
      show Custody (Function.update (Function.update s.shelf (.queue q) (queueItems s.inside q (some (h.pushed buf))))
        .user (s.held.erase buf)) s.supplied s.returned _
      rw [longer]
      exact moved

/-- A buffer that is not from CPU0's memory goes straight back to the kernel. -/
theorem sound_kernel (sound : s.Sound) (member : buf ∈ s.held) :
    ({ s with returned := s.returned ++ [buf], held := s.held.erase buf } : MpsBuffers).Sound := by
  have mine : buf ∈ s.shelf .user := member
  obtain ⟨place, custody⟩ := sound.custody
  refine ⟨sound.bookKeep, sound.single, sound.range, sound.jobs, ⟨Function.update place buf none, ?_⟩, sound.null⟩
  convert custody.giveBack mine using 1
  funext p
  cases p <;> rfl

theorem sound_allocMps (sound : s.Sound) (cpuId : MpsCpuId) (size seq : Nat) :
    (s.step (.allocMps cpuId size seq)).Sound := by
  simp only [MpsBuffers.step, ifxMpsFastAllocMpsBuf]
  split
  · exact sound
  · split
    · exact sound
    · exact sound_take (sound_setPool sound _ _) rfl

theorem sound_allocMalloc (sound : s.Sound) (cpuId : MpsCpuId) (seq : Nat) :
    (s.step (.allocMalloc cpuId seq)).Sound := by
  simp only [MpsBuffers.step, ifxMpsFastAllocMallocBuf]
  split
  · exact sound
  · split
    · exact sound
    · exact sound_take sound rfl

theorem sound_freeMps (sound : s.Sound) (cpuId : MpsCpuId) (truesize seq : Nat)
    (owned : buf = 0 ∨ buf ∈ s.held) : (s.step (.freeMps cpuId buf truesize seq)).Sound := by
  simp only [MpsBuffers.step, ifxMpsFastFreeMpsBuf]
  by_cases null : buf = 0
  · simpa [null, MpsBuffers.letGo] using sound
  · have member := owned.resolve_left null
    rw [if_neg null]
    split
    · exact sound
    · split
      · exact sound_kernel sound member
      · split
        · exact sound
        · refine sound_give (sound_setPool sound _ _) ?_ member
          split <;> rfl

theorem sound_freeMalloc (sound : s.Sound) (cpuId : MpsCpuId) (seq : Nat)
    (owned : buf = 0 ∨ buf ∈ s.held) : (s.step (.freeMalloc cpuId buf seq)).Sound := by
  simp only [MpsBuffers.step, ifxMpsFastFreeMallocBuf]
  by_cases null : buf = 0
  · simpa [null, MpsBuffers.letGo] using sound
  · rw [if_neg null]
    split
    · exact sound
    · split
      · exact sound
      · exact sound_give sound rfl (owned.resolve_left null)

/-! ### CPU0 -/

@[simp] theorem readFrom_nil (q : QueueId) (h : MpsBuffHead) : readFrom [] q h = h.rpos := rfl

@[simp] theorem readFrom_topup (seq i : Nat) (loop : Option TopupLoop) (q : QueueId) (h : MpsBuffHead) :
    readFrom [.topup seq i loop] q h = h.rpos := rfl

@[simp] theorem readFrom_release (seq i : Nat) (q : QueueId) (h : MpsBuffHead) :
    readFrom [.release seq i none] q h = h.rpos := rfl

theorem readFrom_loop (seq i : Nat) (l : ReleaseLoop) (q : QueueId) (h : MpsBuffHead) :
    readFrom [.release seq i (some l)] q h = if l.queue = q then l.rpos else h.rpos := by
  by_cases own : l.queue = q <;> simp [readFrom, Cpu0Job.releasing, own]

theorem sound_inside (sound : s.Sound) {inside : List Cpu0Job} {refused : Nat} {bookKeep : Int}
    (counted : bookKeep = 1 - inside.length - refused) (single : inside.length ≤ 1)
    (fits : ∀ job ∈ inside, MpsBuffers.JobFits s.queue job)
    (same : ∀ q h, s.queue q = some h → readFrom inside q h = readFrom s.inside q h) :
    ({ s with mpsListBookKeep := bookKeep, inside, refused } : MpsBuffers).Sound := by
  obtain ⟨place, custody⟩ := sound.custody
  refine ⟨counted, single, sound.range, fits, ⟨place, ?_⟩, sound.null⟩
  convert custody using 1
  funext p
  cases p with
  | user => rfl
  | queue q =>
    simp only [MpsBuffers.shelf]
    cases found : s.queue q with
    | none => rfl
    | some h => simp only [queueItems, same q h found]

theorem sound_locked (sound : s.Sound) {job : Cpu0Job} (idle : ∀ q, job.releasing q = none)
    (fits : MpsBuffers.JobFits s.queue job) : (s.locked job (decide (s.mpsListBookKeep - 1 = 0))).Sound := by
  have counted := sound.bookKeep
  by_cases free : s.mpsListBookKeep - 1 = 0
  · have alone : s.inside = [] := List.length_eq_zero_iff.mp (by omega)
    have first : s.refused = 0 := by omega
    simp only [MpsBuffers.locked, free, decide_true, if_true]
    refine sound_inside sound (by simp [alone, first]) (by simp [alone]) (by simpa [alone] using fits) ?_
    intro q h found
    simp [alone, readFrom, idle]
  · simp only [MpsBuffers.locked, free, decide_false, Bool.false_eq_true, if_false]
    exact sound_inside sound (by omega) sound.single sound.jobs fun _ _ _ => rfl

theorem sound_enterTopup (sound : s.Sound) (cpuId : MpsCpuId) (seq : Nat) :
    (s.step (.enterTopup cpuId seq)).Sound := by
  simp only [MpsBuffers.step, ifxCpu0TopupQLists]
  split
  · exact sound
  · split
    · exact sound
    · rename_i p _
      unfold bookKeeping
      split
      · exact sound_setPool sound _ _
      · rename_i taken lock
        split at lock
        · cases lock
          exact sound_locked (sound_setPool sound seq { p with allocHitCount := 0 }) (fun _ => rfl) trivial
        · cases lock

theorem sound_enterRelease (sound : s.Sound) (cpuId : MpsCpuId) (seq : Nat) :
    (s.step (.enterRelease cpuId seq)).Sound := by
  simp only [MpsBuffers.step, ifxCpu0ReleaseQLists]
  split
  · exact sound
  · split
    · exact sound
    · rename_i p _
      unfold bookKeeping
      split
      · exact sound_setPool sound _ _
      · rename_i taken lock
        split at lock
        · cases lock
          exact sound_locked (sound_setPool sound seq { p with freeHitCount := 0 }) (fun _ => rfl) trivial
        · cases lock

theorem sound_retreat (sound : s.Sound) : (s.step .retreat).Sound := by
  have counted := sound.bookKeep
  simp only [MpsBuffers.step]
  split
  · exact sound
  · exact sound_inside sound (by omega) sound.single sound.jobs fun _ _ _ => rfl

def MpsBuffers.resume (s : MpsBuffers) (rest : Option Cpu0Job) : MpsBuffers := { s with inside := rest.toList }

theorem sound_next (sound : s.Sound) {job job' : Cpu0Job} (alone : s.inside = [job])
    (fits : MpsBuffers.JobFits s.queue job')
    (same : ∀ q h, s.queue q = some h → readFrom [job'] q h = readFrom [job] q h) :
    (s.resume (some job')).Sound := by
  have counted := sound.bookKeep
  rw [alone] at counted
  refine sound_inside sound counted (by simp) (by simpa using fits) ?_
  intro q h found
  rw [alone]
  exact same q h found

theorem sound_leave (sound : s.Sound) {job : Cpu0Job} (alone : s.inside = [job])
    (idle : ∀ q h, readFrom [job] q h = h.rpos) :
    (MpsBuffers.resume { s with mpsListBookKeep := s.mpsListBookKeep + 1 } none).Sound := by
  have counted := sound.bookKeep
  rw [alone] at counted
  refine sound_inside sound (by simp at counted ⊢; omega) (by simp) (by simp) ?_
  intro q h found
  rw [alone, idle]
  rfl

theorem sound_topup (sound : s.Sound) {seq i : Nat} {loop : Option TopupLoop}
    (alone : s.inside = [.topup seq i loop]) (fresh : buf = 0 ∨ s.supplied.count buf = s.returned.count buf) :
    ((topupStep s seq i loop buf).1.resume (topupStep s seq i loop buf).2).Sound := by
  have next (j : Nat) : (s.resume (some (.topup seq j none))).Sound := sound_next sound alone trivial fun _ _ _ => rfl
  cases loop with
  | none =>
    simp only [topupStep]
    split
    · split
      · exact next _
      · rename_i h found
        split
        · exact next _
        · refine sound_next sound alone ⟨rfl, h, found, rfl, ?_⟩ fun _ _ _ => rfl
          exact Nat.le_of_eq (mpsGetQCount_eq h).symm
    · exact sound_leave sound alone fun _ _ => rfl
  | some l =>
    obtain ⟨pool, h, found, wpos, count⟩ := sound.jobs (.topup seq i (some l)) (by simp [alone])
    have range := sound.range _ h found
    simp only [topupStep, found]
    split
    · rename_i more
      split
      · have same : s.setQueue l.queue (some { h with wpos := l.wpos }) = s := by
          rw [wpos, ← found]
          exact setQueue_self s l.queue
        rw [same]
        exact next _
      · rename_i nonnull
        have room : Ring.next h.maxcount h.wpos ≠ h.rpos := by
          intro full
          have := (Ring.full_iff range.read range.write).mp full
          omega
        have longer := Ring.count_next_write range.read range.write room
        have free := fresh.resolve_left nonnull
        have items : s.shelf (.queue l.queue) = Ring.items h.circularBuf h.maxcount h.rpos h.wpos := by
          simp [MpsBuffers.shelf, found, queueItems, alone]
        have items : queueItems [.topup seq i (some { l with count := l.count + 1, wpos := mpsNextQPos l.wpos h.maxcount })]
            l.queue (some (h.pushed buf)) = s.shelf (.queue l.queue) ++ [buf] := by
          simp only [MpsBuffers.shelf, found, queueItems, alone, readFrom_topup]
          exact Ring.items_push_update range.read range.write room buf
        have pushed : s.setQueue l.queue
            (some { mpsSetQItem h buf with wpos := mpsNextQPos l.wpos h.maxcount }) =
            s.setQueue l.queue (some (h.pushed buf)) := by rw [wpos]; rfl
        rw [pushed]
        refine sound_replace sound (pushed_inRange range buf) (by simp [alone]) ?_ (by simp [alone]) ?_ ?_
        · intro job member
          obtain rfl := by simpa using member
          refine ⟨pool, h.pushed buf, Function.update_self .., by rw [wpos]; rfl, ?_⟩
          simp only [MpsBuffHead.pushed]
          omega
        · obtain ⟨place, custody⟩ := sound.custody
          have shelf : s.held = (s.setQueue l.queue (some (h.pushed buf))).held := rfl
          simp only [Option.toList_some, ← shelf, update_user, items]
          exact ⟨_, custody.supply free⟩
        · simpa using ⟨sound.null, Ne.symm nonnull⟩
    · exact next _

theorem sound_release (sound : s.Sound) {seq i : Nat} {loop : Option ReleaseLoop}
    (alone : s.inside = [.release seq i loop]) :
    ((releaseStep s seq i loop).1.resume (releaseStep s seq i loop).2).Sound := by
  cases loop with
  | none =>
    have next : (s.resume (some (.release seq (i + 1) none))).Sound := sound_next sound alone trivial fun _ _ _ => rfl
    simp only [releaseStep]
    split
    · exact sound_leave sound alone fun _ _ => rfl
    · rename_i id listed
      split
      · exact next
      · rename_i h found
        have free : id.isPool = false := by
          simp only [releaseQueue] at listed
          split_ifs at listed <;> cases listed <;> rfl
        refine sound_next sound alone ⟨free, h, found, Behind.start (sound.range id h found)⟩ ?_
        intro q h' found'
        rw [readFrom_loop, readFrom_release]
        split
        · rename_i own
          dsimp only at own
          rw [← own, found] at found'
          cases found'
          rfl
        · rfl
  | some l =>
    obtain ⟨free, h, found, behind⟩ := sound.jobs (.release seq i (some l)) (by simp [alone])
    have range := sound.range _ h found
    simp only [releaseStep, found]
    split
    · rename_i more
      have here : s.shelf (.queue l.queue) = h.circularBuf l.rpos ::
          Ring.items h.circularBuf h.maxcount (Ring.next h.maxcount l.rpos) h.wpos := by
        simp only [MpsBuffers.shelf, found, queueItems, alone, readFrom_loop, if_true]
        exact Ring.items_pop behind.read range.write (behind.filled more)
      have member : h.circularBuf l.rpos ∈ s.shelf (.queue l.queue) := by rw [here]; exact List.mem_cons_self
      have rest : queueItems [.release seq i (some { l with rpos := mpsNextQPos l.rpos h.maxcount })] l.queue (some h) =
          (s.shelf (.queue l.queue)).erase (h.circularBuf l.rpos) := by
        rw [here, List.erase_cons_head, queueItems, readFrom_loop, if_pos rfl]
        rfl
      have same : s.setQueue l.queue (some h) = s := by rw [← found]; exact setQueue_self s l.queue
      have step : ({ s.setQueue l.queue (some h) with
          inside := [.release seq i (some { l with rpos := mpsNextQPos l.rpos h.maxcount })]
          held := s.held
          supplied := s.supplied
          returned := s.returned ++ [h.circularBuf l.rpos] } : MpsBuffers).Sound := by
        refine sound_replace sound range (by simp [alone]) ?_ ?_ ?_ sound.null
        · intro job inside
          obtain rfl := by simpa using inside
          exact ⟨free, h, Function.update_self .., behind.free range more⟩
        · intro q' g other
          simp only [alone, readFrom_loop, if_neg (Ne.symm other)]
        · obtain ⟨place, custody⟩ := sound.custody
          rw [update_user, rest]
          exact ⟨_, custody.giveBack member⟩
      rw [same] at step
      exact step
    · have stored : ({ s.setQueue l.queue (some { h with rpos := l.rpos }) with
          inside := [.release seq (i + 1) none]
          held := s.held
          supplied := s.supplied
          returned := s.returned } : MpsBuffers).Sound := by
        refine sound_replace sound ⟨behind.read, range.write⟩ (by simp [alone]) ?_ ?_ ?_ sound.null
        · intro job inside
          obtain rfl := by simpa using inside
          trivial
        · intro q' g other
          simp only [alone, readFrom_loop, readFrom_release, if_neg (Ne.symm other)]
        · -- the local read position becomes the read position of the queue
          have here : queueItems [.release seq (i + 1) none] l.queue (some { h with rpos := l.rpos }) =
              s.shelf (.queue l.queue) := by
            simp only [MpsBuffers.shelf, found, queueItems, alone, readFrom_loop, readFrom_release, if_true]
          rw [update_user, here, Function.update_eq_self]
          exact sound.custody
      exact stored

theorem sound_turn (sound : s.Sound) (k : Nat) (fresh : buf = 0 ∨ s.supplied.count buf = s.returned.count buf) :
    (s.step (.turn k buf)).Sound := by
  simp only [MpsBuffers.step]
  cases called : s.inside[k]? with
  | none => exact sound
  | some job =>
    have first : k = 0 := by
      have := sound.single
      have := (List.getElem?_eq_some_iff.mp called).1
      omega
    subst first
    obtain ⟨rest, split⟩ : ∃ rest, s.inside = job :: rest := by
      cases inside : s.inside with
      | nil => simp [inside] at called
      | cons head rest => exact ⟨rest, by simpa [inside] using called⟩
    have alone : s.inside = [job] := by
      have single := sound.single
      rw [split] at single ⊢
      simpa using single
    have resumed : ((jobStep s buf job).1.resume (jobStep s buf job).2).Sound := by
      cases job with
      | topup seq i loop => exact sound_topup sound alone fresh
      | release seq i loop => exact sound_release sound alone
    simpa [alone, MpsBuffers.resume] using resumed

/-! ### Runs -/

/-- The pools as their initialisation leaves them: no call under way, nothing handed out, and every
buffer supplied so far in one queue. -/
structure MpsBuffers.Start (s : MpsBuffers) : Prop where
  bookKeep : s.mpsListBookKeep = 1
  idle : s.inside = [] ∧ s.refused = 0
  unused : s.held = [] ∧ s.returned = []
  range : ∀ q h, s.queue q = some h → h.InRange
  filled : ∀ b, (∃ q₀, s.supplied.count b = 1 ∧ ∀ q, (s.shelf (.queue q)).count b = if q = q₀ then 1 else 0) ∨
    s.supplied.count b = 0 ∧ ∀ q, (s.shelf (.queue q)).count b = 0
  null : 0 ∉ s.supplied

theorem start_sound (start : s.Start) : s.Sound := by
  refine ⟨by simp [start.bookKeep, start.idle], by simp [start.idle], start.range, by simp [start.idle], ?_, start.null⟩
  have chosen : ∀ b, ∃ p : Option Place, (∀ p', (s.shelf p').count b = if p = some p' then 1 else 0) ∧
      s.supplied.count b = if p = none then 0 else 1 := by
    intro b
    rcases start.filled b with ⟨q₀, once, counts⟩ | ⟨never, counts⟩
    · refine ⟨some (.queue q₀), fun p' => ?_, by simp [once]⟩
      cases p' with
      | queue q => simp [counts q, eq_comm]
      | user => simp [MpsBuffers.shelf, start.unused.1]
    · refine ⟨none, fun p' => ?_, by simp [never]⟩
      cases p' with
      | queue q => simp [counts q]
      | user => simp [MpsBuffers.shelf, start.unused.1]
  choose place counts using chosen
  exact ⟨place, fun p b => (counts b).1 p, fun b => by simpa [start.unused.2] using (counts b).2⟩

theorem step_sound (s : MpsBuffers) (e : PoolEvent) (sound : s.Sound) (allowed : s.Admissible e) : (s.step e).Sound := by
  cases e with
  | enterTopup cpuId seq => exact sound_enterTopup sound cpuId seq
  | enterRelease cpuId seq => exact sound_enterRelease sound cpuId seq
  | turn k mpsBuf => exact sound_turn sound k allowed
  | retreat => exact sound_retreat sound
  | allocMps cpuId size seq => exact sound_allocMps sound cpuId size seq
  | freeMps cpuId buf truesize seq => exact sound_freeMps sound cpuId truesize seq allowed
  | allocMalloc cpuId seq => exact sound_allocMalloc sound cpuId seq
  | freeMalloc cpuId buf seq => exact sound_freeMalloc sound cpuId seq allowed

/-- At every moment of every run each buffer is in one place, as often as it has been supplied more
often than it has been returned to the kernel. -/
theorem buffers_conserved {s : MpsBuffers} (start : s.Start) {events : List PoolEvent}
    (guarded : Guarded MpsBuffers.step MpsBuffers.Admissible s events) :
    let t := exec MpsBuffers.step s events
    ∃ place : U32 → Option Place, ∀ b,
      (∀ p, (t.shelf p).count b = if place b = some p then 1 else 0) ∧
      t.supplied.count b = t.returned.count b + if place b = none then 0 else 1 := by
  intro t
  have sound : t.Sound := guarded_invariant step_sound (start_sound start) guarded
  obtain ⟨place, custody⟩ := sound.custody
  exact ⟨place, fun b => ⟨fun p => custody.shelves p b, custody.ledger b⟩⟩

/-- One pool with one entry of up to two buffers, and free lists of one. -/
def samplePools : MpsBuffers where
  pool := fun seq => if seq = 10 then some { sizesCount := 1, freeHitCount := 0, allocHitCount := 0, size := fun _ => 0 } else none
  queue
    | .allocQ 10 0 => some { circularBuf := fun _ => 0, maxcount := 2, rpos := 0, wpos := 0 }
    | .defaultFreeList 10 => some { circularBuf := fun _ => 0, maxcount := 1, rpos := 0, wpos := 0 }
    | _ => none
  mpsListBookKeep := 1
  inside := []
  refused := 0
  held := []
  supplied := []
  returned := []

theorem samplePools_start : samplePools.Start := by
  have empty : ∀ q, samplePools.shelf (.queue q) = [] := by
    intro q
    simp only [MpsBuffers.shelf, samplePools]
    split <;> rfl
  refine ⟨rfl, ⟨rfl, rfl⟩, ⟨rfl, rfl⟩, ?_, fun b => Or.inr ⟨rfl, fun q => by rw [empty]; rfl⟩, by simp [samplePools]⟩
  intro q h found
  simp only [samplePools] at found
  split at found <;> cases found <;> exact ⟨by decide, by decide⟩

/-- CPU0 tops up, CPU1 takes a buffer and frees it, and a release is refused in between. -/
def samplePoolRun : List PoolEvent :=
  [.enterTopup .cpu0 10, .turn 0 0, .turn 0 0x80100000#32, .enterRelease .cpu0 10, .allocMps .cpu1 1600 10,
    .turn 0 0x80100800#32, .turn 0 0, .turn 0 0, .retreat, .freeMps .cpu1 0x80100000#32 1600 10]

theorem buffers_conserved_sample :
    ∃ place : U32 → Option Place, ∀ b,
      (∀ p, ((exec MpsBuffers.step samplePools samplePoolRun).shelf p).count b = if place b = some p then 1 else 0) ∧
      (exec MpsBuffers.step samplePools samplePoolRun).supplied.count b =
        (exec MpsBuffers.step samplePools samplePoolRun).returned.count b + if place b = none then 0 else 1 := by
  refine buffers_conserved samplePools_start ⟨trivial, Or.inl rfl, Or.inr ?_, trivial, trivial, Or.inr ?_,
    Or.inl rfl, Or.inl rfl, trivial, Or.inr ?_, trivial⟩
  · decide
  · decide
  · decide

example : (exec MpsBuffers.step samplePools samplePoolRun).shelf (.queue (.defaultFreeList 10)) = [0x80100000#32] := by
  decide

end TwinpassGateway.Mps
