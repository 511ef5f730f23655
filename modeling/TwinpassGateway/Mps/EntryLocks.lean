import TwinpassGateway.Foundation.DecTest
import TwinpassGateway.Mps.BufferPool
import TwinpassGateway.Mps.BufferConservation
import TwinpassGateway.Mps.Backlog

/-!
The two sections of the MPS driver that are entered by decrement-and-test: the upkeep of the pools, under
`mps_list_book_keep_x`, and the walk through the backlog, under `bklog_q_lock`.
-/

namespace TwinpassGateway.Mps

open Foundation

/-! ### The pools -/

def MpsBuffers.entries (s : MpsBuffers) : DecTest where
  counter := s.mpsListBookKeep
  inside := s.inside.length
  refused := s.refused

theorem locked_entries (s : MpsBuffers) (job : Cpu0Job) :
    (s.locked job (decide (s.mpsListBookKeep - 1 = 0))).entries = s.entries.step .enter := by
  by_cases free : s.mpsListBookKeep - 1 = 0 <;>
    simp [MpsBuffers.locked, MpsBuffers.entries, DecTest.step, free]

theorem bookKeeping_test {s : MpsBuffers} {hitCount : Nat} {taken : Bool} (lock : bookKeeping s hitCount = some taken) :
    taken = decide (s.mpsListBookKeep - 1 = 0) := by
  unfold bookKeeping at lock
  split at lock
  · cases lock
    rfl
  · cases lock

theorem topup_entries (s : MpsBuffers) (cpuId : MpsCpuId) (seq : Nat) :
    (ifxCpu0TopupQLists s cpuId seq).entries = s.entries ∨
      (ifxCpu0TopupQLists s cpuId seq).entries = s.entries.step .enter := by
  unfold ifxCpu0TopupQLists
  split
  · exact .inl rfl
  split
  · exact .inl rfl
  rename_i p _
  split
  · exact .inl rfl
  · rename_i taken lock
    rw [bookKeeping_test lock]
    exact .inr (locked_entries (s.setPool seq { p with allocHitCount := 0 }) _)

theorem release_entries (s : MpsBuffers) (cpuId : MpsCpuId) (seq : Nat) :
    (ifxCpu0ReleaseQLists s cpuId seq).entries = s.entries ∨
      (ifxCpu0ReleaseQLists s cpuId seq).entries = s.entries.step .enter := by
  unfold ifxCpu0ReleaseQLists
  split
  · exact .inl rfl
  split
  · exact .inl rfl
  rename_i p _
  split
  · exact .inl rfl
  · rename_i taken lock
    rw [bookKeeping_test lock]
    exact .inr (locked_entries (s.setPool seq { p with freeHitCount := 0 }) _)

/-- A turn inside leaves the counter alone, the last one increments it. -/
def Turned (s : MpsBuffers) (r : MpsBuffers × Option Cpu0Job) : Prop :=
  r.1.inside = s.inside ∧ r.1.refused = s.refused ∧
    r.1.mpsListBookKeep = s.mpsListBookKeep + if r.2.isNone then 1 else 0

theorem turned_last (s : MpsBuffers) : Turned s ({ s with mpsListBookKeep := s.mpsListBookKeep + 1 }, none) :=
  ⟨rfl, rfl, rfl⟩

theorem turned_on {s t : MpsBuffers} (same : t.entries = s.entries) (inside : t.inside = s.inside) (job : Cpu0Job) :
    Turned s (t, some job) := by
  obtain ⟨counter, -, refused⟩ := DecTest.mk.inj same
  exact ⟨inside, refused, by simpa using counter⟩

theorem jobStep_turned (s : MpsBuffers) (mpsBuf : U32) (job : Cpu0Job) : Turned s (jobStep s mpsBuf job) := by
  cases job with
  | topup seq i loop =>
    cases loop <;> simp only [jobStep, topupStep]
    all_goals repeat' split
    all_goals first | exact turned_on rfl rfl _ | exact turned_last s
  | release seq i loop =>
    cases loop <;> simp only [jobStep, releaseStep]
    all_goals repeat' split
    all_goals first | exact turned_on rfl rfl _ | exact turned_last s

theorem turn_entries (s : MpsBuffers) (k : Nat) (mpsBuf : U32) :
    (s.step (.turn k mpsBuf)).entries = s.entries ∨ (s.step (.turn k mpsBuf)).entries = s.entries.step .leave := by
  simp only [MpsBuffers.step]
  split
  · exact .inl rfl
  rename_i job present
  obtain ⟨inside, refused, counter⟩ := jobStep_turned s mpsBuf job
  obtain ⟨below, -⟩ := List.getElem?_eq_some_iff.mp present
  generalize jobStep s mpsBuf job = turned at inside refused counter
  obtain ⟨t, rest⟩ := turned
  cases rest with
  | none =>
    refine .inr ?_
    simp only [Option.isNone_none, if_true] at counter refused
    have busy : s.inside.length ≠ 0 := by omega
    simp only [MpsBuffers.entries, DecTest.step, counter, refused, busy, if_false, Option.toList_none, List.append_nil,
      List.length_append, List.length_take, List.length_drop]
    congr 1
    omega
  | some job' =>
    refine .inl ?_
    simp only [Option.isNone_some, Bool.false_eq_true, if_false, add_zero] at counter refused
    simp only [MpsBuffers.entries, counter, refused, Option.toList_some, List.length_append, List.length_take,
      List.length_drop, List.length_singleton]
    congr 1
    omega

theorem pools_follow : DecTest.Follows MpsBuffers.step MpsBuffers.entries := by
  intro s e
  cases e with
  | enterTopup cpuId seq => exact (topup_entries s cpuId seq).imp_right fun h => ⟨_, h⟩
  | enterRelease cpuId seq => exact (release_entries s cpuId seq).imp_right fun h => ⟨_, h⟩
  | turn k mpsBuf => exact (turn_entries s k mpsBuf).imp_right fun h => ⟨_, h⟩
  | retreat =>
    refine .inr ⟨.retreat, ?_⟩
    by_cases none : s.refused = 0 <;> simp [MpsBuffers.step, DecTest.step, MpsBuffers.entries, none]
  | allocMps cpuId size seq =>
    refine .inl ?_
    simp only [MpsBuffers.step, ifxMpsFastAllocMpsBuf, MpsBuffers.hold]
    repeat' split
    all_goals rfl
  | freeMps cpuId buf truesize seq =>
    refine .inl ?_
    simp only [MpsBuffers.step, ifxMpsFastFreeMpsBuf, MpsBuffers.letGo]
    repeat' split
    all_goals rfl
  | allocMalloc cpuId seq =>
    refine .inl ?_
    simp only [MpsBuffers.step, ifxMpsFastAllocMallocBuf, MpsBuffers.hold]
    repeat' split
    all_goals rfl
  | freeMalloc cpuId buf seq =>
    refine .inl ?_
    simp only [MpsBuffers.step, ifxMpsFastFreeMallocBuf, MpsBuffers.letGo]
    repeat' split
    all_goals rfl

/-! ### The backlog -/

def Bklog.entries (s : Bklog) : DecTest where
  counter := s.shared.bklogQLock
  inside := s.contexts.countP BklogPc.holds
  refused := s.contexts.countP BklogPc.refused

/-- A statement of one context, seen from the lock; the other contexts are those of `rest`. -/
theorem stmt_entries (sh : BklogShared) (room : Bool) (pc : BklogPc) (rest : List BklogPc) (n : Nat) :
    let before := Bklog.entries ⟨sh, pc :: rest, n⟩
    let after := Bklog.entries ⟨(sh.stmt room pc).1, (sh.stmt room pc).2 :: rest, n⟩
    after = before ∨ ∃ m, after = before.step m := by
  cases pc with
  | decAndTest =>
    refine .inr ⟨.enter, ?_⟩
    by_cases free : sh.bklogQLock - 1 = 0 <;>
      simp [Bklog.entries, BklogShared.stmt, DecTest.step, free, List.countP_cons, BklogPc.holds, BklogPc.refused]
  | incLock =>
    refine .inr ⟨.retreat, ?_⟩
    simp [Bklog.entries, BklogShared.stmt, DecTest.step, List.countP_cons, BklogPc.holds, BklogPc.refused]
  | unlock =>
    refine .inr ⟨.leave, ?_⟩
    simp [Bklog.entries, BklogShared.stmt, DecTest.step, List.countP_cons, BklogPc.holds, BklogPc.refused]
  | loop curr next =>
    refine .inl ?_
    cases curr with
    | none => rfl
    | some e => cases room <;> rfl
  | listEmpty m =>
    refine .inl ?_
    simp only [BklogShared.stmt]
    split <;> rfl
  | dataSend2 m | mbxSend m => cases room <;> exact .inl rfl
  | listAddTail | incPkts | forEach | listDel | decPkts | advance | returned => exact .inl rfl

theorem entries_perm {s t : Bklog} (shared : s.shared = t.shared) (perm : s.contexts.Perm t.contexts) :
    s.entries = t.entries := by
  unfold Bklog.entries
  rw [shared, perm.countP_eq, perm.countP_eq]

theorem backlog_follows : DecTest.Follows Bklog.step Bklog.entries := by
  intro s e
  cases e with
  | send | sendOther =>
    refine .inl ?_
    simp [Bklog.entries, Bklog.step, List.countP_append, BklogPc.holds, BklogPc.refused]
  | flush =>
    refine .inl ?_
    simp only [Bklog.step]
    split
    · simp [Bklog.entries, List.countP_append, BklogPc.holds, BklogPc.refused]
    · rfl
  | stmt i room =>
    simp only [Bklog.step]
    split
    · exact .inl rfl
    · rename_i pc present
      obtain ⟨whole, replaced⟩ := contexts_cases present
      have before : s.entries = Bklog.entries ⟨s.shared, pc :: s.contexts.eraseIdx i, s.sends⟩ :=
        entries_perm rfl whole.symm
      have after := @entries_perm ⟨(s.shared.stmt room pc).1, s.contexts.set i (s.shared.stmt room pc).2, s.sends⟩
        ⟨_, _ :: s.contexts.eraseIdx i, s.sends⟩ rfl (replaced _).symm
      rw [before, after]
      exact stmt_entries s.shared room pc _ s.sends

/-! ### Runs -/

/-- The counter is 1 less the calls inside and those that turn back, at most one is inside, a refused call
increments the counter and is done, and the counter of an idle section is 1. -/
structure MpsBuffers.UpkeepExclusive (s : MpsBuffers) : Prop where
  counted : s.mpsListBookKeep = 1 - s.inside.length - s.refused
  single : s.inside.length ≤ 1
  restored : s.refused ≠ 0 → (s.step .retreat).mpsListBookKeep = s.mpsListBookKeep + 1 ∧
    (s.step .retreat).refused = s.refused - 1 ∧ (s.step .retreat).inside = s.inside
  idle : s.inside = [] → s.refused = 0 → s.mpsListBookKeep = 1
  /-- The next test in an `int`, which holds the counter as long as there are fewer than 2^32 calls at a time. -/
  word : s.inside.length + s.refused < 2 ^ 32 →
    (BitVec.ofInt 32 (s.mpsListBookKeep - 1) = 0 ↔ s.mpsListBookKeep - 1 = 0)

structure Bklog.WalkExclusive (s : Bklog) : Prop where
  counted : s.shared.bklogQLock = 1 - s.contexts.countP BklogPc.holds - s.contexts.countP BklogPc.refused
  single : s.contexts.countP BklogPc.holds ≤ 1
  restored : ∀ i room, s.contexts[i]? = some .incLock →
    (s.step (.stmt i room)).shared.bklogQLock = s.shared.bklogQLock + 1 ∧
      (s.step (.stmt i room)).contexts = s.contexts.set i .returned
  idle : (∀ pc ∈ s.contexts, pc.holds = false ∧ pc.refused = false) → s.shared.bklogQLock = 1
  word : s.contexts.countP BklogPc.holds + s.contexts.countP BklogPc.refused < 2 ^ 32 →
    (BitVec.ofInt 32 (s.shared.bklogQLock - 1) = 0 ↔ s.shared.bklogQLock - 1 = 0)

theorem upkeep_exclusive {s : MpsBuffers} (exclusive : s.entries.Exclusive) : s.UpkeepExclusive := by
  refine ⟨exclusive.counted, exclusive.single, ?_, ?_, exclusive.word_test⟩
  · intro refused
    simp [MpsBuffers.step, refused]
  · intro inside refused
    exact exclusive.idle (by rw [MpsBuffers.entries, inside]; rfl) refused

theorem walk_exclusive {s : Bklog} (exclusive : s.entries.Exclusive) : s.WalkExclusive := by
  refine ⟨exclusive.counted, exclusive.single, ?_, ?_, exclusive.word_test⟩
  · intro i room present
    simp [Bklog.step, present, BklogShared.stmt]
  · intro quiet
    apply exclusive.idle
    · exact List.countP_eq_zero.mpr fun pc member => by simp [(quiet pc member).1]
    · exact List.countP_eq_zero.mpr fun pc member => by simp [(quiet pc member).2]

theorem entry_counters_exclusive {pools : MpsBuffers} (start : pools.entries = {}) (events : List PoolEvent)
    (bklogEvents : List BklogEvent) :
    (exec MpsBuffers.step pools events).UpkeepExclusive ∧ (exec Bklog.step {} bklogEvents).WalkExclusive := by
  constructor
  · apply upkeep_exclusive
    exact pools_follow.exclusive (by rw [start]; exact DecTest.exclusive_start) events
  · apply walk_exclusive
    exact backlog_follows.exclusive (s := {}) DecTest.exclusive_start bklogEvents

/-- Two top-ups at a time, the second of which is refused, and two walks through the backlog. -/
theorem second_topup_refused :
    (exec MpsBuffers.step samplePools [.enterTopup .cpu0 10, .enterTopup .cpu0 10]).UpkeepExclusive ∧
      (exec Bklog.step {} [.send, .stmt 0 true, .stmt 0 false, .stmt 0 true, .flush, .flush]).WalkExclusive :=
  entry_counters_exclusive rfl _ _

end TwinpassGateway.Mps
