import TwinpassGateway.Foundation.Run

/-!
The flow control of data messages, statement by statement: send calls and flushes of several contexts that interrupt
each other, on one backlog and one mailbox FIFO. A message is the number of the call that sends it.
-/

namespace TwinpassGateway.Mps

open Foundation

/-- The next statement of a context in `ifx_mps_data_send`, in `ifx_mps_data_enqueue` or in
`ifx_mps_send_from_bklog_q`. A list element is its message, the head of the list is `none`. -/
inductive BklogPc where
  | listEmpty (m : Nat)
  | dataSend2 (m : Nat)
  | listAddTail (m : Nat)
  /-- `ifx_mps_datalist_send` or `ifx_mps_app_message_send`, which use the same mailbox. -/
  | mbxSend (m : Nat)
  | incPkts
  | decAndTest
  /-- The lock was taken. -/
  | incLock
  | forEach
  | loop (curr next : Option Nat)
  | listDel (curr : Nat) (next : Option Nat)
  | decPkts (next : Option Nat)
  | advance (next : Option Nat)
  | unlock
  | returned
  deriving DecidableEq

def BklogPc.holds : BklogPc → Bool
  | .forEach | .loop .. | .listDel .. | .decPkts _ | .advance _ | .unlock => true
  | _ => false

def BklogPc.refused : BklogPc → Bool
  | .incLock => true
  | _ => false

def BklogPc.message : BklogPc → Option Nat
  | .listEmpty m | .dataSend2 m | .listAddTail m | .mbxSend m => some m
  | _ => none

def BklogPc.bypasses : BklogPc → Bool
  | .dataSend2 _ | .mbxSend _ => true
  | _ => false

structure BklogShared where
  bklogMpsDataList : List Nat := []
  bklogPkts : Int := 0
  bklogQLock : Int := 1
  /-- The messages that have reached the mailbox FIFO. -/
  fifo : List Nat := []
  /-- The messages that have been put into the FIFO or into the backlog, in that order. -/
  accepted : List Nat := []
  /-- The messages that the FIFO has refused without a backlog; `ifx_mps_app_message_send` reports success all the same. -/
  rejected : List Nat := []

/-- `->next` of an element, or of the head. -/
def listNext (elems : List Nat) : Option Nat → Option Nat
  | none => elems.head?
  | some e => (elems.dropWhile (· ≠ e)).tail.head?

/-- One statement; `room` is whether the FIFO takes a message, and `kmalloc` succeeds. -/
def BklogShared.stmt (s : BklogShared) (room : Bool) : BklogPc → BklogShared × BklogPc
  | .listEmpty m => (s, if s.bklogMpsDataList.isEmpty then .dataSend2 m else .listAddTail m)
  | .dataSend2 m =>
    if room then ({ s with fifo := s.fifo ++ [m], accepted := s.accepted ++ [m] }, .returned)
    else (s, .listAddTail m)
  | .listAddTail m =>
    ({ s with bklogMpsDataList := s.bklogMpsDataList ++ [m], accepted := s.accepted ++ [m] }, .incPkts)
  | .mbxSend m =>
    if room then ({ s with fifo := s.fifo ++ [m], accepted := s.accepted ++ [m] }, .returned)
    else ({ s with rejected := s.rejected ++ [m] }, .returned)
  | .incPkts => ({ s with bklogPkts := s.bklogPkts + 1 }, .decAndTest)
  | .decAndTest =>
    ({ s with bklogQLock := s.bklogQLock - 1 }, if s.bklogQLock - 1 = 0 then .forEach else .incLock)
  | .incLock => ({ s with bklogQLock := s.bklogQLock + 1 }, .returned)
  | .forEach =>
    let curr := listNext s.bklogMpsDataList none
    (s, .loop curr (listNext s.bklogMpsDataList curr))
  | .loop none _ => (s, .unlock)
  | .loop (some curr) next =>
    if room then ({ s with fifo := s.fifo ++ [curr] }, .listDel curr next) else (s, .unlock)
  | .listDel curr next => ({ s with bklogMpsDataList := s.bklogMpsDataList.erase curr }, .decPkts next)
  | .decPkts next => ({ s with bklogPkts := s.bklogPkts - 1 }, .advance next)
  | .advance next => (s, .loop next (listNext s.bklogMpsDataList next))
  | .unlock => ({ s with bklogQLock := s.bklogQLock + 1 }, .returned)
  | .returned => (s, .returned)

structure Bklog where
  shared : BklogShared := {}
  contexts : List BklogPc := []
  /-- How many send calls there have been. -/
  sends : Nat := 0

inductive BklogEvent where
  /-- `ifx_mps_data_send`. -/
  | send
  /-- One of the other two. -/
  | sendOther
  /-- `flush_bklog_q` or the timer. -/
  | flush
  | stmt (i : Nat) (room : Bool)

def Bklog.step (s : Bklog) : BklogEvent → Bklog
  | .send => { s with contexts := s.contexts ++ [.listEmpty s.sends], sends := s.sends + 1 }
  | .sendOther => { s with contexts := s.contexts ++ [.mbxSend s.sends], sends := s.sends + 1 }
  | .flush => if s.shared.bklogPkts ≠ 0 then { s with contexts := s.contexts ++ [.decAndTest] } else s
  | .stmt i room =>
    match s.contexts[i]? with
    | none => s
    | some pc =>
      let (shared, pc) := s.shared.stmt room pc
      { s with shared, contexts := s.contexts.set i pc }

/-! ### Order -/

def BklogShared.waiting (s : BklogShared) : List Nat := s.bklogMpsDataList.filter (· ∉ s.fifo)

/-- The FIFO got the accepted messages in their order, once each, as far as they do not wait; and a message is
accepted unless it has been refused or its call is still about to place it. -/
structure Bklog.InOrder (s : Bklog) : Prop where
  once : s.shared.accepted.Nodup
  order : s.shared.accepted = s.shared.fifo ++ s.shared.waiting
  kept : (s.shared.accepted ++ s.shared.rejected ++ s.contexts.filterMap BklogPc.message).Perm (List.range s.sends)

/-- A message that is sent without the backlog finds nothing waiting there. -/
def Bklog.Fair (s : Bklog) : BklogEvent → Prop
  | .stmt i true => ∀ pc, s.contexts[i]? = some pc → pc.bypasses = true → s.shared.waiting = []
  | _ => True

/-! ### What a context knows -/

/-- The element at hand is the first of the list, and the one after it the next of the list. -/
def BklogPc.At (s : BklogShared) : BklogPc → Prop
  | .loop (some curr) next =>
    s.bklogMpsDataList.head? = some curr ∧ ∀ e, next = some e → s.bklogMpsDataList.tail.head? = some e
  | .listDel curr next =>
    s.bklogMpsDataList.head? = some curr ∧ (∀ e, next = some e → s.bklogMpsDataList.tail.head? = some e) ∧
      curr ∈ s.fifo
  | .decPkts next | .advance next => ∀ e, next = some e → s.bklogMpsDataList.head? = some e
  | _ => True

/-- At most one context has the lock, and only that one can have sent an element that is still listed. -/
structure Bklog.Sound (s : Bklog) : Prop extends s.InOrder where
  lock : s.shared.bklogQLock + s.contexts.countP BklogPc.holds + s.contexts.countP BklogPc.refused = 1
  single : s.contexts.countP BklogPc.holds ≤ 1
  places : ∀ pc ∈ s.contexts, pc.At s.shared
  sent : ∀ e ∈ s.shared.bklogMpsDataList, e ∈ s.shared.fifo → ∃ next, .listDel e next ∈ s.contexts
  listed : s.shared.bklogMpsDataList.Nodup

variable {sh sh' : BklogShared} {pc pc' : BklogPc} {rest pcs : List BklogPc} {n : Nat}

theorem at_of_idle (idle : pc.holds = false) : pc.At sh := by
  cases pc with
  | loop curr next => cases curr <;> exact Bool.noConfusion idle
  | listDel | decPkts | advance => exact Bool.noConfusion idle
  | _ => trivial

theorem head_append {elems xs : List Nat} {e : Nat} (first : elems.head? = some e) :
    (elems ++ xs).head? = some e := by
  rw [List.head?_append, first]
  rfl

/-- New elements at the end and new messages in the FIFO change nothing for a context in the loop. -/
theorem at_mono (known : pc.At sh) (elems : ∃ xs, sh'.bklogMpsDataList = sh.bklogMpsDataList ++ xs)
    (fifo : sh.fifo ⊆ sh'.fifo) : pc.At sh' := by
  obtain ⟨xs, elems⟩ := elems
  have second {curr : Nat} {e : Nat} (first : sh.bklogMpsDataList.head? = some curr)
      (next : sh.bklogMpsDataList.tail.head? = some e) : (sh.bklogMpsDataList ++ xs).tail.head? = some e := by
    have some : sh.bklogMpsDataList ≠ [] := by
      intro none
      rw [none] at first
      cases first
    rw [List.tail_append_of_ne_nil some]
    exact head_append next
  cases pc with
  | loop curr next =>
    cases curr with
    | none => trivial
    | some curr =>
      obtain ⟨first, following⟩ := known
      rw [BklogPc.At, elems]
      exact ⟨head_append first, fun e same => second first (following e same)⟩
  | listDel curr next =>
    obtain ⟨first, following, sent⟩ := known
    rw [BklogPc.At, elems]
    exact ⟨head_append first, fun e same => second first (following e same), fifo sent⟩
  | decPkts next | advance next =>
    rw [BklogPc.At, elems]
    exact fun e same => head_append (known e same)
  | _ => trivial

namespace Bklog.Sound

theorem perm (sound : Bklog.Sound ⟨sh, rest, n⟩) (perm : rest.Perm pcs) : Bklog.Sound ⟨sh, pcs, n⟩ := by
  obtain ⟨⟨once, order, kept⟩, lock, single, places, sent, listed⟩ := sound
  refine ⟨⟨once, order, ?_⟩, ?_, ?_, fun pc member => places pc (perm.mem_iff.mpr member), fun e old done => ?_, listed⟩
  · exact ((perm.filterMap _).append_left _).symm.trans kept
  · rw [← perm.countP_eq, ← perm.countP_eq]
    exact lock
  · rw [← perm.countP_eq]
    exact single
  · obtain ⟨next, member⟩ := sent e old done
    exact ⟨next, perm.mem_iff.mp member⟩

theorem alone (sound : Bklog.Sound ⟨sh, pc :: rest, n⟩) (mine : pc.holds = true) : rest.countP BklogPc.holds = 0 := by
  have single := sound.single
  simp only [List.countP_cons, mine, if_true] at single
  omega

theorem idle (sound : Bklog.Sound ⟨sh, pc :: rest, n⟩) (mine : pc.holds = true) :
    ∀ pc' ∈ rest, pc'.holds = false := by
  intro pc' member
  have none := List.countP_eq_zero.mp (sound.alone mine) pc' member
  exact Bool.not_eq_true _ |>.mp none

theorem fresh (sound : Bklog.Sound ⟨sh, pc :: rest, n⟩) {m : Nat} (own : pc.message = some m) : m ∉ sh.accepted := by
  have once := sound.kept.nodup_iff.mpr List.nodup_range
  rw [List.filterMap_cons_some own] at once
  exact fun member => List.disjoint_of_nodup_append once (List.mem_append_left _ member) List.mem_cons_self

theorem listed_accepted (sound : Bklog.Sound ⟨sh, pcs, n⟩) {e : Nat} (member : e ∈ sh.bklogMpsDataList) :
    e ∈ sh.accepted := by
  have order : sh.accepted = sh.fifo ++ sh.waiting := sound.order
  rw [order]
  by_cases sent : e ∈ sh.fifo
  · exact List.mem_append_left _ sent
  · exact List.mem_append_right _ (List.mem_filter.mpr ⟨member, by simpa using sent⟩)

theorem frame (sound : Bklog.Sound ⟨sh, pc :: rest, n⟩) (elems : sh'.bklogMpsDataList = sh.bklogMpsDataList)
    (fifo : sh'.fifo = sh.fifo) (accepted : sh'.accepted = sh.accepted) (rejected : sh'.rejected = sh.rejected)
    (message : pc'.message = pc.message)
    (listed : ∀ e next, pc ≠ .listDel e next)
    (lock : sh'.bklogQLock + (if pc'.holds then 1 else 0) + (if pc'.refused then 1 else 0) =
      sh.bklogQLock + (if pc.holds then 1 else 0) + (if pc.refused then 1 else 0))
    (single : pc'.holds = true → rest.countP BklogPc.holds = 0) (place : pc'.At sh') :
    Bklog.Sound ⟨sh', pc' :: rest, n⟩ := by
  obtain ⟨⟨once, order, kept⟩, locked, one, places, sent, nodup⟩ := sound
  have waiting : sh'.waiting = sh.waiting := by
    rw [BklogShared.waiting, elems, fifo, BklogShared.waiting]
  have pending : (pc' :: rest).filterMap BklogPc.message = (pc :: rest).filterMap BklogPc.message := by
    rw [List.filterMap_cons, List.filterMap_cons, message]
  refine ⟨⟨?_, ?_, ?_⟩, ?_, ?_, ?_, ?_, ?_⟩
  · rw [accepted]
    exact once
  · rw [accepted, fifo, waiting]
    exact order
  · rw [accepted, rejected, pending]
    exact kept
  · simp only [List.countP_cons, Nat.cast_add, Nat.cast_ite, Nat.cast_one, Nat.cast_zero] at locked ⊢
    omega
  · rw [List.countP_cons]
    split
    · rename_i mine
      rw [single mine]
    · rw [List.countP_cons] at one
      omega
  · intro pc'' member
    rcases List.mem_cons.mp member with rfl | other
    · exact place
    · refine at_mono (places pc'' (List.mem_cons_of_mem _ other)) ⟨[], by rw [elems, List.append_nil]⟩ ?_
      rw [fifo]
      exact List.Subset.refl _
  · intro e old done
    rw [elems] at old
    rw [fifo] at done
    obtain ⟨next, member⟩ := sent e old done
    rcases List.mem_cons.mp member with here | other
    · exact absurd here.symm (listed e next)
    · exact ⟨next, List.mem_cons_of_mem _ other⟩
  · rw [elems]
    exact nodup

end Bklog.Sound

/-! ### The statements that move a message -/

theorem waiting_sent_other {m : Nat} (absent : m ∉ sh.bklogMpsDataList) (accepted : List Nat) :
    BklogShared.waiting { sh with fifo := sh.fifo ++ [m], accepted } = sh.waiting := by
  apply List.filter_congr
  intro e member
  have other : e ≠ m := by
    rintro rfl
    exact absent member
  simp [other]

theorem waiting_add {m : Nat} (unsent : m ∉ sh.fifo) (accepted : List Nat) :
    BklogShared.waiting { sh with bklogMpsDataList := sh.bklogMpsDataList ++ [m], accepted } = sh.waiting ++ [m] := by
  show (sh.bklogMpsDataList ++ [m]).filter (· ∉ sh.fifo) = _
  rw [List.filter_append, List.filter_singleton, decide_eq_true unsent]
  rfl

theorem idle_of_message {m : Nat} (own : pc.message = some m) : pc.holds = false ∧ pc.refused = false := by
  cases pc with
  | listEmpty | dataSend2 | listAddTail | mbxSend => exact ⟨rfl, rfl⟩
  | _ => cases own

theorem kept_placed {m : Nat} {accepted rejected placed : List Nat} (own : pc.message = some m)
    (done : pc'.message = none) (more : placed.Perm (accepted ++ rejected ++ [m]))
    (kept : (accepted ++ rejected ++ (pc :: rest).filterMap BklogPc.message).Perm (List.range n)) :
    (placed ++ (pc' :: rest).filterMap BklogPc.message).Perm (List.range n) := by
  rw [List.filterMap_cons_none done]
  rw [List.filterMap_cons_some own] at kept
  refine (more.append_right _).trans ?_
  rw [List.append_assoc, List.singleton_append]
  exact kept

namespace Bklog.Sound

variable {m : Nat}

theorem fresh_not_sent (sound : Bklog.Sound ⟨sh, pc :: rest, n⟩) (own : pc.message = some m) : m ∉ sh.fifo := by
  have order : sh.accepted = sh.fifo ++ sh.waiting := sound.order
  intro member
  exact sound.fresh own (by rw [order]; exact List.mem_append_left _ member)

theorem fresh_not_listed (sound : Bklog.Sound ⟨sh, pc :: rest, n⟩) (own : pc.message = some m) :
    m ∉ sh.bklogMpsDataList :=
  fun member => sound.fresh own (sound.listed_accepted member)

theorem once_placed (sound : Bklog.Sound ⟨sh, pc :: rest, n⟩) (own : pc.message = some m) :
    (sh.accepted ++ [m]).Nodup := by
  rw [List.nodup_append]
  refine ⟨sound.once, List.nodup_singleton m, fun e old e' new same => ?_⟩
  have here : e = m := same.trans (List.mem_singleton.mp new)
  rw [here] at old
  exact sound.fresh own old

/-- The other contexts keep what they know when a message has been placed or refused. -/
theorem leave (sound : Bklog.Sound ⟨sh, pc :: rest, n⟩) (own : pc.message = some m)
    (elems : ∃ xs, sh'.bklogMpsDataList = sh.bklogMpsDataList ++ xs) (fifo : sh.fifo ⊆ sh'.fifo)
    (lock : sh'.bklogQLock = sh.bklogQLock) (busy : pc'.holds = false ∧ pc'.refused = false)
    (order : Bklog.InOrder ⟨sh', pc' :: rest, n⟩)
    (new : ∀ e ∈ sh'.bklogMpsDataList, e ∈ sh'.fifo → e ∈ sh.bklogMpsDataList ∧ e ∈ sh.fifo)
    (listed : sh'.bklogMpsDataList.Nodup) : Bklog.Sound ⟨sh', pc' :: rest, n⟩ := by
  obtain ⟨free, unrefused⟩ := idle_of_message own
  refine ⟨order, ?_, ?_, ?_, ?_, listed⟩
  · have before := sound.lock
    simp only [List.countP_cons, free, unrefused, busy.1, busy.2, lock] at before ⊢
    exact before
  · have before := sound.single
    simp only [List.countP_cons, free, busy.1] at before ⊢
    exact before
  · intro pc'' member
    rcases List.mem_cons.mp member with rfl | other
    · exact at_of_idle busy.1
    · exact at_mono (sound.places pc'' (List.mem_cons_of_mem _ other)) elems fifo
  · intro e old done
    obtain ⟨old, done⟩ := new e old done
    obtain ⟨next, member⟩ := sound.sent e old done
    rcases List.mem_cons.mp member with here | other
    · rw [← here] at own
      cases own
    · exact ⟨next, List.mem_cons_of_mem _ other⟩

theorem direct (sound : Bklog.Sound ⟨sh, pc :: rest, n⟩) (own : pc.message = some m) (empty : sh.waiting = []) :
    Bklog.Sound ⟨{ sh with fifo := sh.fifo ++ [m], accepted := sh.accepted ++ [m] }, .returned :: rest, n⟩ := by
  have absent := sound.fresh_not_listed own
  refine sound.leave own ⟨[], (List.append_nil _).symm⟩ (List.subset_append_left _ _) rfl ⟨rfl, rfl⟩ ?_ ?_ sound.listed
  · refine ⟨sound.once_placed own, ?_, kept_placed own rfl ?_ sound.kept⟩
    · have order : sh.accepted = sh.fifo ++ sh.waiting := sound.order
      show sh.accepted ++ [m] = sh.fifo ++ [m] ++ _
      rw [waiting_sent_other absent, order, empty, List.append_nil, List.append_nil]
    · show (sh.accepted ++ [m] ++ sh.rejected).Perm _
      rw [List.append_assoc, List.append_assoc]
      exact List.perm_append_comm.append_left _
  · intro e old done
    rcases List.mem_append.mp done with before | now
    · exact ⟨old, before⟩
    · obtain rfl := List.mem_singleton.mp now
      exact absurd old absent

theorem reject (sound : Bklog.Sound ⟨sh, pc :: rest, n⟩) (own : pc.message = some m) :
    Bklog.Sound ⟨{ sh with rejected := sh.rejected ++ [m] }, .returned :: rest, n⟩ := by
  refine sound.leave own ⟨[], (List.append_nil _).symm⟩ (List.Subset.refl _) rfl ⟨rfl, rfl⟩ ?_
    (fun _ old done => ⟨old, done⟩) sound.listed
  refine ⟨sound.once, sound.order, kept_placed own rfl ?_ sound.kept⟩
  show (sh.accepted ++ (sh.rejected ++ [m])).Perm _
  rw [List.append_assoc]

theorem add (sound : Bklog.Sound ⟨sh, .listAddTail m :: rest, n⟩) :
    Bklog.Sound ⟨{ sh with
      bklogMpsDataList := sh.bklogMpsDataList ++ [m], accepted := sh.accepted ++ [m] }, .incPkts :: rest, n⟩ := by
  have absent := sound.fresh_not_listed rfl
  have unsent := sound.fresh_not_sent rfl
  refine sound.leave rfl ⟨[m], rfl⟩ (List.Subset.refl _) rfl ⟨rfl, rfl⟩ ?_ ?_ ?_
  · refine ⟨sound.once_placed rfl, ?_, kept_placed rfl rfl ?_ sound.kept⟩
    · have order : sh.accepted = sh.fifo ++ sh.waiting := sound.order
      show sh.accepted ++ [m] = sh.fifo ++ _
      rw [waiting_add unsent, order, List.append_assoc]
    · show (sh.accepted ++ [m] ++ sh.rejected).Perm _
      rw [List.append_assoc, List.append_assoc]
      exact List.perm_append_comm.append_left _
  · intro e old done
    rcases List.mem_append.mp old with before | now
    · exact ⟨before, done⟩
    · obtain rfl := List.mem_singleton.mp now
      exact absurd done unsent
  · rw [List.nodup_append]
    refine ⟨sound.listed, List.nodup_singleton m, fun e old e' new same => ?_⟩
    have here : e = m := same.trans (List.mem_singleton.mp new)
    rw [here] at old
    exact absent old

theorem curr_unsent {curr : Nat} {next : Option Nat} (sound : Bklog.Sound ⟨sh, .loop (some curr) next :: rest, n⟩) :
    curr ∉ sh.fifo := by
  intro done
  obtain ⟨first, _⟩ := sound.places _ List.mem_cons_self
  obtain ⟨next', member⟩ := sound.sent curr (List.mem_of_mem_head? first) done
  rcases List.mem_cons.mp member with here | other
  · cases here
  · exact Bool.noConfusion (sound.idle rfl _ other)

theorem sendCurr {curr : Nat} {next : Option Nat} (sound : Bklog.Sound ⟨sh, .loop (some curr) next :: rest, n⟩) :
    Bklog.Sound ⟨{ sh with fifo := sh.fifo ++ [curr] }, .listDel curr next :: rest, n⟩ := by
  have unsent := sound.curr_unsent
  have idle := sound.idle rfl
  obtain ⟨⟨once, order, kept⟩, lock, single, places, sent, listed⟩ := sound
  obtain ⟨first, following⟩ := places _ List.mem_cons_self
  obtain ⟨tail, whole⟩ := List.head?_eq_some_iff.mp first
  refine ⟨⟨once, ?_, kept⟩, lock, single, ?_, ?_, listed⟩
  · have absent : curr ∉ tail := by
      have listed : sh.bklogMpsDataList.Nodup := listed
      rw [whole] at listed
      exact (List.nodup_cons.mp listed).1
    have order : sh.accepted = sh.fifo ++ sh.waiting := order
    have before : sh.waiting = curr :: tail.filter (· ∉ sh.fifo) := by
      rw [BklogShared.waiting, whole, List.filter_cons_of_pos (by simpa using unsent)]
    have after : BklogShared.waiting { sh with fifo := sh.fifo ++ [curr] } = tail.filter (· ∉ sh.fifo) := by
      show sh.bklogMpsDataList.filter (· ∉ sh.fifo ++ [curr]) = _
      rw [whole, List.filter_cons_of_neg (by simp)]
      apply List.filter_congr
      intro e member
      have other : e ≠ curr := by
        rintro rfl
        exact absent member
      simp [other]
    show sh.accepted = sh.fifo ++ [curr] ++ _
    rw [after, order, before, List.append_assoc, List.singleton_append]
  · intro pc' member
    rcases List.mem_cons.mp member with rfl | other
    · exact ⟨first, following, List.mem_append_right _ List.mem_cons_self⟩
    · exact at_of_idle (idle pc' other)
  · intro e old done
    rcases List.mem_append.mp done with before | now
    · obtain ⟨next', member⟩ := sent e old before
      rcases List.mem_cons.mp member with here | other
      · cases here
      · exact Bool.noConfusion (idle _ other)
    · obtain rfl := List.mem_singleton.mp now
      exact ⟨next, List.mem_cons_self⟩

theorem delete {curr : Nat} {next : Option Nat} (sound : Bklog.Sound ⟨sh, .listDel curr next :: rest, n⟩) :
    Bklog.Sound ⟨{ sh with bklogMpsDataList := sh.bklogMpsDataList.erase curr }, .decPkts next :: rest, n⟩ := by
  have idle := sound.idle rfl
  obtain ⟨⟨once, order, kept⟩, lock, single, places, sent, listed⟩ := sound
  obtain ⟨first, following, done⟩ := places _ List.mem_cons_self
  obtain ⟨tail, whole⟩ := List.head?_eq_some_iff.mp first
  have shorter : sh.bklogMpsDataList.erase curr = tail := by
    rw [whole, List.erase_cons_head]
  have listed : (curr :: tail).Nodup := by
    rw [← whole]
    exact listed
  obtain ⟨absent, listed⟩ := List.nodup_cons.mp listed
  rw [shorter]
  refine ⟨⟨once, ?_, kept⟩, lock, single, ?_, ?_, listed⟩
  · have order : sh.accepted = sh.fifo ++ sh.waiting := order
    have same : sh.waiting = tail.filter (· ∉ sh.fifo) := by
      rw [BklogShared.waiting, whole, List.filter_cons_of_neg (by simpa using done)]
    rw [same] at order
    exact order
  · intro pc' member
    rcases List.mem_cons.mp member with rfl | other
    · intro e same
      have second := following e same
      rw [whole] at second
      exact second
    · exact at_of_idle (idle pc' other)
  · intro e old gone
    have older : e ∈ sh.bklogMpsDataList := by
      rw [whole]
      exact List.mem_cons_of_mem _ old
    obtain ⟨next', member⟩ := sent e older gone
    rcases List.mem_cons.mp member with here | other
    · cases here
      exact absurd old absent
    · exact Bool.noConfusion (idle _ other)

end Bklog.Sound

/-! ### Any statement -/

theorem listNext_first {elems : List Nat} {e : Nat} (first : elems.head? = some e) :
    listNext elems (some e) = elems.tail.head? := by
  obtain ⟨tail, rfl⟩ := List.head?_eq_some_iff.mp first
  rw [listNext, List.dropWhile_cons_of_neg (by simp)]

/-- What `list_for_each_safe` knows at the start of a turn. -/
theorem at_loop {curr : Option Nat} (first : ∀ e, curr = some e → sh.bklogMpsDataList.head? = some e) :
    (BklogPc.loop curr (listNext sh.bklogMpsDataList curr)).At sh := by
  cases curr with
  | none => trivial
  | some e =>
    refine ⟨first e rfl, fun e' second => ?_⟩
    rw [← second, listNext_first (first e rfl)]

theorem stmt_sound (sound : Bklog.Sound ⟨sh, pc :: rest, n⟩) (room : Bool)
    (fair : room = true → pc.bypasses = true → sh.waiting = []) :
    Bklog.Sound ⟨(sh.stmt room pc).1, (sh.stmt room pc).2 :: rest, n⟩ := by
  cases pc with
  | listEmpty m =>
    by_cases empty : sh.bklogMpsDataList.isEmpty = true
    · rw [BklogShared.stmt, if_pos empty]
      exact sound.frame rfl rfl rfl rfl rfl nofun rfl nofun trivial
    · rw [BklogShared.stmt, if_neg empty]
      exact sound.frame rfl rfl rfl rfl rfl nofun rfl nofun trivial
  | dataSend2 m =>
    cases room with
    | true => exact sound.direct rfl (fair rfl rfl)
    | false => exact sound.frame rfl rfl rfl rfl rfl nofun rfl nofun trivial
  | mbxSend m =>
    cases room with
    | true => exact sound.direct rfl (fair rfl rfl)
    | false => exact sound.reject rfl
  | listAddTail m => exact sound.add
  | incPkts => exact sound.frame rfl rfl rfl rfl rfl nofun rfl nofun trivial
  | decAndTest =>
    have lock : sh.bklogQLock + _ + _ = (1 : Int) := sound.lock
    rw [List.countP_cons_of_neg (show ¬ BklogPc.holds .decAndTest = true by decide)] at lock
    by_cases free : sh.bklogQLock - 1 = 0
    · rw [BklogShared.stmt, if_pos free]
      refine sound.frame rfl rfl rfl rfl rfl nofun ?_ (fun _ => by omega) trivial
      show sh.bklogQLock - 1 + 1 + 0 = sh.bklogQLock + 0 + 0
      omega
    · rw [BklogShared.stmt, if_neg free]
      refine sound.frame rfl rfl rfl rfl rfl nofun ?_ nofun trivial
      show sh.bklogQLock - 1 + 0 + 1 = sh.bklogQLock + 0 + 0
      omega
  | incLock =>
    refine sound.frame rfl rfl rfl rfl rfl nofun ?_ nofun trivial
    show sh.bklogQLock + 1 + 0 + 0 = sh.bklogQLock + 0 + 1
    omega
  | forEach => exact sound.frame rfl rfl rfl rfl rfl nofun rfl (fun _ => sound.alone rfl) (at_loop fun _ first => first)
  | loop curr next =>
    cases curr with
    | none => exact sound.frame rfl rfl rfl rfl rfl nofun rfl (fun _ => sound.alone rfl) trivial
    | some curr =>
      cases room with
      | true => exact sound.sendCurr
      | false => exact sound.frame rfl rfl rfl rfl rfl nofun rfl (fun _ => sound.alone rfl) trivial
  | listDel curr next => exact sound.delete
  | decPkts next =>
    exact sound.frame rfl rfl rfl rfl rfl nofun rfl (fun _ => sound.alone rfl) (sound.places _ List.mem_cons_self)
  | advance next =>
    have first := sound.places _ List.mem_cons_self
    exact sound.frame rfl rfl rfl rfl rfl nofun rfl (fun _ => sound.alone rfl) (at_loop first)
  | unlock =>
    refine sound.frame rfl rfl rfl rfl rfl nofun ?_ nofun trivial
    show sh.bklogQLock + 1 + 0 + 0 = sh.bklogQLock + 1 + 0
    omega
  | returned => exact sound

theorem stmt_overtakes (sound : Bklog.Sound ⟨sh, pc :: rest, n⟩) (direct : pc.bypasses = true)
    (waits : sh.waiting ≠ []) :
    (sh.stmt true pc).1.accepted ≠ (sh.stmt true pc).1.fifo ++ (sh.stmt true pc).1.waiting := by
  obtain ⟨m, own, sent⟩ : ∃ m, pc.message = some m ∧
      (sh.stmt true pc).1 = { sh with fifo := sh.fifo ++ [m], accepted := sh.accepted ++ [m] } := by
    cases pc with
    | dataSend2 m | mbxSend m => exact ⟨m, rfl, rfl⟩
    | _ => cases direct
  have absent := sound.fresh_not_listed own
  have order : sh.accepted = sh.fifo ++ sh.waiting := sound.order
  obtain ⟨e, later, first⟩ := List.exists_cons_of_ne_nil waits
  rw [sent, waiting_sent_other absent, first]
  intro ordered
  have swapped : sh.accepted ++ [m] = sh.fifo ++ [m] ++ (e :: later) := ordered
  rw [order, first, List.append_assoc, List.append_assoc, List.append_cancel_left_eq, List.cons_append,
    List.singleton_append, List.cons_eq_cons] at swapped
  have member : e ∈ sh.waiting := by
    rw [first]
    exact List.mem_cons_self
  rw [swapped.1] at member
  exact absent (List.mem_filter.mp member).1

/-! ### Runs -/

theorem bklog_start_sound : Bklog.Sound {} :=
  ⟨⟨List.nodup_nil, rfl, List.Perm.refl _⟩, rfl, Nat.zero_le _, nofun, nofun, List.nodup_nil⟩

theorem Bklog.Sound.enter (sound : Bklog.Sound ⟨sh, pcs, n⟩) (new : pc.holds = false ∧ pc.refused = false)
    {n' : Nat} (kept : (sh.accepted ++ sh.rejected ++ (pc :: pcs).filterMap BklogPc.message).Perm (List.range n')) :
    Bklog.Sound ⟨sh, pcs ++ [pc], n'⟩ := by
  obtain ⟨⟨once, order, _⟩, lock, single, places, sent, listed⟩ := sound
  obtain ⟨free, unrefused⟩ := new
  have appended := (List.perm_append_singleton pc pcs).symm
  refine perm ⟨⟨once, order, kept⟩, ?_, ?_, ?_, ?_, listed⟩ appended
  · rw [List.countP_cons_of_neg (by simp [free]), List.countP_cons_of_neg (by simp [unrefused])]
    exact lock
  · rw [List.countP_cons_of_neg (by simp [free])]
    exact single
  · intro pc' member
    rcases List.mem_cons.mp member with rfl | old
    · exact at_of_idle free
    · exact places pc' old
  · intro e old done
    obtain ⟨next, member⟩ := sent e old done
    exact ⟨next, List.mem_cons_of_mem _ member⟩

theorem contexts_cases {s : Bklog} {i : Nat} (at' : s.contexts[i]? = some pc) :
    (pc :: s.contexts.eraseIdx i).Perm s.contexts ∧
      ∀ pc', (pc' :: s.contexts.eraseIdx i).Perm (s.contexts.set i pc') := by
  obtain ⟨below, rfl⟩ := List.getElem?_eq_some_iff.mp at'
  exact ⟨List.getElem_cons_eraseIdx_perm below, fun pc' => (List.set_perm_cons_eraseIdx below pc').symm⟩

theorem bklog_step_sound (s : Bklog) (e : BklogEvent) (sound : s.Sound) (fair : s.Fair e) : (s.step e).Sound := by
  have another {pc : BklogPc} (own : pc.message = some s.sends) : (s.shared.accepted ++ s.shared.rejected ++
      (pc :: s.contexts).filterMap BklogPc.message).Perm (List.range (s.sends + 1)) := by
    rw [List.filterMap_cons_some own, List.range_succ]
    refine List.perm_middle.trans ?_
    exact (sound.kept.cons _).trans (List.perm_append_singleton _ _).symm
  cases e with
  | send => exact sound.enter ⟨rfl, rfl⟩ (another rfl)
  | sendOther => exact sound.enter ⟨rfl, rfl⟩ (another rfl)
  | flush =>
    show (if s.shared.bklogPkts ≠ 0 then { s with contexts := s.contexts ++ [.decAndTest] } else s).Sound
    split
    · exact sound.enter ⟨rfl, rfl⟩ sound.kept
    · exact sound
  | stmt i room =>
    cases found : s.contexts[i]? with
    | none =>
      rw [Bklog.step, found]
      exact sound
    | some pc =>
      obtain ⟨before, after⟩ := contexts_cases found
      rw [Bklog.step, found]
      refine (stmt_sound (sound.perm before.symm) room fun ready bypasses => ?_).perm (after _)
      subst ready
      exact fair pc found bypasses

theorem bklog_spoiled (s : Bklog) (e : BklogEvent) (sound : s.Sound) (unfair : ¬ s.Fair e) : ¬ (s.step e).InOrder := by
  cases e with
  | stmt i room =>
    cases room with
    | false => exact absurd trivial unfair
    | true =>
      obtain ⟨pc, unfair⟩ := not_forall.mp unfair
      obtain ⟨found, unfair⟩ := Classical.not_imp.mp unfair
      obtain ⟨bypasses, waits⟩ := Classical.not_imp.mp unfair
      obtain ⟨before, _⟩ := contexts_cases found
      rw [Bklog.step, found]
      exact fun inOrder => stmt_overtakes (sound.perm before.symm) bypasses waits inOrder.order
  | _ => exact absurd trivial unfair

/-- The messages reach the FIFO in the order in which they were accepted, once each and without a loss, in every state
of a run, exactly when every message that is sent without the backlog finds none waiting there. -/
theorem backlog_in_order_iff (events : List BklogEvent) :
    (∀ before after, events = before ++ after → (exec Bklog.step {} before).InOrder) ↔
      Guarded Bklog.step Bklog.Fair {} events :=
  always_iff_guarded bklog_step_sound (fun _ sound => sound.toInOrder) bklog_spoiled bklog_start_sound

/-- A data message finds the FIFO full and goes to the backlog; then the FIFO has room for an application message. -/
def laterMessage : List BklogEvent :=
  [.send, .stmt 0 true, .stmt 0 false, .stmt 0 true, .stmt 0 true, .stmt 0 true, .stmt 0 true, .stmt 0 false,
    .stmt 0 true, .sendOther, .stmt 1 true]

/-- A send finds the backlog empty and is interrupted by another one, which finds the FIFO full and goes to the
backlog; then the FIFO has room again. -/
def interruptedSend : List BklogEvent :=
  [.send, .stmt 0 true, .send, .stmt 1 true, .stmt 1 false, .stmt 1 true, .stmt 1 true, .stmt 1 true, .stmt 1 true,
    .stmt 1 false, .stmt 1 true, .stmt 0 true]

theorem overtaken : (exec Bklog.step {} laterMessage).shared.accepted = [0, 1] ∧
      (exec Bklog.step {} laterMessage).shared.fifo = [1] ∧ ¬ (exec Bklog.step {} laterMessage).InOrder ∧
    (exec Bklog.step {} interruptedSend).shared.accepted = [1, 0] ∧
      (exec Bklog.step {} interruptedSend).shared.fifo = [0] ∧ ¬ (exec Bklog.step {} interruptedSend).InOrder := by
  refine ⟨by decide, by decide, fun inOrder => ?_, by decide, by decide, fun inOrder => ?_⟩
  · have order := inOrder.order
    revert order
    decide
  · have order := inOrder.order
    revert order
    decide

/-! ### One call at a time -/

/-- Only data messages are sent, and a call starts when the calls before it have returned. -/
def Bklog.Alone (s : Bklog) : BklogEvent → Prop
  | .send | .flush => ∀ pc ∈ s.contexts, pc = .returned
  | .sendOther => False
  | .stmt .. => True

/-- Only one call is under way, and the list is as empty as it found it. -/
structure Bklog.Solo (s : Bklog) : Prop where
  one : s.contexts.countP (· ≠ .returned) ≤ 1
  checked : ∀ pc ∈ s.contexts, pc.bypasses = true → s.shared.bklogMpsDataList = []

theorem solo_enter {s : Bklog} (quiet : ∀ pc ∈ s.contexts, pc = .returned) (pc : BklogPc) (n : Nat)
    (new : pc.bypasses = false) : Bklog.Solo ⟨s.shared, s.contexts ++ [pc], n⟩ := by
  have none : s.contexts.countP (· ≠ .returned) = 0 := by
    rw [List.countP_eq_zero]
    intro pc' member
    simp [quiet pc' member]
  refine ⟨?_, fun pc' member bypasses => ?_⟩
  · have last : [pc].countP (· ≠ .returned) ≤ 1 := List.countP_le_length
    rw [List.countP_append, none]
    omega
  · rcases List.mem_append.mp member with old | now
    · rw [quiet pc' old] at bypasses
      cases bypasses
    · rw [List.mem_singleton.mp now, new] at bypasses
      cases bypasses

theorem stmt_bypasses {room : Bool} (next : (sh.stmt room pc).2.bypasses = true) :
    (sh.stmt room pc).1.bklogMpsDataList = [] := by
  cases pc with
  | listEmpty m =>
    rw [BklogShared.stmt] at next
    split at next
    · rename_i empty
      exact List.isEmpty_iff.mp empty
    · cases next
  | loop curr next' =>
    cases curr with
    | none => cases next
    | some curr => cases room <;> cases next
  | dataSend2 | mbxSend => cases room <;> cases next
  | decAndTest =>
    rw [BklogShared.stmt] at next
    split at next <;> cases next
  | _ => cases next

theorem solo_step (s : Bklog) (e : BklogEvent) (solo : s.Solo) (alone : s.Alone e) : (s.step e).Solo := by
  cases e with
  | send => exact solo_enter alone _ _ rfl
  | sendOther => exact absurd alone id
  | flush =>
    show (if s.shared.bklogPkts ≠ 0 then { s with contexts := s.contexts ++ [.decAndTest] } else s).Solo
    split
    · exact solo_enter alone _ _ rfl
    · exact solo
  | stmt i room =>
    cases found : s.contexts[i]? with
    | none =>
      rw [Bklog.step, found]
      exact solo
    | some pc =>
      obtain ⟨before, after⟩ := contexts_cases found
      have one := solo.one
      rw [← before.countP_eq, List.countP_cons] at one
      rw [Bklog.step, found]
      by_cases done : pc = .returned
      · subst done
        obtain ⟨below, here⟩ := List.getElem?_eq_some_iff.mp found
        have same : s.contexts.set i .returned = s.contexts := by
          rw [← here, List.set_getElem_self]
        show Bklog.Solo ⟨s.shared, s.contexts.set i .returned, s.sends⟩
        rw [same]
        exact solo
      · rw [if_pos (by simpa using done)] at one
        refine ⟨?_, fun pc' member bypasses => ?_⟩
        · rw [← (after _).countP_eq, List.countP_cons]
          split <;> omega
        · rw [← (after _).mem_iff, List.mem_cons] at member
          rcases member with here | other
          · rw [here] at bypasses
            exact stmt_bypasses bypasses
          · have quiet := List.countP_eq_zero.mp (Nat.le_zero.mp (Nat.le_of_succ_le_succ one)) pc' other
            have idle : pc' = .returned := by simpa using quiet
            rw [idle] at bypasses
            cases bypasses

/-- Data messages and flushes that do not interrupt each other keep the order, whatever room they find. -/
theorem separate_calls_in_order (events : List BklogEvent) (alone : Guarded Bklog.step Bklog.Alone {} events) :
    (exec Bklog.step {} events).InOrder := by
  have preserved : ∀ (s : Bklog) (e : BklogEvent), s.Sound ∧ s.Solo → s.Alone e → (s.step e).Sound ∧ (s.step e).Solo := by
    intro s e ⟨sound, solo⟩ alone
    have fair : s.Fair e := by
      cases e with
      | stmt i room =>
        cases room with
        | false => trivial
        | true =>
          intro pc found bypasses
          rw [BklogShared.waiting, solo.checked pc (List.mem_of_getElem? found) bypasses, List.filter_nil]
      | _ => trivial
    exact ⟨bklog_step_sound s e sound fair, solo_step s e solo alone⟩
  have both := guarded_invariant preserved ⟨bklog_start_sound, Nat.zero_le _, nofun⟩ alone
  exact both.1.toInOrder

end TwinpassGateway.Mps
