import TwinpassGateway.Mps.RemoteCommand

/-!
When the remote commands of the MPS driver keep results and buffers apart.
-/

namespace TwinpassGateway.Mps

open Foundation

variable {s : RemoteControl} {c : RemoteCall} {q : RemoteRequest} {i : Nat}

/-! ### The call under way -/

inductive RemoteProgress (s : RemoteControl) (c : RemoteCall) : Prop
  | unsent (stage : c.stage = .cleared) (inbox : s.inbox = []) (outbox : s.outbox = []) (zero : s.msgData = 0)
  | unserved (stage : c.stage ≠ .cleared) (inbox : s.inbox = [] ∨ s.inbox = [c.request]) (outbox : s.outbox = [])
      (zero : s.msgData = 0)
  | served (word : Nat) (stage : c.stage ≠ .cleared) (inbox : s.inbox = []) (outbox : s.outbox = [⟨c.request, word⟩])
      (zero : s.msgData = 0)
  | arrived (stage : c.stage ≠ .cleared) (inbox : s.inbox = []) (outbox : s.outbox = [])
      (response : ⟨c.request, s.msgData⟩ ∈ s.delivered)

structure RemoteCurrent (s : RemoteControl) (c : RemoteCall) : Prop where
  numbered : c.request.id < s.requested
  latest : ∀ r ∈ s.returned, r.request.id < c.request.id
  progress : RemoteProgress s c

structure RemoteControl.Distinct (s : RemoteControl) : Prop where
  same : ∀ a ∈ s.served, ∀ b ∈ s.served, a.buffer → b.buffer → a.word = b.word → a = b
  outbox : ∀ r ∈ s.outbox, r ∈ s.served
  delivered : ∀ r ∈ s.delivered, r ∈ s.served

structure RemoteControl.Ready (s : RemoteControl) : Prop where
  sound : s.Sound
  distinct : s.Distinct
  numbered : ∀ r ∈ s.returned, r.request.id < s.requested
  calls : s.calls = [] ∨ ∃ c, s.calls = [c] ∧ RemoteCurrent s c

theorem only_remote_call (ready : s.Ready) (found : s.calls[i]? = some c) :
    i = 0 ∧ s.calls = [c] ∧ RemoteCurrent s c := by
  rcases ready.calls with none | ⟨c', only, current⟩
  · simp [none] at found
  · rw [only] at found
    obtain ⟨bound, rfl⟩ := List.getElem?_eq_some_iff.mp found
    have first : i = 0 := by simpa using bound
    subst first
    exact ⟨rfl, only, current⟩

theorem kept_returned (ready : s.Ready) (none : s.calls = []) {r : RemoteResponse} (member : r ∈ s.delivered)
    (buffer : r.buffer) : r ∈ s.returned := by
  rcases ready.sound.kept r member buffer with done | ⟨-, c, waiting, -⟩
  · exact done
  · rw [none] at waiting
    cases waiting

/-! ### Steps of the callers -/

theorem request_ready {cmd : RemoteCmd} {optParam : Nat} (ready : s.Ready) (idle : s.Idle) :
    (s.step (.request cmd optParam)).Ready := by
  obtain ⟨noCalls, noRequests, noResponses⟩ := idle
  have calls : s.calls = [] := List.length_eq_zero_iff.mp noCalls
  refine ⟨⟨ready.sound.own, ready.sound.once, ?_⟩, ⟨ready.distinct.same, ready.distinct.outbox, ready.distinct.delivered⟩,
    ?_, Or.inr ⟨⟨⟨s.requested, cmd, optParam⟩, .cleared⟩, ?_, ?_⟩⟩
  · exact fun r member buffer => Or.inl (kept_returned ready calls member buffer)
  · exact fun r member => Nat.lt_succ_of_lt (ready.numbered r member)
  · simp [RemoteControl.step, calls]
  · exact ⟨Nat.lt_succ_self _, ready.numbered,
      .unsent rfl (List.length_eq_zero_iff.mp noRequests) (List.length_eq_zero_iff.mp noResponses) rfl⟩

/-- A step that takes the only call to its next stage keeps what is sound, if it keeps track of the request. -/
theorem ready_of_stage {s' : RemoteControl} (stage : RemoteStage) (ready : s.Ready) (only : s.calls = [c])
    (current : RemoteCurrent s c) (calls : s'.calls = [⟨c.request, stage⟩]) (data : s'.msgData = s.msgData)
    (outbox : s'.outbox = s.outbox) (requested : s'.requested = s.requested) (served : s'.served = s.served)
    (delivered : s'.delivered = s.delivered) (returned : s'.returned = s.returned)
    (progress : RemoteProgress s' ⟨c.request, stage⟩) : s'.Ready := by
  obtain ⟨⟨own, once, kept⟩, ⟨same, sent, arrived⟩, numbered, -⟩ := ready
  refine ⟨⟨?_, ?_, ?_⟩, ⟨?_, ?_, ?_⟩, ?_, Or.inr ⟨_, calls, ?_, ?_, progress⟩⟩
  · rwa [returned, delivered]
  · rwa [returned]
  · rw [delivered, returned, data]
    intro r member buffer
    rcases kept r member buffer with done | ⟨word, c', waiting, asked⟩
    · exact Or.inl done
    · rw [only] at waiting
      rw [List.mem_singleton.mp waiting] at asked
      refine Or.inr ⟨word, ⟨c.request, stage⟩, ?_, asked⟩
      rw [calls]
      exact List.mem_singleton_self _
  · rwa [served]
  · rwa [outbox, served]
  · rwa [delivered, served]
  · rwa [returned, requested]
  · rw [requested]
    exact current.numbered
  · rw [returned]
    exact current.latest

theorem submit_ready {accepted : Bool} (ready : s.Ready) : (s.step (.submit i accepted)).Ready := by
  simp only [RemoteControl.step]
  split
  · rename_i q found
    obtain ⟨rfl, only, current⟩ := only_remote_call ready found
    have next : ∀ stage, (s.setStage 0 q stage).calls = [⟨q, stage⟩] := by simp [RemoteControl.setStage, only]
    cases current.progress with
    | unsent stage inbox outbox zero =>
      refine ready_of_stage .waiting ready only current (next .waiting) rfl rfl rfl rfl rfl rfl
        (.unserved (by simp) ?_ outbox zero)
      cases accepted
      · exact Or.inl inbox
      · exact Or.inr (by simp [inbox])
    | unserved stage => exact absurd rfl stage
    | served word stage => exact absurd rfl stage
    | arrived stage => exact absurd rfl stage
  · exact ready

theorem progress_stage {s' : RemoteControl} {stage : RemoteStage} (progress : RemoteProgress s c)
    (sent : c.stage ≠ .cleared) (later : stage ≠ .cleared) (data : s'.msgData = s.msgData) (inbox : s'.inbox = s.inbox)
    (outbox : s'.outbox = s.outbox) (delivered : s'.delivered = s.delivered) :
    RemoteProgress s' ⟨c.request, stage⟩ := by
  cases progress with
  | unsent stage => exact absurd stage sent
  | unserved _ box out zero => exact .unserved later (by rwa [inbox]) (outbox.trans out) (data.trans zero)
  | served word _ box out zero => exact .served word later (inbox.trans box) (outbox.trans out) (data.trans zero)
  | arrived _ box out response =>
    exact .arrived later (inbox.trans box) (outbox.trans out) (by rw [data, delivered]; exact response)

theorem wake_ready {signal : Bool} (ready : s.Ready) : (s.step (.wake i signal)).Ready := by
  simp only [RemoteControl.step]
  split
  · rename_i q found
    split
    · obtain ⟨rfl, only, current⟩ := only_remote_call ready found
      refine ready_of_stage .woken ready only current ?_ rfl rfl rfl rfl rfl rfl ?_
      · simp [RemoteControl.setStage, only]
      · exact progress_stage current.progress (by simp) (by simp) rfl rfl rfl rfl
    · exact ready
  · exact ready

theorem clear_ready (ready : s.Ready) : (s.step (.clear i)).Ready := by
  simp only [RemoteControl.step]
  split
  · rename_i q found
    obtain ⟨rfl, only, current⟩ := only_remote_call ready found
    refine ready_of_stage .reading ready only current ?_ rfl rfl rfl rfl rfl rfl ?_
    · simp [RemoteControl.setStage, only]
    · exact progress_stage current.progress (by simp) (by simp) rfl rfl rfl rfl
  · exact ready

theorem read_own (current : RemoteCurrent s c) (result : s.msgData ≠ 0) : ⟨c.request, s.msgData⟩ ∈ s.delivered := by
  cases current.progress with
  | unsent stage inbox outbox zero => exact absurd zero result
  | unserved stage inbox outbox zero => exact absurd zero result
  | served word stage inbox outbox zero => exact absurd zero result
  | arrived stage inbox outbox response => exact response

theorem finish_ready (ready : s.Ready) : (s.step (.finish i)).Ready := by
  simp only [RemoteControl.step]
  split
  · rename_i q found
    obtain ⟨rfl, only, current⟩ := only_remote_call ready found
    obtain ⟨⟨own, once, kept⟩, ⟨same, sent, arrived⟩, numbered, -⟩ := ready
    refine ⟨⟨?_, ?_, ?_⟩, ⟨same, sent, arrived⟩, ?_, Or.inl (by simp [only])⟩
    · intro r member result
      rcases List.mem_append.mp member with before | now
      · exact own r before result
      · rw [List.mem_singleton.mp now] at result ⊢
        exact read_own current result
    · have unreturned : ∀ r ∈ s.returned, r.buffer → (⟨q, s.msgData⟩ : RemoteResponse).buffer → r.word ≠ s.msgData := by
        intro r member first second equal
        have earlier := arrived r (own r member first.2)
        have later := arrived _ (read_own current second.2)
        have one := same r earlier _ later first second equal
        have lower := current.latest r member
        rw [one] at lower
        exact absurd lower (Nat.lt_irrefl _)
      rw [List.filter_append, List.map_append, List.nodup_append]
      refine ⟨once, ?_, ?_⟩
      · exact (List.filter_sublist.map _).nodup (List.nodup_singleton _)
      · intro a before b now equal
        obtain ⟨r, member, rfl⟩ := List.mem_map.mp before
        obtain ⟨r', member', rfl⟩ := List.mem_map.mp now
        obtain ⟨member, buffer⟩ := List.mem_filter.mp member
        obtain ⟨member', buffer'⟩ := List.mem_filter.mp member'
        rw [List.mem_singleton.mp member'] at buffer' equal
        exact unreturned r member (of_decide_eq_true buffer) (of_decide_eq_true buffer') equal
    · intro r member buffer
      refine Or.inl ?_
      rcases kept r member buffer with done | ⟨word, c, waiting, asked⟩
      · exact List.mem_append_left _ done
      · rw [only] at waiting
        rw [List.mem_singleton.mp waiting] at asked
        have read : r = ⟨q, s.msgData⟩ := by
          rw [word]
          exact congrArg (fun a => (⟨a, r.word⟩ : RemoteResponse)) asked.symm
        rw [read]
        exact List.mem_append_right _ (List.mem_singleton_self _)
    · intro r member
      rcases List.mem_append.mp member with before | now
      · exact numbered r before
      · rw [List.mem_singleton.mp now]
        exact current.numbered
  · exact ready

/-! ### Steps of the other CPU -/

theorem serve_distinct {r : RemoteResponse} (distinct : s.Distinct) (fresh : s.Fresh r) :
    RemoteControl.Distinct { s with outbox := s.outbox ++ [r], served := s.served ++ [r] } := by
  obtain ⟨same, outbox, delivered⟩ := distinct
  refine ⟨?_, ?_, fun r' member => List.mem_append_left _ (delivered r' member)⟩
  · intro a first b second bufferA bufferB equal
    rcases List.mem_append.mp first with first | first <;> rcases List.mem_append.mp second with second | second
    · exact same a first b second bufferA bufferB equal
    · rw [List.mem_singleton.mp second] at bufferB equal
      exact absurd equal (fresh bufferB a first bufferA)
    · rw [List.mem_singleton.mp first] at bufferA equal
      exact absurd equal.symm (fresh bufferA b second bufferB)
    · rw [List.mem_singleton.mp first, List.mem_singleton.mp second]
  · intro r' member
    rcases List.mem_append.mp member with before | now
    · exact List.mem_append_left _ (outbox r' before)
    · exact List.mem_append_right _ now

theorem serve_ready {word : Nat} (ready : s.Ready) : (s.step (.serve i word)).Ready := by
  simp only [RemoteControl.step]
  split
  · exact ready
  · rename_i q found
    split
    · rename_i fresh
      obtain ⟨sound, distinct, numbered, calls⟩ := ready
      obtain ⟨same, sent, arrived⟩ := serve_distinct distinct fresh
      refine ⟨⟨sound.own, sound.once, sound.kept⟩, ⟨same, sent, arrived⟩, numbered, ?_⟩
      rcases calls with none | ⟨c, only, lower, latest, progress⟩
      · exact Or.inl none
      · refine Or.inr ⟨c, only, lower, latest, ?_⟩
        cases progress with
        | unsent stage inbox => simp [inbox] at found
        | served w stage inbox => simp [inbox] at found
        | arrived stage inbox => simp [inbox] at found
        | unserved stage inbox outbox zero =>
          rcases inbox with none | one
          · simp [none] at found
          · rw [one] at found
            obtain ⟨bound, same⟩ := List.getElem?_eq_some_iff.mp found
            have first : i = 0 := by simpa using bound
            subst first
            have asked : c.request = q := same
            exact .served word stage (by simp [one]) (by simp [outbox, asked]) zero
    · exact ready

theorem message_ready (ready : s.Ready) (inTurn : s.InTurn .message) : (s.step .message).Ready := by
  simp only [RemoteControl.step]
  split
  · exact ready
  · rename_i r rest found
    have expected : r.buffer → ∃ c ∈ s.calls, c.request = r.request := inTurn r (by rw [found]; rfl)
    have sent := ready.distinct.outbox
    rw [found] at sent
    have distinct : RemoteControl.Distinct (ifxMpsCmdRcvCallback { s with outbox := rest } r) := by
      refine ⟨ready.distinct.same, fun r' member => sent r' (List.mem_cons_of_mem _ member), ?_⟩
      intro r' member
      rcases List.mem_append.mp member with before | now
      · exact ready.distinct.delivered r' before
      · rw [List.mem_singleton.mp now]
        exact sent r List.mem_cons_self
    have own : ∀ r' ∈ s.returned, r'.word ≠ 0 → r' ∈ s.delivered ++ [r] :=
      fun r' member result => List.mem_append_left _ (ready.sound.own r' member result)
    rcases ready.calls with none | ⟨c, only, lower, latest, progress⟩
    · refine ⟨⟨own, ready.sound.once, ?_⟩, distinct, ready.numbered, Or.inl none⟩
      intro r' member buffer
      rcases List.mem_append.mp member with before | now
      · exact Or.inl (kept_returned ready none before buffer)
      · rw [List.mem_singleton.mp now] at buffer
        obtain ⟨c, waiting, -⟩ := expected buffer
        rw [none] at waiting
        cases waiting
    · cases progress with
      | unsent stage inbox outbox => simp [outbox] at found
      | unserved stage inbox outbox => simp [outbox] at found
      | arrived stage inbox outbox => simp [outbox] at found
      | served word stage inbox outbox zero =>
        rw [outbox] at found
        obtain ⟨rfl, rfl⟩ := List.cons.inj found
        have here : (⟨c.request, word⟩ : RemoteResponse) ∈ s.delivered ++ [⟨c.request, word⟩] :=
          List.mem_append_right _ (List.mem_singleton_self _)
        refine ⟨⟨own, ready.sound.once, ?_⟩, distinct, ready.numbered,
          Or.inr ⟨c, only, lower, latest, .arrived stage inbox rfl here⟩⟩
        intro r' member buffer
        rcases List.mem_append.mp member with before | now
        · rcases ready.sound.kept r' before buffer with done | ⟨same, -⟩
          · exact Or.inl done
          · exact absurd (same.symm.trans zero) buffer.2
        · rw [List.mem_singleton.mp now]
          exact Or.inr ⟨rfl, c, by rw [only]; exact List.mem_singleton_self _, rfl⟩

/-! ### Runs -/

theorem remote_step_ready {e : RemoteEvent} (ready : s.Ready) (inTurn : s.InTurn e) : (s.step e).Ready := by
  cases e with
  | request cmd optParam => exact request_ready ready inTurn
  | submit i accepted => exact submit_ready ready
  | serve i word => exact serve_ready ready
  | message => exact message_ready ready inTurn
  | wake i signal => exact wake_ready ready
  | clear i => exact clear_ready ready
  | finish i => exact finish_ready ready

/-- In every run that keeps to the turns, results, buffers and callers belong together. -/
theorem requests_in_turn_sound {events : List RemoteEvent}
    (inTurn : Guarded RemoteControl.step RemoteControl.InTurn {} events) :
    (exec RemoteControl.step {} events).Sound := by
  have start : RemoteControl.Ready {} :=
    ⟨⟨fun _ none => (by cases none), List.nodup_nil, fun _ none => (by cases none)⟩,
      ⟨fun _ none => (by cases none), fun _ none => (by cases none), fun _ none => (by cases none)⟩,
      fun _ none => (by cases none), Or.inl rfl⟩
  exact (guarded_invariant (fun _ _ ready allowed => remote_step_ready ready allowed) start inTurn).sound

/-- Two requests one after the other. -/
theorem requests_in_turn_sound_two_requests :
    (exec RemoteControl.step {} [ifxMpsSkbuffAlloc 2000, .submit 0 true, .serve 0 0x80001000, .message, .wake 0 false,
      .clear 0, .finish 0, ifxMpsAppBuffKmalloc 64, .submit 0 true, .wake 0 true, .serve 0 0x80002000, .message, .clear 0,
      .finish 0]).Sound :=
  requests_in_turn_sound (by decide +kernel)

/-- The wait for a socket buffer is interrupted. The version query that follows returns the buffer's address as the
version, and the buffer is lost. -/
theorem buffer_returned_as_version :
    let s := exec RemoteControl.step {} [ifxMpsSkbuffAlloc 2000, .submit 0 true, .wake 0 true, .clear 0, .finish 0,
      ifxMpsGetVersion, .submit 0 true, .serve 0 0x80001000, .message, .wake 0 false, .clear 0, .finish 0]
    (∃ r ∈ s.returned, r.word ≠ 0 ∧ r ∉ s.delivered) ∧
      ∃ r ∈ s.delivered, r.buffer ∧ r ∉ s.returned ∧ ¬ ∃ c ∈ s.calls, c.request = r.request := by
  decide +kernel

end TwinpassGateway.Mps
