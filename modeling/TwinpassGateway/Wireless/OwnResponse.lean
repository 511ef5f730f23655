import TwinpassGateway.Wireless.IoctlSend

/-!
When a request of the wireless driver returns with its own response.
-/

namespace TwinpassGateway.Wireless

open Foundation

variable {s : Link} {c : Call} {o : Outcome}

/-! ### The call under way -/

/-- The answer of a call is stored in its request. -/
structure Answered (s : Link) (c : Call) (a : Answer) : Prop where
  recorded : (c.ticket.id, a) ∈ s.answers
  ifr : (s.mem c.ticket.addr).ifr = a.ifr
  extra : (s.mem c.ticket.addr).extra = a.extra
  ret : (s.mem c.ticket.addr).ret = a.ret

/-- How far the request of a call that has not read its result is. -/
inductive Progress (s : Link) (c : Call) : Prop
  | unanswered (inbox : s.inbox = [] ∨ s.inbox = [c.ticket]) (outbox : s.outbox = []) (flag : s.refcount = 0)
      (cpu1 : s.cpu1Ioreq = none)
  | answered (a : Answer) (inbox : s.inbox = []) (outbox : s.outbox = [c.ticket]) (flag : s.refcount = 0)
      (cpu1 : s.cpu1Ioreq = none) (stored : Answered s c a)
  | calledBack (a : Answer) (inbox : s.inbox = []) (outbox : s.outbox = []) (stored : Answered s c a)
      (cpu1 : s.cpu1Ioreq = if byPointer c.cmd then some c.ticket.addr else none)

/-- The request as the handler filled it in, apart from the answer. -/
structure Open (s : Link) (c : Call) : Prop where
  cmd : (s.mem c.ticket.addr).cmd = c.cmd
  user : byPointer c.cmd = true → s.userRetData = c.user
  progress : Progress s c

def Current (s : Link) (c : Call) : Prop :=
  match c.stage with
  | .collected o => o.Own s.answers c
  | _ => Open s c

/-- At most one call is under way, and every result so far is its own. -/
structure Link.Ready (s : Link) : Prop where
  calls : s.calls = [] ∨ ∃ c, s.calls = [c] ∧ Current s c
  returned : ∀ r ∈ s.returned, r.2.Own s.answers r.1

theorem own_mono {answers later : List (Nat × Answer)} (own : o.Own answers c) : o.Own (answers ++ later) c := by
  intro success
  obtain ⟨p, member, rest⟩ := own success
  exact ⟨p, List.mem_append_left _ member, rest⟩

theorem own_of_error {answers : List (Nat × Answer)} (error : o.ret < 0) : o.Own answers c :=
  fun success => absurd success (by omega)

/-! ### Reading the result -/

theorem outcome_own (ready : Open s c) (orderly : s.refcount ≠ 0 ∨ (s.mem c.ticket.addr).ret < 0) :
    (s.outcome c.ticket.addr).Own s.answers c := by
  obtain ⟨cmd, user, progress⟩ := ready
  have early (flag : s.refcount = 0) (cpu1 : s.cpu1Ioreq = none) : (s.outcome c.ticket.addr).Own s.answers c := by
    have error := orderly.resolve_left (by omega)
    refine own_of_error ?_
    rw [Link.outcome, cpu1]
    exact error
  cases progress with
  | unanswered inbox outbox flag cpu1 => exact early flag cpu1
  | answered a inbox outbox flag cpu1 stored => exact early flag cpu1
  | calledBack a inbox outbox stored cpu1 =>
    intro success
    refine ⟨_, stored.recorded, rfl, ?_⟩
    cases pointer : byPointer c.cmd with
    | true =>
      rw [pointer, if_pos rfl] at cpu1
      simp only [Link.outcome, cpu1, cmd, pointer, if_true]
      exact ⟨stored.ret, stored.ifr, stored.extra, fun _ => by rw [user pointer, stored.extra]⟩
    | false =>
      rw [pointer, if_neg Bool.false_ne_true] at cpu1
      simp only [Link.outcome, cpu1]
      exact ⟨stored.ret, stored.ifr, stored.extra, fun h => by cases h⟩

/-! ### Steps -/

theorem send_ready {addr user : Nat} {ioreq : IoctlReq} {delivered : Bool} (ready : s.Ready) (quiet : s.Quiet) :
    (ioctlSend s addr user ioreq delivered).Ready := by
  obtain ⟨noCalls, noRequests, noResponses, flag, cpu1⟩ := quiet
  have calls : s.calls = [] := List.length_eq_zero_iff.mp noCalls
  have inbox : s.inbox = [] := List.length_eq_zero_iff.mp noRequests
  have outbox : s.outbox = [] := List.length_eq_zero_iff.mp noResponses
  refine ⟨Or.inr ⟨⟨⟨s.sent, addr⟩, ioreq.cmd, user, .waiting⟩, ?_, ?_⟩, ready.returned⟩
  · simp [ioctlSend, calls]
  · refine ⟨?_, ?_, .unanswered ?_ outbox flag cpu1⟩
    · simp [ioctlSend]
    · intro pointer
      have pointer' : byPointer ioreq.cmd = true := pointer
      simp [ioctlSend, pointer']
    · cases delivered
      · exact Or.inl (by simp [ioctlSend, inbox])
      · exact Or.inr (by simp [ioctlSend, inbox])

theorem current_of_open {s' : Link} {later : List (Nat × Answer)} (grown : s'.answers = s.answers ++ later)
    (moved : Open s c → Open s' c) (current : Current s c) : Current s' c := by
  obtain ⟨t, cmd, user, stage⟩ := c
  cases stage with
  | waiting => exact moved current
  | woken => exact moved current
  | collected o =>
    have own : o.Own s'.answers ⟨t, cmd, user, .collected o⟩ := grown ▸ own_mono current
    exact own

/-- What happens to the requests and responses of a call carries over to the whole state. -/
theorem ready_of_open {s' : Link} {later : List (Nat × Answer)} (ready : s.Ready) (same : s'.calls = s.calls)
    (kept : s'.returned = s.returned) (grown : s'.answers = s.answers ++ later)
    (moved : ∀ c, Open s c → Open s' c) : s'.Ready := by
  obtain ⟨calls, returned⟩ := ready
  refine ⟨?_, ?_⟩
  · rcases calls with none | ⟨c, only, current⟩
    · exact Or.inl (same.trans none)
    · exact Or.inr ⟨c, same.trans only, current_of_open grown (moved c) current⟩
  · rw [kept, grown]
    exact fun r member => own_mono (returned r member)

theorem answer_ready {i : Nat} {a : Answer} (ready : s.Ready) : (s.step (.answer i a)).Ready := by
  simp only [Link.step]
  cases found : s.inbox[i]? with
  | none => exact ready
  | some t =>
    refine ready_of_open ready rfl rfl rfl fun c waiting => ?_
    obtain ⟨cmd, user, progress⟩ := waiting
    cases progress with
    | answered b inbox => simp [inbox] at found
    | calledBack b inbox => simp [inbox] at found
    | unanswered inbox outbox flag cpu1 =>
      have own : i = 0 ∧ c.ticket = t := by
        rcases inbox with none | one
        · simp [none] at found
        · rw [one] at found
          obtain ⟨bound, same⟩ := List.getElem?_eq_some_iff.mp found
          have first : i = 0 := by simpa using bound
          subst first
          exact ⟨rfl, same⟩
      obtain ⟨rfl, rfl⟩ := own
      have taken : s.inbox.eraseIdx 0 = [] := by
        rcases inbox with none | one
        · rw [none]; rfl
        · rw [one]; rfl
      refine ⟨?_, user, .answered a taken (by simp [outbox]) flag cpu1 ⟨by simp, ?_, ?_, ?_⟩⟩
      · simpa [IoctlReq.answered] using cmd
      all_goals simp [IoctlReq.answered]

theorem usMessageCb_eq (s : Link) (pdata : Nat) : usMessageCb s pdata =
    { s with
      refcount := 1
      cpu1Ioreq := if byPointer (s.mem pdata).cmd then some pdata else s.cpu1Ioreq } := by
  unfold usMessageCb ioctlRecv
  dsimp only
  split <;> rfl

theorem message_ready (ready : s.Ready) : (s.step .message).Ready := by
  simp only [Link.step]
  split
  · exact ready
  · rename_i t rest found
    rw [usMessageCb_eq]
    refine ready_of_open ready rfl rfl (List.append_nil _).symm fun c waiting => ?_
    obtain ⟨cmd, user, progress⟩ := waiting
    cases progress with
    | unanswered inbox outbox => simp [outbox] at found
    | calledBack a inbox outbox => simp [outbox] at found
    | answered a inbox outbox flag cpu1 stored =>
      rw [outbox] at found
      obtain ⟨rfl, rfl⟩ := List.cons.inj found
      refine ⟨cmd, user, .calledBack a inbox rfl ⟨stored.recorded, stored.ifr, stored.extra, stored.ret⟩ ?_⟩
      simp only [cmd, cpu1]

theorem only_call {i : Nat} (ready : s.Ready) (found : s.calls[i]? = some c) :
    i = 0 ∧ s.calls = [c] ∧ Current s c := by
  rcases ready.calls with none | ⟨c', only, current⟩
  · simp [none] at found
  · rw [only] at found
    obtain ⟨bound, rfl⟩ := List.getElem?_eq_some_iff.mp found
    have first : i = 0 := by simpa using bound
    subst first
    exact ⟨rfl, only, current⟩

theorem wake_ready {i : Nat} {signal : Bool} (ready : s.Ready) : (s.step (.wake i signal)).Ready := by
  simp only [Link.step]
  split
  · rename_i t cmd user found
    split
    · obtain ⟨rfl, only, waiting⟩ := only_call ready found
      refine ⟨Or.inr ⟨⟨t, cmd, user, .woken⟩, by simp [Link.setStage, only], ?_⟩, ready.returned⟩
      obtain ⟨sameCmd, sameUser, progress⟩ := waiting
      refine ⟨sameCmd, sameUser, ?_⟩
      cases progress with
      | unanswered inbox outbox flag cpu1 => exact .unanswered inbox outbox flag cpu1
      | answered a inbox outbox flag cpu1 stored =>
        exact .answered a inbox outbox flag cpu1 ⟨stored.recorded, stored.ifr, stored.extra, stored.ret⟩
      | calledBack a inbox outbox stored cpu1 =>
        exact .calledBack a inbox outbox ⟨stored.recorded, stored.ifr, stored.extra, stored.ret⟩ cpu1
    · exact ready
  · exact ready

theorem collect_ready {i : Nat} (ready : s.Ready) (orderly : s.Orderly (.collect i)) :
    (s.step (.collect i)).Ready := by
  simp only [Link.step]
  split
  · rename_i t cmd user found
    have early := orderly _ found
    obtain ⟨rfl, only, waiting⟩ := only_call ready found
    refine ⟨Or.inr ⟨⟨t, cmd, user, .collected (s.outcome t.addr)⟩, by simp [Link.setStage, only], ?_⟩, ready.returned⟩
    exact outcome_own waiting early
  · exact ready

theorem reset_ready {i : Nat} (ready : s.Ready) : (s.step (.reset i)).Ready := by
  simp only [Link.step]
  split
  · rename_i t cmd user o found
    obtain ⟨rfl, only, own⟩ := only_call ready found
    refine ⟨Or.inl (by simp [only]), ?_⟩
    intro r member
    rcases List.mem_append.mp member with before | now
    · exact ready.returned r before
    · rw [List.mem_singleton.mp now]
      exact own
  · exact ready

theorem step_ready {e : Event} (ready : s.Ready) (orderly : s.Orderly e) : (s.step e).Ready := by
  cases e with
  | send addr user ioreq delivered => exact send_ready ready orderly
  | answer i a => exact answer_ready ready
  | message => exact message_ready ready
  | wake i signal => exact wake_ready ready
  | collect i => exact collect_ready ready orderly
  | reset i => exact reset_ready ready

/-- In every orderly run a call of `ioctl_send` that returns success returns the answer to its own request. -/
theorem orderly_own_response {mem : Nat → IoctlReq} {events : List Event}
    (orderly : Guarded Link.step Link.Orderly { mem } events) :
    ∀ r ∈ (exec Link.step { mem } events).returned, r.2.Own (exec Link.step { mem } events).answers r.1 := by
  have start : Link.Ready { mem } := ⟨Or.inl rfl, fun _ none => by cases none⟩
  exact (guarded_invariant (fun _ _ ready allowed => step_ready ready allowed) start orderly).returned

def unused : Nat → IoctlReq := fun _ => { cmd := 0, ifr := [], extra := [], ret := 0 }

def staInfo (ret : Int) : IoctlReq := { cmd := ieee80211IoctlStaInfo, ifr := [], extra := [0, 0], ret }

/-- Two requests one after the other, the second with its data copied to the user. -/
theorem orderly_own_response_two_requests :
    let events : List Event := [.send 100 0 { cmd := 0, ifr := [], extra := [], ret := 0 } true, .answer 0 ⟨[7], [], 0⟩,
      .message, .wake 0 false, .collect 0, .reset 0, .send 200 5000 (staInfo 0) true, .answer 0 ⟨[], [1, 2], 0⟩,
      .message, .wake 0 true, .collect 0, .reset 0]
    ∀ r ∈ (exec Link.step { mem := unused } events).returned,
      r.2.Own (exec Link.step { mem := unused } events).answers r.1 :=
  orderly_own_response (by decide +kernel)

/-- The wait for the first station list is interrupted; its late response is returned to the second request, with
success and with the first list. -/
theorem late_response_returned :
    let events : List Event := [.send 100 4000 (staInfo (-1)) true, .wake 0 true, .collect 0, .reset 0,
      .send 200 5000 (staInfo (-1)) true, .answer 0 ⟨[], [1, 2], 0⟩, .message, .wake 0 false, .collect 0, .reset 0]
    ∃ r ∈ (exec Link.step { mem := unused } events).returned,
      ¬ r.2.Own (exec Link.step { mem := unused } events).answers r.1 := by
  decide +kernel

end TwinpassGateway.Wireless
