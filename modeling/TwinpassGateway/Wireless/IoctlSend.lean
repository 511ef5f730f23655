import TwinpassGateway.Foundation.Run
import TwinpassGateway.Foundation.Word

/-!
Requests of the wireless driver to the other CPU: `ioctl_send`, `us_message_cb` and `ioctl_recv` of
`mps0_wifi.c`, with the state they share.
-/

namespace TwinpassGateway.Wireless

open Foundation

/-- `ioctl_req`, with the bytes that `extra` points to. -/
structure IoctlReq where
  cmd : Nat
  ifr : List U8
  extra : List U8
  ret : Int

def siocdevprivate : Nat := 0x89F0

def ieee80211IoctlGetwpaie : Nat := siocdevprivate + 4

def ieee80211IoctlStaInfo : Nat := siocdevprivate + 6

/-- The commands whose result is copied to the user by `ioctl_send` itself. -/
def byPointer (cmd : Nat) : Bool := cmd == ieee80211IoctlGetwpaie || cmd == ieee80211IoctlStaInfo

structure Answer where
  ifr : List U8
  extra : List U8
  ret : Int

def IoctlReq.answered (r : IoctlReq) (a : Answer) : IoctlReq := { r with ifr := a.ifr, extra := a.extra, ret := a.ret }

/-- One request: its number, and the address of its buffer, which is all that the messages contain. -/
structure Ticket where
  id : Nat
  addr : Nat

structure Outcome where
  ret : Int
  /-- Destination and bytes of the copy to the user. -/
  copied : Option (Nat × List U8)
  ioreq : IoctlReq

inductive Stage where
  | waiting
  | woken
  | collected (o : Outcome)

structure Call where
  ticket : Ticket
  cmd : Nat
  /-- Where the user wants the data. -/
  user : Nat
  stage : Stage

structure Link where
  mem : Nat → IoctlReq
  refcount : Nat := 0
  cpu1Ioreq : Option Nat := none
  /-- `user_ret_data.u.data.pointer`. -/
  userRetData : Nat := 0
  calls : List Call := []
  /-- Requests the other CPU has not answered yet. -/
  inbox : List Ticket := []
  /-- Responses on their way back, the oldest first. -/
  outbox : List Ticket := []
  sent : Nat := 0
  answers : List (Nat × Answer) := []
  returned : List (Call × Outcome) := []

/-! ### The functions -/

def ioctlRecv (s : Link) (pdata : Nat) : Link :=
  if byPointer (s.mem pdata).cmd then { s with cpu1Ioreq := some pdata } else s

def usMessageCb (s : Link) (pdata : Nat) : Link := ioctlRecv { s with refcount := 1 } pdata

/-- `ioctl_send` up to the wait. `ifx_mps_app_message_send` reports success also when the mailbox did not take
the message. -/
def ioctlSend (s : Link) (addr user : Nat) (ioreq : IoctlReq) (delivered : Bool) : Link :=
  let ticket : Ticket := ⟨s.sent, addr⟩
  { s with
    mem := Function.update s.mem addr ioreq
    userRetData := if byPointer ioreq.cmd then user else s.userRetData
    calls := s.calls ++ [⟨ticket, ioreq.cmd, user, .waiting⟩]
    inbox := if delivered then s.inbox ++ [ticket] else s.inbox
    sent := s.sent + 1 }

/-- What `ioctl_send` returns after the wait. When the other CPU's request is not one of the two commands, the copy
goes to the address of `user_ret_data` itself, which `copy_to_user` refuses. -/
def Link.outcome (s : Link) (addr : Nat) : Outcome :=
  match s.cpu1Ioreq with
  | some cpu1 =>
    { ret := (s.mem cpu1).ret
      copied := if byPointer (s.mem cpu1).cmd then some (s.userRetData, (s.mem cpu1).extra) else none
      ioreq := s.mem addr }
  | none => { ret := (s.mem addr).ret, copied := none, ioreq := s.mem addr }

/-! ### Steps -/

inductive Event where
  /-- A handler fills the buffer at `addr` and calls `ioctl_send`. -/
  | send (addr user : Nat) (ioreq : IoctlReq) (delivered : Bool)
  /-- The other CPU stores its answer in one of the requests it has, and sends the response. -/
  | answer (i : Nat) (a : Answer)
  /-- The callback for the oldest response. -/
  | message
  /-- The wait of a call ends, because `refcount` is set or because of a signal. -/
  | wake (i : Nat) (signal : Bool)
  /-- A woken call reads its result. -/
  | collect (i : Nat)
  /-- It resets `refcount` and returns. -/
  | reset (i : Nat)

def Link.setStage (s : Link) (i : Nat) (c : Call) (stage : Stage) : Link :=
  { s with calls := s.calls.set i { c with stage } }

def Link.step (s : Link) : Event → Link
  | .send addr user ioreq delivered => ioctlSend s addr user ioreq delivered
  | .answer i a =>
    match s.inbox[i]? with
    | none => s
    | some t =>
      { s with
        mem := Function.update s.mem t.addr ((s.mem t.addr).answered a)
        inbox := s.inbox.eraseIdx i
        outbox := s.outbox ++ [t]
        answers := s.answers ++ [(t.id, a)] }
  | .message =>
    match s.outbox with
    | [] => s
    | t :: rest => usMessageCb { s with outbox := rest } t.addr
  | .wake i signal =>
    match s.calls[i]? with
    | some ⟨t, cmd, user, .waiting⟩ =>
      if s.refcount ≠ 0 ∨ signal = true then s.setStage i ⟨t, cmd, user, .waiting⟩ .woken else s
    | _ => s
  | .collect i =>
    match s.calls[i]? with
    | some ⟨t, cmd, user, .woken⟩ =>
      { s.setStage i ⟨t, cmd, user, .woken⟩ (.collected (s.outcome t.addr)) with cpu1Ioreq := none }
    | _ => s
  | .reset i =>
    match s.calls[i]? with
    | some ⟨t, cmd, user, .collected o⟩ =>
      { s with
        refcount := 0
        calls := s.calls.eraseIdx i
        returned := s.returned ++ [(⟨t, cmd, user, .collected o⟩, o)] }
    | _ => s

/-! ### What a call may return -/

/-- A call that returns success returns the answer to its own request. -/
def Outcome.Own (answers : List (Nat × Answer)) (c : Call) (o : Outcome) : Prop :=
  0 ≤ o.ret → ∃ p ∈ answers, p.1 = c.ticket.id ∧ o.ret = p.2.ret ∧ o.ioreq.ifr = p.2.ifr ∧ o.ioreq.extra = p.2.extra ∧
    (byPointer c.cmd = true → o.copied = some (c.user, p.2.extra))

instance (answers : List (Nat × Answer)) (c : Call) (o : Outcome) : Decidable (o.Own answers c) :=
  inferInstanceAs (Decidable (_ → _))

/-- No request is under way, and the last response has been taken. -/
def Link.Quiet (s : Link) : Prop :=
  s.calls.length = 0 ∧ s.inbox.length = 0 ∧ s.outbox.length = 0 ∧ s.refcount = 0 ∧ s.cpu1Ioreq = none

instance (s : Link) : Decidable s.Quiet := inferInstanceAs (Decidable (_ ∧ _))

/-- A request is sent when nothing of an earlier one is left; a call whose wait ended before the callback finds an
error in the `ret` field of its request. -/
def Link.Orderly (s : Link) : Event → Prop
  | .send .. => s.Quiet
  | .collect i => ∀ c ∈ s.calls[i]?, s.refcount ≠ 0 ∨ (s.mem c.ticket.addr).ret < 0
  | _ => True

instance (s : Link) : ∀ e, Decidable (s.Orderly e)
  | .send .. => inferInstanceAs (Decidable s.Quiet)
  | .collect i => inferInstanceAs (Decidable (∀ c ∈ s.calls[i]?, s.refcount ≠ 0 ∨ (s.mem c.ticket.addr).ret < 0))
  | .answer .. => instDecidableTrue
  | .message => instDecidableTrue
  | .wake .. => instDecidableTrue
  | .reset _ => instDecidableTrue

end TwinpassGateway.Wireless
