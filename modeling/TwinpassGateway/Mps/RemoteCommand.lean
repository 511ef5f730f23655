import TwinpassGateway.Foundation.Run

/-!
Remote commands of the MPS driver: a CPU asks the other one for a buffer or for its version, and waits for the
response. All requests share `msg_data` and `cmd_callback_flag` of `mps_cmd_control`.
-/

namespace TwinpassGateway.Mps

open Foundation

inductive RemoteCmd where
  | datalistAlloc
  | skbAlloc
  | dataAlloc
  | getRemoteVer
  deriving DecidableEq

def RemoteCmd.allocates : RemoteCmd → Bool
  | .getRemoteVer => false
  | _ => true

/-- A request message. Its number is not part of the message, where `msg_seqno` is always zero. -/
structure RemoteRequest where
  id : Nat
  cmd : RemoteCmd
  optParam : Nat
  deriving DecidableEq

/-- A response: the first word of the content, which is `msg_buf_addr` or `payload`. -/
structure RemoteResponse where
  request : RemoteRequest
  word : Nat
  deriving DecidableEq

def RemoteResponse.buffer (r : RemoteResponse) : Prop := r.request.cmd.allocates = true ∧ r.word ≠ 0

instance (r : RemoteResponse) : Decidable r.buffer := inferInstanceAs (Decidable (_ ∧ _))

/-- Where a caller is: before `ifx_cmd_process`, in the wait, behind it, and with the flag cleared. -/
inductive RemoteStage where
  | cleared
  | waiting
  | woken
  | reading
  deriving DecidableEq

structure RemoteCall where
  request : RemoteRequest
  stage : RemoteStage

structure RemoteControl where
  /-- The first word of the content of `msg_data`. -/
  msgData : Nat := 0
  cmdCallbackFlag : Bool := false
  calls : List RemoteCall := []
  /-- Requests the other CPU has not served yet. -/
  inbox : List RemoteRequest := []
  /-- Responses on their way, the oldest first. -/
  outbox : List RemoteResponse := []
  requested : Nat := 0
  served : List RemoteResponse := []
  delivered : List RemoteResponse := []
  /-- Calls that have returned, with the value they returned. -/
  returned : List RemoteResponse := []

inductive RemoteEvent where
  /-- A caller clears `msg_data`. -/
  | request (cmd : RemoteCmd) (optParam : Nat)
  /-- It sends the command; the mailbox may refuse it, and the caller waits all the same. -/
  | submit (i : Nat) (accepted : Bool)
  /-- The other CPU serves one of the requests it has. -/
  | serve (i : Nat) (word : Nat)
  /-- The oldest response arrives. -/
  | message
  /-- A wait ends, because the flag is set or because of a signal. -/
  | wake (i : Nat) (signal : Bool)
  /-- A caller clears the flag. -/
  | clear (i : Nat)
  /-- A caller reads `msg_data` and returns. -/
  | finish (i : Nat)

/-! ### The callers -/

def ifxMpsDatalistAlloc (n : Nat) : RemoteEvent := .request .datalistAlloc n

def ifxMpsSkbuffAlloc (bufsize : Nat) : RemoteEvent := .request .skbAlloc bufsize

def ifxMpsAppBuffKmalloc (bufsize : Nat) : RemoteEvent := .request .dataAlloc bufsize

def ifxMpsGetVersion : RemoteEvent := .request .getRemoteVer 0

/-! ### Steps -/

def ifxMpsCmdRcvCallback (s : RemoteControl) (r : RemoteResponse) : RemoteControl :=
  { s with msgData := r.word, cmdCallbackFlag := true, delivered := s.delivered ++ [r] }

def RemoteControl.setStage (s : RemoteControl) (i : Nat) (request : RemoteRequest) (stage : RemoteStage) :
    RemoteControl :=
  { s with calls := s.calls.set i ⟨request, stage⟩ }

/-- A buffer the other CPU allocates is not one of an earlier response. -/
def RemoteControl.Fresh (s : RemoteControl) (r : RemoteResponse) : Prop :=
  r.buffer → ∀ earlier ∈ s.served, earlier.buffer → earlier.word ≠ r.word

instance (s : RemoteControl) (r : RemoteResponse) : Decidable (s.Fresh r) := inferInstanceAs (Decidable (_ → _))

def RemoteControl.step (s : RemoteControl) : RemoteEvent → RemoteControl
  | .request cmd optParam =>
    { s with
      msgData := 0
      calls := s.calls ++ [⟨⟨s.requested, cmd, optParam⟩, .cleared⟩]
      requested := s.requested + 1 }
  | .submit i accepted =>
    match s.calls[i]? with
    | some ⟨q, .cleared⟩ =>
      { s.setStage i q .waiting with inbox := if accepted then s.inbox ++ [q] else s.inbox }
    | _ => s
  | .serve i word =>
    match s.inbox[i]? with
    | none => s
    | some q =>
      if s.Fresh ⟨q, word⟩ then
        { s with inbox := s.inbox.eraseIdx i, outbox := s.outbox ++ [⟨q, word⟩], served := s.served ++ [⟨q, word⟩] }
      else s
  | .message =>
    match s.outbox with
    | [] => s
    | r :: rest => ifxMpsCmdRcvCallback { s with outbox := rest } r
  | .wake i signal =>
    match s.calls[i]? with
    | some ⟨q, .waiting⟩ => if s.cmdCallbackFlag = true ∨ signal = true then s.setStage i q .woken else s
    | _ => s
  | .clear i =>
    match s.calls[i]? with
    | some ⟨q, .woken⟩ => { s.setStage i q .reading with cmdCallbackFlag := false }
    | _ => s
  | .finish i =>
    match s.calls[i]? with
    | some ⟨q, .reading⟩ =>
      { s with calls := s.calls.eraseIdx i, returned := s.returned ++ [⟨q, s.msgData⟩] }
    | _ => s

/-! ### What callers may rely on -/

/-- A call that returns a result returns that of its own request, no buffer is returned twice, and every buffer that
has arrived has been returned to the caller that asked for it, or that caller is about to read it. -/
structure RemoteControl.Sound (s : RemoteControl) : Prop where
  own : ∀ r ∈ s.returned, r.word ≠ 0 → r ∈ s.delivered
  once : ((s.returned.filter fun r => decide r.buffer).map RemoteResponse.word).Nodup
  kept : ∀ r ∈ s.delivered, r.buffer → r ∈ s.returned ∨ (s.msgData = r.word ∧ ∃ c ∈ s.calls, c.request = r.request)

def RemoteControl.Idle (s : RemoteControl) : Prop :=
  s.calls.length = 0 ∧ s.inbox.length = 0 ∧ s.outbox.length = 0

instance (s : RemoteControl) : Decidable s.Idle := inferInstanceAs (Decidable (_ ∧ _))

/-- A request is made when nothing is under way; a response with a buffer arrives while its caller has not read
`msg_data` yet. -/
def RemoteControl.InTurn (s : RemoteControl) : RemoteEvent → Prop
  | .request .. => s.Idle
  | .message => ∀ r ∈ s.outbox.head?, r.buffer → ∃ c ∈ s.calls, c.request = r.request
  | _ => True

instance (s : RemoteControl) : ∀ e, Decidable (s.InTurn e)
  | .request .. => inferInstanceAs (Decidable s.Idle)
  | .message => inferInstanceAs (Decidable (∀ r ∈ s.outbox.head?, r.buffer → ∃ c ∈ s.calls, c.request = r.request))
  | .submit .. => instDecidableTrue
  | .serve .. => instDecidableTrue
  | .wake .. => instDecidableTrue
  | .clear _ => instDecidableTrue
  | .finish _ => instDecidableTrue

end TwinpassGateway.Mps
