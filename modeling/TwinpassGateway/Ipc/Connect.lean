import TwinpassGateway.Foundation.Lifetime
import TwinpassGateway.Ipc.Framing

/-!
Delivery of a buffer to a port: `ipc_connect_buf_write` of `ipc.c`. What the system calls answer is given for each
socket in turn.
-/

namespace TwinpassGateway.Ipc

open Foundation MemOp

structure Peer where
  /-- The result of `socket`: a descriptor that is not in use. -/
  fd : Nat
  /-- `bind` in `sock_socket` succeeds. -/
  binds : Bool
  /-- `connect` to the port succeeds. -/
  accepts : Bool
  writes : List Attempt
  reads : List Attempt
  mallocs : List Bool
  wire : List U8

def Peer.conn (p : Peer) : Conn := { writes := p.writes, reads := p.reads, mallocs := p.mallocs, wire := p.wire }

def syncStr : CString := ⟨[0x73#8, 0x79#8, 0x6E#8, 0x63#8], by decide, by decide⟩

def strOf (buffer : List U8) : List U8 := buffer.takeWhile (· ≠ 0#8)

def ipcClientSync (c : Conn) : Option (Int × Conn) :=
  (ipcStringWrite c syncStr).bind fun (rc, c) =>
    if rc ≠ 0 then some (-1, c)
    else
      (ipcStringRead c).map fun (sync, c) =>
        match sync with
        | none => (-1, c)
        | some buffer => if strOf buffer ≠ syncStr.chars then (-1, c) else (0, c)

structure Returned (α : Type) where
  val : α
  ops : List (MemOp Nat)

/-- `ipc_connect`: the descriptor and the connection, or `none` for its failure. An entry `none` of the list is a
`socket` that fails; at the end of the list the function has not returned yet. -/
def ipcConnect : List (Option Peer) → Option (Returned (Option (Peer × Conn)))
  | [] => none
  | none :: _ => some ⟨none, []⟩
  | some p :: rest =>
    if p.binds = false then some ⟨none, [.alloc p.fd, .touch (some p.fd), .release (some p.fd)]⟩
    else if p.accepts = false then some ⟨none, [.alloc p.fd, .touch (some p.fd), .release (some p.fd)]⟩
    else
      (ipcClientSync p.conn).bind fun (rc, c) =>
        if rc = 0 then some ⟨some (p, c), [.alloc p.fd, .touch (some p.fd)]⟩
        else
          (ipcConnect rest).map fun r => { r with
            ops := [.alloc p.fd, .touch (some p.fd), .release (some p.fd)] ++ r.ops }

/-- `ipc_client_close`: its result and the connection as it leaves it. -/
def ipcClientClose (c : Conn) (lastError : Int) : Option (Int × Conn) :=
  if lastError = 0 then ipcClientSync c else some (0, c)

/-- `ipc_connect_buf_write`: its result with the connection it used, if any. -/
def ipcConnectBufWrite (peers : List (Option Peer)) (data : List U8) : Option (Returned (Int × Option (Peer × Conn))) :=
  (ipcConnect peers).bind fun r =>
    match r.val with
    | none => some ⟨(-1, none), r.ops⟩
    | some (p, c) =>
      (bioWrite c data).bind fun (rc, c) =>
        (ipcClientClose c rc).map fun (_, c) =>
          ⟨(rc, some (p, c)), r.ops ++ [.touch (some p.fd), .release (some p.fd)]⟩

/-! ### What has been sent -/

variable {c c' : Conn} {rc : Int}

theorem ipcStringWrite_result {str : CString} (returned : ipcStringWrite c str = some (rc, c')) :
    (rc = 0 ∧ c'.sent = c.sent ++ str.frame) ∨ (rc = -1 ∧ ∃ part, part <+: str.frame ∧ c'.sent = c.sent ++ part) := by
  have whole : str.buffer.take (str.chars.length + 1) = str.buffer := by rw [← buffer_length, List.take_length]
  obtain ⟨⟨rc₁, c₁⟩, header, returned⟩ := Option.bind_eq_some_iff.mp returned
  obtain ⟨ok, sent⟩ | ⟨failed, n, _, sent⟩ := bioWrite_result header
  · subst ok
    simp only [ne_eq, not_true_eq_false, if_false, whole] at returned
    obtain ⟨⟨rc₂, c₂⟩, body, same⟩ := Option.map_eq_some_iff.mp returned
    obtain ⟨ok, more⟩ | ⟨failed, n, _, more⟩ := bioWrite_result body
    · subst ok
      cases same
      refine Or.inl ⟨rfl, ?_⟩
      rw [more, sent, CString.frame, List.append_assoc]
    · subst failed
      cases same
      refine Or.inr ⟨rfl, bytes32 (BitVec.ofNat 32 (str.chars.length + 1)) ++ str.buffer.take n, ?_, ?_⟩
      · exact (List.prefix_append_right_inj _).mpr (List.take_prefix _ _)
      · rw [more, sent, List.append_assoc]
  · subst failed
    cases returned
    refine Or.inr ⟨rfl, _, ?_, sent⟩
    exact (List.take_prefix _ _).trans (List.prefix_append _ _)

theorem ipcVarbufRead_sent {data : List U8} {len : Nat} (returned : ipcVarbufRead c = some (rc, data, len, c')) :
    c'.sent = c.sent := by
  obtain ⟨⟨rc₁, len₁, c₁⟩, header, returned⟩ := Option.bind_eq_some_iff.mp returned
  obtain ⟨⟨rc₀, data₀, c₀⟩, read, same⟩ := Option.map_eq_some_iff.mp header
  have first : c₁.sent = c.sent := by
    have kept := bioRead_sent read
    dsimp only at same
    split at same <;> cases same <;> exact kept
  dsimp only at returned
  split at returned
  · cases returned
    exact first
  · obtain ⟨⟨ok, c₂⟩, allocated, returned⟩ := Option.bind_eq_some_iff.mp returned
    have second : c₂.sent = c₁.sent := by
      unfold Conn.malloc at allocated
      split at allocated <;> cases allocated
      rfl
    dsimp only at returned
    split at returned
    · cases returned
      exact second.trans first
    · obtain ⟨⟨rc₃, data₃, c₃⟩, read, same⟩ := Option.map_eq_some_iff.mp returned
      have third := bioRead_sent read
      dsimp only at same
      split at same <;> cases same <;> exact third.trans (second.trans first)

theorem ipcStringRead_sent {sync : Option (List U8)} (returned : ipcStringRead c = some (sync, c')) :
    c'.sent = c.sent := by
  obtain ⟨⟨rc₁, data, len, c₁⟩, read, same⟩ := Option.map_eq_some_iff.mp returned
  have kept := ipcVarbufRead_sent read
  dsimp only at same
  split at same <;> cases same <;> exact kept

theorem ipcClientSync_result (returned : ipcClientSync c = some (rc, c')) :
    (rc = 0 → c'.sent = c.sent ++ syncStr.frame) ∧ ∃ part, part <+: syncStr.frame ∧ c'.sent = c.sent ++ part := by
  obtain ⟨⟨rc₁, c₁⟩, wrote, returned⟩ := Option.bind_eq_some_iff.mp returned
  obtain ⟨ok, sent⟩ | ⟨failed, part, begun, sent⟩ := ipcStringWrite_result wrote
  · subst ok
    simp only [ne_eq, not_true_eq_false, if_false] at returned
    obtain ⟨⟨sync, c₂⟩, read, same⟩ := Option.map_eq_some_iff.mp returned
    have kept := (ipcStringRead_sent read).trans sent
    have last : c' = c₂ := by
      dsimp only at same
      split at same
      · cases same
        rfl
      · split at same <;> cases same <;> rfl
    subst last
    exact ⟨fun _ => kept, _, List.prefix_refl _, kept⟩
  · subst failed
    cases returned
    exact ⟨nofun, part, begun, sent⟩

/-! ### Connecting -/

theorem ipcConnect_result {peers : List (Option Peer)} {r : Returned (Option (Peer × Conn))}
    (returned : ipcConnect peers = some r) :
    (r.val = none ∧ replay [] r.ops = some []) ∨
      ∃ p c, r.val = some (p, c) ∧ some p ∈ peers ∧ p.binds = true ∧ p.accepts = true ∧ c.sent = syncStr.frame ∧
        replay [] r.ops = some [p.fd] := by
  induction peers generalizing r with
  | nil => cases returned
  | cons socket rest ih =>
    cases socket with
    | none =>
      cases returned
      exact Or.inl ⟨rfl, rfl⟩
    | some p =>
      have closed : replay [] [.alloc p.fd, .touch (some p.fd), .release (some p.fd)] = some [] := by simp [run]
      have opened : replay [] [.alloc p.fd, .touch (some p.fd)] = some [p.fd] := by simp [run]
      unfold ipcConnect at returned
      split at returned
      · cases returned
        exact Or.inl ⟨rfl, closed⟩
      · rename_i bound
        split at returned
        · cases returned
          exact Or.inl ⟨rfl, closed⟩
        · rename_i accepted
          obtain ⟨⟨rc, c⟩, synced, returned⟩ := Option.bind_eq_some_iff.mp returned
          dsimp only at returned
          split at returned
          · rename_i ok
            cases returned
            refine Or.inr ⟨p, c, rfl, List.mem_cons_self, by simpa using bound, by simpa using accepted, ?_, opened⟩
            exact (ipcClientSync_result synced).1 ok
          · -- the socket is closed before the next attempt
            obtain ⟨r', again, same⟩ := Option.map_eq_some_iff.mp returned
            subst same
            have before : replay [] ([.alloc p.fd, .touch (some p.fd), .release (some p.fd)] ++ r'.ops) = replay [] r'.ops := by
              rw [replay_append, closed, Option.bind_some]
            obtain ⟨failed, kept⟩ | ⟨p', c', val, member, facts⟩ := ih again
            · exact Or.inl ⟨failed, before.trans kept⟩
            · refine Or.inr ⟨p', c', val, List.mem_cons_of_mem _ member, facts.1, facts.2.1, facts.2.2.1, ?_⟩
              exact before.trans facts.2.2.2

/-! ### Delivery -/

/-- A socket was connected, and between the two `sync` strings the whole buffer was written to it in order. The
second string is only begun when writing it fails. -/
def Delivered (peers : List (Option Peer)) (data : List U8) (link : Option (Peer × Conn)) : Prop :=
  ∃ p c, link = some (p, c) ∧ some p ∈ peers ∧ p.binds = true ∧ p.accepts = true ∧
    ∃ closing, closing <+: syncStr.frame ∧ c.sent = syncStr.frame ++ data ++ closing

theorem ipcClientClose_ok (returned : ipcClientClose c 0 = some (rc, c')) :
    ∃ closing, closing <+: syncStr.frame ∧ c'.sent = c.sent ++ closing :=
  (ipcClientSync_result returned).2

def Retried : Option Peer → Prop
  | none => False
  | some p => p.binds = true ∧ p.accepts = true ∧ ∃ rc c, ipcClientSync p.conn = some (rc, c) ∧ rc ≠ 0

/-- The attempt was refused, or every call of the session on it has come back. -/
def Ends (data : List U8) : Option Peer → Prop
  | none => True
  | some p => p.binds = false ∨ p.accepts = false ∨
      ∃ c rc c', ipcClientSync p.conn = some (0, c) ∧ bioWrite c data = some (rc, c') ∧ (ipcClientClose c' rc).isSome

section Returning

variable {socket : Option Peer} {rest peers : List (Option Peer)} {data : List U8}

theorem not_ends (retried : Retried socket) : ¬ Ends data socket := by
  cases socket with
  | none => exact retried.elim
  | some p =>
    obtain ⟨bound, accepted, rc, c, synced, failed⟩ := retried
    rintro (unbound | refused | ⟨c', rc', c'', synced', -⟩)
    · exact absurd (bound.symm.trans unbound) (by decide)
    · exact absurd (accepted.symm.trans refused) (by decide)
    · rw [synced] at synced'
      cases synced'
      exact failed rfl

theorem connectBufWrite_retried (rest : List (Option Peer)) (data : List U8) (retried : Retried socket) :
    (ipcConnectBufWrite (socket :: rest) data).isSome = (ipcConnectBufWrite rest data).isSome := by
  cases socket with
  | none => exact retried.elim
  | some p =>
    obtain ⟨bound, accepted, rc, c, synced, failed⟩ := retried
    have next : ipcConnect (some p :: rest) = (ipcConnect rest).map fun r => { r with
        ops := [.alloc p.fd, .touch (some p.fd), .release (some p.fd)] ++ r.ops } := by
      rw [ipcConnect, if_neg (by rw [bound]; decide), if_neg (by rw [accepted]; decide), synced, Option.bind_some]
      exact if_neg failed
    unfold ipcConnectBufWrite
    rw [next]
    cases ipcConnect rest with
    | none => rfl
    | some r =>
      rw [Option.map_some, Option.bind_some, Option.bind_some]
      dsimp only
      cases r.val with
      | none => rfl
      | some used =>
        dsimp only
        cases bioWrite used.2 data with
        | none => rfl
        | some wrote =>
          rw [Option.bind_some, Option.bind_some, Option.isSome_map, Option.isSome_map]

theorem connectBufWrite_last (last : ¬ Retried socket) :
    (ipcConnectBufWrite (socket :: rest) data).isSome ↔ Ends data socket := by
  cases socket with
  | none => exact iff_of_true rfl trivial
  | some p =>
    unfold ipcConnectBufWrite ipcConnect
    by_cases unbound : p.binds = false
    · rw [if_pos unbound]
      exact iff_of_true rfl (.inl unbound)
    by_cases refused : p.accepts = false
    · rw [if_neg unbound, if_pos refused]
      exact iff_of_true rfl (.inr (.inl refused))
    rw [if_neg unbound, if_neg refused]
    have ends : Ends data (some p) ↔ ∃ c rc c', ipcClientSync p.conn = some (0, c) ∧ bioWrite c data = some (rc, c') ∧
        (ipcClientClose c' rc).isSome := by
      exact (or_iff_right unbound).trans (or_iff_right refused)
    rw [ends]
    cases synced : ipcClientSync p.conn with
    | none =>
      refine iff_of_false (by simp) ?_
      rintro ⟨_, _, _, none, -⟩
      cases none
    | some result =>
      obtain ⟨rc, c⟩ := result
      have ok : rc = 0 := by
        by_contra failed
        exact last ⟨Bool.eq_true_of_not_eq_false unbound, Bool.eq_true_of_not_eq_false refused, rc, c, synced, failed⟩
      subst ok
      rw [Option.bind_some]
      dsimp only
      rw [if_pos rfl, Option.bind_some]
      dsimp only
      cases wrote : bioWrite c data with
      | none =>
        refine iff_of_false (by simp) ?_
        rintro ⟨_, _, _, same, none, -⟩
        cases same
        rw [wrote] at none
        cases none
      | some result =>
        obtain ⟨rc, c'⟩ := result
        rw [Option.bind_some, Option.isSome_map]
        constructor
        · exact fun closed => ⟨c, rc, c', rfl, wrote, closed⟩
        · rintro ⟨_, _, _, same, same', closed⟩
          cases same
          rw [wrote] at same'
          cases same'
          exact closed

/-- It comes back with the first attempt whose handshake does not fail, if the calls on that one come back. -/
theorem connectBufWrite_isSome_iff :
    (ipcConnectBufWrite peers data).isSome ↔ ∃ before socket after, peers = before ++ socket :: after ∧
      (∀ earlier ∈ before, Retried earlier) ∧ Ends data socket := by
  induction peers with
  | nil =>
    refine iff_of_false (by simp [ipcConnectBufWrite, ipcConnect]) ?_
    rintro ⟨before, socket, after, none, -⟩
    exact List.append_ne_nil_of_right_ne_nil before (List.cons_ne_nil socket after) none.symm
  | cons first rest ih =>
    by_cases retried : Retried first
    · rw [connectBufWrite_retried rest data retried, ih]
      constructor
      · rintro ⟨before, socket, after, rfl, earlier, ends⟩
        exact ⟨first :: before, socket, after, rfl, List.forall_mem_cons.mpr ⟨retried, earlier⟩, ends⟩
      · rintro ⟨before, socket, after, same, earlier, ends⟩
        cases before with
        | nil =>
          cases same
          exact absurd ends (not_ends retried)
        | cons _ before =>
          cases same
          exact ⟨before, socket, after, rfl, fun e member => earlier e (List.mem_cons_of_mem _ member), ends⟩
    · rw [connectBufWrite_last retried]
      constructor
      · exact fun ends => ⟨[], first, rest, rfl, fun _ none => absurd none List.not_mem_nil, ends⟩
      · rintro ⟨before, socket, after, same, earlier, ends⟩
        cases before with
        | nil =>
          cases same
          exact ends
        | cons _ before =>
          cases same
          exact absurd (earlier _ List.mem_cons_self) retried

end Returning

theorem connectBufWrite_result {peers : List (Option Peer)} {data : List U8}
    {r : Returned (Int × Option (Peer × Conn))} (returned : ipcConnectBufWrite peers data = some r) :
    (r.val.1 = 0 ∨ r.val.1 = -1) ∧ (r.val.1 = 0 ↔ Delivered peers data r.val.2) ∧ Disciplined r.ops := by
  rw [disciplined_iff_replay]
  obtain ⟨r₁, connected, returned⟩ := Option.bind_eq_some_iff.mp returned
  obtain ⟨failed, kept⟩ | ⟨p, c, val, member, bound, accepted, synced, opened⟩ := ipcConnect_result connected
  · rw [failed] at returned
    cases returned
    refine ⟨Or.inr rfl, iff_of_false (show ¬ (-1 : Int) = 0 by decide) ?_, kept⟩
    rintro ⟨_, _, same, _⟩
    cases same
  · rw [val] at returned
    obtain ⟨⟨rc, c₁⟩, wrote, returned⟩ := Option.bind_eq_some_iff.mp returned
    obtain ⟨⟨rc', c₂⟩, closed, same⟩ := Option.map_eq_some_iff.mp returned
    subst same
    have ops : replay [] (r₁.ops ++ [.touch (some p.fd), .release (some p.fd)]) = some [] := by
      rw [replay_append, opened]
      simp [run]
    obtain ⟨ok, sent⟩ | ⟨failed, n, part, sent⟩ := bioWrite_result wrote
    · subst ok
      obtain ⟨closing, begun, more⟩ := ipcClientClose_ok closed
      refine ⟨Or.inl rfl, iff_of_true rfl ⟨p, c₂, rfl, member, bound, accepted, closing, begun, ?_⟩, ops⟩
      rw [more, sent, synced]
    · subst failed
      refine ⟨Or.inr rfl, iff_of_false (show ¬ (-1 : Int) = 0 by decide) ?_, ops⟩
      rintro ⟨p', c', same, _, _, _, closing, _, all⟩
      cases same
      have unsynced : c₂ = c₁ := by
        cases closed
        rfl
      rw [unsynced, sent, synced, List.append_assoc, List.append_cancel_left_eq] at all
      have lengths := congrArg List.length all
      rw [List.length_take, List.length_append] at lengths
      omega

/-- Whatever the system calls do: it returns with the first attempt whose handshake does not fail, as soon as the calls
on that one come back. The result is 0 or -1 then, it is 0 exactly when the buffer was delivered, and every socket, also
those of the attempts before, is closed once and not used after that. -/
theorem connect_buf_write_delivers (peers : List (Option Peer)) (data : List U8) :
    ((∃ r, ipcConnectBufWrite peers data = some r) ↔ ∃ before socket after, peers = before ++ socket :: after ∧
      (∀ earlier ∈ before, Retried earlier) ∧ Ends data socket) ∧
    ∀ r, ipcConnectBufWrite peers data = some r →
      (r.val.1 = 0 ∨ r.val.1 = -1) ∧ (r.val.1 = 0 ↔ Delivered peers data r.val.2) ∧ Disciplined r.ops := by
  constructor
  · rw [← Option.isSome_iff_exists]
    exact connectBufWrite_isSome_iff
  · exact fun r returned => connectBufWrite_result returned

/-- A server that takes connections and closes them: the first write on each of them fails. -/
def closingPeer : Peer := ⟨3, true, true, [.failed], [], [], []⟩

theorem connect_retries_for_ever :
    ¬ ∃ n r, ipcConnectBufWrite (List.replicate n (some closingPeer)) [1#8, 2#8, 3#8] = some r := by
  rintro ⟨n, r, returned⟩
  have retried : Retried (some closingPeer) := ⟨rfl, rfl, -1, _, rfl, by decide⟩
  induction n generalizing r with
  | zero => cases returned
  | succ n ih =>
    have later := connectBufWrite_retried (List.replicate n (some closingPeer)) [1#8, 2#8, 3#8] retried
    rw [← List.replicate_succ, returned] at later
    obtain ⟨r', returned'⟩ := Option.isSome_iff_exists.mp later.symm
    exact ih r' returned'

/-- The first socket does not answer `sync`, the second takes the bytes in short writes. -/
def retriedPeers : List (Option Peer) :=
  [some ⟨3, true, true, [.moved 4, .moved 5], [.failed], [], []⟩,
    some ⟨3, true, true, [.moved 9, .moved 9, .again, .moved 2, .moved 9, .failed], [.moved 4, .moved 5], [true],
      syncStr.frame⟩]

theorem connect_buf_write_retries :
    ∃ r, ipcConnectBufWrite retriedPeers [1#8, 2#8, 3#8] = some r ∧ r.val.1 = 0 ∧
      (r.val.1 = 0 ∨ r.val.1 = -1) ∧ (r.val.1 = 0 ↔ Delivered retriedPeers [1#8, 2#8, 3#8] r.val.2) ∧
        Disciplined r.ops := by
  have returned : ipcConnectBufWrite retriedPeers [1#8, 2#8, 3#8] = some _ := rfl
  exact ⟨_, returned, rfl, (connect_buf_write_delivers retriedPeers [1#8, 2#8, 3#8]).2 _ returned⟩

end TwinpassGateway.Ipc
