import TwinpassGateway.Ipc.Dialogue

/-!
A client in `ipc_connect_buf_write` and a server in `ipc_accept_buf_read`, in any interleaving.
-/

namespace TwinpassGateway.Ipc

open Foundation

namespace Dialogue

/-! ### Any number of connections -/

abbrev Socket := Talk U8 (Option Int) (Int × List U8)

variable {data : List U8} {dataLen : Nat}

/-- A connection as `connect` makes it, which the server will accept or has accepted. -/
def connected (data : List U8) (dataLen : Nat) : Socket :=
  { left := ipcConnectBufWrite data, right := ipcAcceptBufRead dataLen }

/-- The connections of one `ipc_connect_buf_write`, the newest first, each with a call of `ipc_accept_buf_read`:
anything can fail on any of them, and where the client could not synchronize it connects again. -/
inductive Event (data : List U8) (dataLen : Nat) : List Socket → List Socket → Prop where
  | goesOn {newer older : List Socket} {s t : Socket} :
      s.Any t → Event data dataLen (newer ++ s :: older) (newer ++ t :: older)
  | retries {older : List Socket} {s : Socket} :
      s.left = .done none → Event data dataLen (s :: older) (connected data dataLen :: s :: older)

structure Tried (data : List U8) (dataLen : Nat) (conns : List Socket) : Prop where
  heard : ∀ s ∈ conns, Talk.Heard (ipcConnectBufWrite data) (ipcAcceptBufRead dataLen) s
  givenUp : ∀ s ∈ conns.tail, s.left = .done none

theorem any_left_done {s t : Socket} {rc : Option Int} (step : s.Any t) (ended : s.left = .done rc) :
    t.left = .done rc := by
  have still : s.advance = none := by
    unfold Talk.advance
    rw [ended]
  have fine : s.fault = none := by
    unfold Talk.fault
    rw [ended]
  obtain (moves | moves) | fails | fails := step
  · exact nomatch still.symm.trans moves
  · exact (Talk.advance_right moves).trans ended
  · exact nomatch fine.symm.trans fails
  · exact (Talk.fault_right fails).trans ended

theorem Tried.step {conns next : List Socket} (tried : Tried data dataLen conns) (event : Event data dataLen conns next) :
    Tried data dataLen next := by
  obtain ⟨heard, givenUp⟩ := tried
  cases event with
  | @goesOn newer older s t step =>
    refine ⟨fun c member => ?_, fun c member => ?_⟩
    · obtain inNewer | rfl | inOlder := by simpa using member
      · exact heard c (by simp [inNewer])
      · exact (heard s (by simp)).any step
      · exact heard c (by simp [inOlder])
    · cases newer with
      | nil => exact givenUp c member
      | cons first newer =>
        obtain inNewer | rfl | inOlder := by simpa using member
        · exact givenUp c (by simp [inNewer])
        · exact any_left_done step (givenUp s (by simp))
        · exact givenUp c (by simp [inOlder])
  | @retries older s ended =>
    refine ⟨fun c member => ?_, fun c member => ?_⟩
    · obtain rfl | before := List.mem_cons.mp member
      · exact Talk.heard_start _ _
      · exact heard c before
    · obtain rfl | inOlder := List.mem_cons.mp member
      · exact ended
      · exact givenUp c inOlder

theorem tried_of_run {conns : List Socket}
    (run : Relation.ReflTransGen (Event data dataLen) [connected data dataLen] conns) : Tried data dataLen conns := by
  induction run with
  | refl => exact ⟨fun s member => by rw [List.mem_singleton.mp member]; exact Talk.heard_start _ _, nofun⟩
  | tail _ event ih => exact ih.step event

/-- A server that succeeds on a connection has the client's bytes, and the client has not given the connection up. -/
theorem heard_success {s : Socket} {buf : List U8}
    (heard : Talk.Heard (ipcConnectBufWrite data) (ipcAcceptBufRead dataLen) s) (success : s.right = .done (0, buf)) :
    buf = (data ++ syncStr.frame).take dataLen ∧ (s.left = .done none → dataLen = 0) := by
  obtain ⟨sentL, gotL, sentR, gotR, client, server, toRight, _⟩ := heard
  obtain ⟨begun, short⟩ := alone_ipcConnectBufWrite client
  rw [success] at server
  have from_ : gotR <+: sentL := by rw [toRight]; exact List.prefix_append _ _
  obtain ⟨same, whole⟩ := server_reads_buffer server from_ begun
  refine ⟨same, fun ended => ?_⟩
  have none_ := (whole.trans (short ended)).length_le
  rw [List.length_append, same, List.length_take, List.length_append, frame_length] at none_
  omega

/-- However the two processes are interleaved, however the connections fail and how often the client tries again: at
most one call of `ipc_accept_buf_read` succeeds, the one on the last connection, and its buffer holds what the client
sends behind its first `sync`. -/
theorem delivered_at_most_once {conns : List Socket} (something : 0 < dataLen)
    (run : Relation.ReflTransGen (Event data dataLen) [connected data dataLen] conns) {newer older : List Socket}
    {s : Socket} {buf : List U8} (among : conns = newer ++ s :: older) (success : s.right = .done (0, buf)) :
    newer = [] ∧ s.left ≠ .done none ∧ buf = (data ++ syncStr.frame).take dataLen := by
  obtain ⟨heard, givenUp⟩ := tried_of_run run
  subst among
  obtain ⟨same, ended⟩ := heard_success (heard s (by simp)) success
  have held : s.left ≠ .done none := fun gone => absurd (ended gone) (Nat.pos_iff_ne_zero.mp something)
  refine ⟨?_, held, same⟩
  cases newer with
  | nil => rfl
  | cons first newer => exact absurd (givenUp s (by simp)) held

/-! ### Runs without failures -/

section Steady

variable {α γ : Type} (r : Party U8 γ) (toRight toLeft : List U8)

theorem steps_bioWrite (buf : List U8) (k : Int → Party U8 α) :
    Steps Talk.Next buf.length ⟨(bioWrite buf).bind k, r, toRight, toLeft⟩ ⟨k 0, r, toRight ++ buf, toLeft⟩ := by
  rw [bioWrite, Party.bind_bind]
  exact Talk.steps_putAll buf (fun all => k (if all then 0 else -1)) r toRight toLeft

theorem steps_bioRead (bytes : List U8) (k : Int × List U8 → Party U8 α) :
    Steps Talk.Next bytes.length ⟨(bioRead bytes.length).bind k, r, toRight, bytes ++ toLeft⟩
      ⟨k (0, bytes), r, toRight, toLeft⟩ := by
  have run := Talk.steps_getAll bytes (fun data => k (if data.length = bytes.length then 0 else -1, data)) r toRight toLeft
  rw [if_pos rfl] at run
  rwa [bioRead, Party.bind_bind]

theorem steps_ipcStringWrite (str : CString) (k : Int → Party U8 α) :
    Steps Talk.Next str.frame.length ⟨(ipcStringWrite str).bind k, r, toRight, toLeft⟩
      ⟨k 0, r, toRight ++ str.frame, toLeft⟩ := by
  have whole : str.buffer.take (str.chars.length + 1) = str.buffer := by rw [← buffer_length, List.take_length]
  have header := steps_bioWrite r toRight toLeft
    (bytes32 (BitVec.ofNat 32 (str.chars.length + 1))) fun rc =>
      (if rc ≠ 0 then Party.done (-1) else (bioWrite str.buffer).bind fun rc => .done (if rc ≠ 0 then -1 else 0)).bind k
  have body := steps_bioWrite r (toRight ++ bytes32 (BitVec.ofNat 32 (str.chars.length + 1)))
    toLeft str.buffer fun rc => k (if rc ≠ 0 then -1 else 0)
  have both := header.trans (by rw [if_neg (by decide), Party.bind_bind]; exact body)
  rw [ipcStringWrite, Party.bind_bind, whole, frame_length, CString.frame, ← List.append_assoc]
  exact both

theorem steps_mallocL (k : Bool → Party U8 α) :
    Steps Talk.Next 1 ⟨mallocL.bind k, r, toRight, toLeft⟩ ⟨k true, r, toRight, toLeft⟩ := .single (Or.inl rfl)

theorem steps_ipcU32Read {header : List U8} (four : header.length = 4) (k : Int × Nat → Party U8 α) :
    Steps Talk.Next 4 ⟨ipcU32Read.bind k, r, toRight, header ++ toLeft⟩
      ⟨k (0, (be32 header).toNat), r, toRight, toLeft⟩ := by
  have run := steps_bioRead r toRight toLeft header fun p =>
    k (if p.1 ≠ 0 then (-1, 0) else (0, (be32 p.2).toNat))
  rw [if_neg (not_not.mpr rfl), four] at run
  rwa [ipcU32Read, Party.bind_bind]

/-- The length is read and memory taken; the loop for the data begins. -/
theorem steps_varbuf_header {header : List U8} (four : header.length = 4) (k : Int × List U8 × Nat → Party U8 α) :
    Steps Talk.Next 5 ⟨ipcVarbufRead.bind k, r, toRight, header ++ toLeft⟩
      ⟨(bioRead (be32 header).toNat).bind fun p =>
          k (if p.1 ≠ 0 then (-1, [], (be32 header).toNat) else (0, p.2, (be32 header).toNat)), r, toRight, toLeft⟩ := by
  have first := steps_ipcU32Read r toRight toLeft four fun p =>
    (if p.1 ≠ 0 then Party.done (-1, [], p.2)
      else mallocL.bind fun ok =>
        if ok = false then .done (-1, [], p.2)
        else (bioRead p.2).bind fun q => .done (if q.1 ≠ 0 then (-1, [], p.2) else (0, q.2, p.2))).bind k
  rw [if_neg (not_not.mpr rfl), Party.bind_bind] at first
  have second := steps_mallocL r toRight toLeft fun ok =>
    (if ok = false then Party.done (-1, [], (be32 header).toNat)
      else (bioRead (be32 header).toNat).bind fun q =>
        .done (if q.1 ≠ 0 then (-1, [], (be32 header).toNat) else (0, q.2, (be32 header).toNat))).bind k
  rw [if_neg (by decide), Party.bind_bind] at second
  rw [ipcVarbufRead, Party.bind_bind]
  exact first.trans second

theorem steps_ipcVarbufRead {header body : List U8} (four : header.length = 4)
    (size : (be32 header).toNat = body.length) (k : Int × List U8 × Nat → Party U8 α) :
    Steps Talk.Next (5 + body.length) ⟨ipcVarbufRead.bind k, r, toRight, header ++ (body ++ toLeft)⟩
      ⟨k (0, body, body.length), r, toRight, toLeft⟩ := by
  have first := steps_varbuf_header r toRight (body ++ toLeft) four k
  have second := steps_bioRead r toRight toLeft body fun p =>
    k (if p.1 ≠ 0 then (-1, [], body.length) else (0, p.2, body.length))
  rw [if_neg (not_not.mpr rfl)] at second
  rw [size] at first
  exact first.trans second

theorem steps_ipcStringRead (str : CString) (k : Option (List U8) → Party U8 α) :
    Steps Talk.Next (str.frame.length + 1) ⟨ipcStringRead.bind k, r, toRight, str.frame ++ toLeft⟩
      ⟨k (some str.buffer), r, toRight, toLeft⟩ := by
  have size : (be32 (bytes32 (BitVec.ofNat 32 (str.chars.length + 1)))).toNat = str.buffer.length := by
    have fits := str.fits
    rw [be32_bytes32, BitVec.toNat_ofNat, buffer_length, Nat.mod_eq_of_lt (by omega)]
  have run := steps_ipcVarbufRead r toRight toLeft (bytes32_length _) size fun p =>
    k (if p.1 ≠ 0 ∨ p.2.2 = 0 then none else some (p.2.1.set (p.2.2 - 1) 0#8))
  have last : str.buffer.set (str.buffer.length - 1) 0#8 = str.buffer := by
    rw [buffer_length, Nat.add_sub_cancel, buffer_set]
  have filled : ¬ ((0 : Int) ≠ 0 ∨ str.buffer.length = 0) := by
    rw [buffer_length]
    omega
  rw [if_neg filled, last] at run
  have count : str.frame.length + 1 = 5 + str.buffer.length := by rw [frame_length]; omega
  rw [ipcStringRead, Party.bind_bind, count, CString.frame, List.append_assoc]
  exact run

theorem isSync_buffer : isSync (some syncStr.buffer) = true := by decide

/-- What is left of the client's `ipc_client_sync` once it has written. -/
def awaitSync : Party U8 Int := ipcStringRead.bind fun sync => .done (if isSync sync then 0 else -1)

theorem steps_ipcClientSync (k : Int → Party U8 α) :
    Steps Talk.Next 9 ⟨ipcClientSync.bind k, r, toRight, toLeft⟩
      ⟨awaitSync.bind k, r, toRight ++ syncStr.frame, toLeft⟩ := by
  have run := steps_ipcStringWrite r toRight toLeft syncStr fun rc =>
    (if rc ≠ 0 then Party.done (-1)
      else ipcStringRead.bind fun sync => .done (if isSync sync then 0 else -1)).bind k
  rw [if_neg (by decide)] at run
  rw [ipcClientSync, Party.bind_bind]
  exact run

theorem steps_awaitSync (k : Int → Party U8 α) :
    Steps Talk.Next 10 ⟨awaitSync.bind k, r, toRight, syncStr.frame ++ toLeft⟩ ⟨k 0, r, toRight, toLeft⟩ := by
  have run := steps_ipcStringRead r toRight toLeft syncStr fun sync =>
    k (if isSync sync then 0 else -1)
  rw [if_pos isSync_buffer] at run
  rw [awaitSync, Party.bind_bind]
  exact run

theorem steps_ipcServerSync (k : Int → Party U8 α) :
    Steps Talk.Next 19 ⟨ipcServerSync.bind k, r, toRight, syncStr.frame ++ toLeft⟩
      ⟨k 0, r, toRight ++ syncStr.frame, toLeft⟩ := by
  have first := steps_ipcStringRead r toRight toLeft syncStr fun sync =>
    (if isSync sync then (ipcStringWrite syncStr).bind fun rc => .done (if rc ≠ 0 then -1 else 0)
      else Party.done (-1)).bind k
  rw [if_pos isSync_buffer, Party.bind_bind] at first
  have second := steps_ipcStringWrite r toRight toLeft syncStr fun rc =>
    k (if rc ≠ 0 then -1 else 0)
  rw [if_neg (by decide)] at second
  rw [ipcServerSync, Party.bind_bind]
  exact first.trans second

end Steady

/-! ### The ends of the runs -/

/-- The client behind `ipc_connect`, once the buffer is written. -/
def closeClient (rc : Int) : Party U8 (Option Int) := (ipcClientClose rc).bind fun _ => .done (some rc)

def closeServer (p : Int × List U8) : Party U8 (Int × List U8) := (ipcServerClose p.1).bind fun _ => .done p

theorem steps_connected (data : List U8) (dataLen : Nat) :
    Steps Talk.Next 38 (connected data dataLen)
      ⟨(bioWrite data).bind closeClient, (bioRead dataLen).bind closeServer, [], []⟩ := by
  have asks := steps_ipcClientSync (ipcAcceptBufRead dataLen) [] [] fun rc =>
    if rc ≠ 0 then Party.done none else (bioWrite data).bind closeClient
  have answers := steps_ipcServerSync (awaitSync.bind fun rc =>
      if rc ≠ 0 then Party.done none else (bioWrite data).bind closeClient) [] [] fun rc =>
    (Party.done (if rc ≠ 0 then -1 else 0)).bind fun rc : Int =>
      if rc ≠ 0 then Party.done (-1, []) else (bioRead dataLen).bind closeServer
  have goesOn := steps_awaitSync ((bioRead dataLen).bind closeServer) [] [] fun rc =>
    if rc ≠ 0 then Party.done none else (bioWrite data).bind closeClient
  rw [← Party.bind_bind] at answers
  exact (asks.trans (Talk.steps_swap answers)).trans goesOn

theorem steps_written (data : List U8) (dataLen : Nat) :
    Steps Talk.Next (38 + data.length + 9) (connected data dataLen)
      ⟨awaitSync.bind fun _ => .done (some (0 : Int)), (bioRead dataLen).bind closeServer, data ++ syncStr.frame, []⟩ := by
  have writes := steps_bioWrite ((bioRead dataLen).bind closeServer) [] [] data closeClient
  have closes := steps_ipcClientSync ((bioRead dataLen).bind closeServer) data []
    fun _ => Party.done (some (0 : Int))
  exact ((steps_connected data dataLen).trans writes).trans closes

theorem steps_delivered (data : List U8) :
    Steps Talk.Next (2 * data.length + 76) (connected data data.length)
      ⟨.done (some 0), .done (0, data), [], []⟩ := by
  have reads := steps_bioRead (awaitSync.bind fun _ => .done (some (0 : Int))) []
    syncStr.frame data closeServer
  have answers := steps_ipcServerSync (awaitSync.bind fun _ => .done (some (0 : Int))) [] []
    fun _ => .done ((0 : Int), data)
  have ends := steps_awaitSync (.done ((0 : Int), data)) [] [] fun _ => .done (some (0 : Int))
  have all := (((steps_written data data.length).trans (Talk.steps_swap reads)).trans (Talk.steps_swap answers)).trans ends
  rwa [show 38 + data.length + 9 + data.length + 19 + 10 = 2 * data.length + 76 by omega] at all

/-- Without failures, and when the server asks for as many bytes as the client has: every run, however the two are
interleaved, ends after the same number of steps with both calls successful and the buffer delivered. -/
theorem delivery_completes (data : List U8) {m : Nat} {s : Socket}
    (run : Steps Talk.Next m (connected data data.length) s) :
    ∃ k, 2 * data.length + 76 = m + k ∧ Steps Talk.Next k s ⟨.done (some 0), .done (0, data), [], []⟩ :=
  Talk.next_diamond.run_to_end (steps_delivered data) (fun _ => Talk.finished_stuck rfl rfl) run

theorem delivery_completes_abc : ∃ k, 82 = 0 + k ∧
    Steps Talk.Next k (connected [1#8, 2#8, 3#8] 3) ⟨.done (some 0), .done (0, [1#8, 2#8, 3#8]), [], []⟩ :=
  delivery_completes [1#8, 2#8, 3#8] (.refl _)

theorem events_of_steps {s t : Socket} {older : List Socket} {k : Nat} (run : Steps Talk.Next k s t) :
    Relation.ReflTransGen (Event data dataLen) (s :: older) (t :: older) := by
  induction run with
  | refl s => exact .refl
  | @head _ s t _ step _ ih =>
    have first : Event data dataLen ([] ++ s :: older) ([] ++ t :: older) := .goesOn (Or.inl step)
    exact .head first ih

/-- The client's first byte is not written, so it connects again; then all goes well. -/
theorem delivered_second_time :
    ∃ s older, Relation.ReflTransGen (Event [1#8, 2#8, 3#8] 3) [connected [1#8, 2#8, 3#8] 3] (s :: older) ∧
      older.length = 1 ∧ s.right = .done (0, [1#8, 2#8, 3#8]) ∧
      (([] : List Socket) = [] ∧ s.left ≠ .done none ∧ [1#8, 2#8, 3#8] = ([1#8, 2#8, 3#8] ++ syncStr.frame).take 3) := by
  let first : Socket := { connected [1#8, 2#8, 3#8] 3 with left := .done none }
  have fails : (connected [1#8, 2#8, 3#8] 3).Any first := Or.inr (Or.inl rfl)
  have breaks : Event [1#8, 2#8, 3#8] 3 ([] ++ [connected [1#8, 2#8, 3#8] 3]) ([] ++ [first]) := .goesOn fails
  have again : Relation.ReflTransGen (Event [1#8, 2#8, 3#8] 3) [connected [1#8, 2#8, 3#8] 3]
      (connected [1#8, 2#8, 3#8] 3 :: [first]) :=
    .tail (.single breaks) (.retries rfl)
  have run := again.trans (events_of_steps (steps_delivered [1#8, 2#8, 3#8]))
  exact ⟨_, _, run, rfl, rfl, delivered_at_most_once (by decide) run (List.nil_append _).symm rfl⟩

/-! ### A server that asks for too much -/

section TooLong

variable {γ : Type} {r : Party U8 γ} {toRight : List U8}

theorem bioRead_waits {α : Type} {s : Talk U8 α γ} {j n : Nat} {bytes : List U8} {k : Int × List U8 → Party U8 α}
    (before : Steps Talk.Next j s ⟨(bioRead n).bind k, r, toRight, bytes⟩) (few : bytes.length < n) :
    ∃ next failed, Steps Talk.Next (j + bytes.length) s ⟨.get next failed, r, toRight, []⟩ := by
  rw [bioRead, Party.bind_bind] at before
  obtain ⟨next, failed, waits⟩ := Talk.steps_getAll_few few (fun data => k (if data.length = n then 0 else -1, data)) r
    toRight
  exact ⟨next, failed, before.trans waits⟩

/-- Of a string only the header is there, or less. -/
theorem ipcStringRead_waits {α : Type} {s : Talk U8 α γ} {j : Nat} {bytes : List U8} {k : Option (List U8) → Party U8 α}
    (before : Steps Talk.Next j s ⟨ipcStringRead.bind k, r, toRight, bytes⟩)
    (few : 4 ≤ bytes.length → bytes.length - 4 < (be32 (bytes.take 4)).toNat) :
    ∃ n next failed, Steps Talk.Next n s ⟨.get next failed, r, toRight, []⟩ := by
  rw [ipcStringRead, Party.bind_bind] at before
  by_cases header : 4 ≤ bytes.length
  · have four : (bytes.take 4).length = 4 := List.length_take_of_le header
    rw [← List.take_append_drop 4 bytes] at before
    obtain ⟨next, failed, waits⟩ := bioRead_waits (before.trans (steps_varbuf_header _ _ _ four _))
      (by rw [List.length_drop]; exact few header)
    exact ⟨_, next, failed, waits⟩
  · rw [ipcVarbufRead, Party.bind_bind, ipcU32Read, Party.bind_bind] at before
    obtain ⟨next, failed, waits⟩ := bioRead_waits before (by omega)
    exact ⟨_, next, failed, waits⟩

/-- What is left of a frame behind its first bytes is not a string: the length it begins with is beyond its end. -/
theorem sync_rest_short (n : Nat) (some_ : 0 < n) (few : 4 ≤ (syncStr.frame.drop n).length) :
    (syncStr.frame.drop n).length - 4 < (be32 ((syncStr.frame.drop n).take 4)).toNat := by
  have size : syncStr.frame.length = 9 := by decide
  have upTo : n ≤ 5 := by
    rw [List.length_drop, size] at few
    omega
  interval_cases n <;> decide

/-- The server, seen as the left party, takes all there is and waits. -/
theorem server_waits (data : List U8) {dataLen : Nat} (more : data.length < dataLen) {γ : Type} (r : Party U8 γ) :
    ∃ n next failed, Steps Talk.Next n ⟨(bioRead dataLen).bind closeServer, r, [], data ++ syncStr.frame⟩
      ⟨.get next failed, r, [], []⟩ := by
  by_cases short : (data ++ syncStr.frame).length < dataLen
  · obtain ⟨next, failed, waits⟩ := bioRead_waits (.refl _) short
    exact ⟨_, next, failed, waits⟩
  · -- the buffer is filled with the beginning of `sync`, and the rest of it is taken for a string
    obtain ⟨j, rfl⟩ := Nat.exists_eq_add_of_lt more
    have front : (data ++ syncStr.frame).take (data.length + j + 1) ++ syncStr.frame.drop (j + 1) =
        data ++ syncStr.frame := by
      rw [Nat.add_assoc, List.take_append, List.append_assoc]
      simp
    have size : ((data ++ syncStr.frame).take (data.length + j + 1)).length = data.length + j + 1 :=
      List.length_take_of_le (not_lt.mp short)
    have reads := steps_bioRead r [] (syncStr.frame.drop (j + 1))
      ((data ++ syncStr.frame).take (data.length + j + 1)) closeServer
    rw [size, front, closeServer, ipcServerClose, if_pos rfl, ipcServerSync, Party.bind_bind] at reads
    obtain ⟨n, next, failed, waits⟩ := ipcStringRead_waits reads (sync_rest_short (j + 1) (Nat.succ_pos j))
    exact ⟨n, next, failed, waits⟩

end TooLong

/-- Without failures, and when the server asks for more bytes than the client has: every run ends after the same number
of steps with both calls waiting for the other, and nothing on its way. -/
theorem too_long_read_deadlocks (data : List U8) {dataLen : Nat} (more : data.length < dataLen) :
    ∃ n, ∃ last : Socket, last.Deadlock ∧
      ∀ m s, Steps Talk.Next m (connected data dataLen) s → ∃ k, n = m + k ∧ Steps Talk.Next k s last := by
  obtain ⟨j, next, failed, waits⟩ := server_waits data more (awaitSync.bind fun _ => Party.done (some (0 : Int)))
  have dead : Talk.Deadlock (Talk.swap ⟨.get next failed, awaitSync.bind fun _ => Party.done (some (0 : Int)), [], []⟩) :=
    ⟨⟨_, _, rfl⟩, ⟨next, failed, rfl⟩, rfl, rfl⟩
  have whole := (steps_written data dataLen).trans (Talk.steps_swap waits)
  exact ⟨_, _, dead, fun m s run => Talk.next_diamond.run_to_end whole (fun _ => dead.stuck) run⟩

theorem too_long_read_deadlocks_abc :
    ∃ n, ∃ last : Socket, last.Deadlock ∧
      ∀ m s, Steps Talk.Next m (connected [1#8, 2#8, 3#8] 5) s → ∃ k, n = m + k ∧ Steps Talk.Next k s last :=
  too_long_read_deadlocks [1#8, 2#8, 3#8] (by decide)

end Dialogue

end TwinpassGateway.Ipc
