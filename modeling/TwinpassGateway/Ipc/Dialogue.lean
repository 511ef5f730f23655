import TwinpassGateway.Foundation.Dialogue
import TwinpassGateway.Ipc.Connect

/-!
The two ends of a delivery with `ipc.c`, `ipc_connect_buf_write` and `ipc_accept_buf_read`, each as the tree of what it
does with its socket next.
-/

namespace TwinpassGateway.Ipc

open Foundation

namespace Dialogue

def bioWrite (buf : List U8) : Party U8 Int := (Party.putAll buf).bind fun all => .done (if all then 0 else -1)

def bioRead (count : Nat) : Party U8 (Int × List U8) :=
  (Party.getAll count).bind fun data => .done (if data.length = count then 0 else -1, data)

def mallocL : Party U8 Bool := .act (.done true) (.done false)

def ipcU32Read : Party U8 (Int × Nat) :=
  (bioRead 4).bind fun (rc, data) => .done (if rc ≠ 0 then (-1, 0) else (0, (be32 data).toNat))

def ipcU32Write (n : Nat) : Party U8 Int := bioWrite (bytes32 (BitVec.ofNat 32 n))

/-- `ipc_varbuf_read`: the result, the data and their length. -/
def ipcVarbufRead : Party U8 (Int × List U8 × Nat) :=
  ipcU32Read.bind fun (rc, len) =>
    if rc ≠ 0 then .done (-1, [], len)
    else
      mallocL.bind fun ok =>
        if ok = false then .done (-1, [], len)
        else (bioRead len).bind fun (rc, data) => .done (if rc ≠ 0 then (-1, [], len) else (0, data, len))

/-- `ipc_string_read`: the buffer it returns, `none` for the null pointer. -/
def ipcStringRead : Party U8 (Option (List U8)) :=
  ipcVarbufRead.bind fun (rc, data, len) =>
    .done (if rc ≠ 0 ∨ len = 0 then none else some (data.set (len - 1) 0#8))

def ipcStringWrite (str : CString) : Party U8 Int :=
  let len := str.chars.length + 1
  (ipcU32Write len).bind fun rc =>
    if rc ≠ 0 then .done (-1) else (bioWrite (str.buffer.take len)).bind fun rc => .done (if rc ≠ 0 then -1 else 0)

/-- `!sync || strcmp(sync, SYNC_STR)`. -/
def isSync : Option (List U8) → Bool
  | none => false
  | some buffer => strOf buffer = syncStr.chars

def ipcClientSync : Party U8 Int :=
  (ipcStringWrite syncStr).bind fun rc =>
    if rc ≠ 0 then .done (-1) else ipcStringRead.bind fun sync => .done (if isSync sync then 0 else -1)

def ipcServerSync : Party U8 Int :=
  ipcStringRead.bind fun sync =>
    if isSync sync then (ipcStringWrite syncStr).bind fun rc => .done (if rc ≠ 0 then -1 else 0) else .done (-1)

def ipcClientClose (lastError : Int) : Party U8 Int := if lastError = 0 then ipcClientSync else .done 0

def ipcServerClose (lastError : Int) : Party U8 Int := if lastError = 0 then ipcServerSync else .done 0

/-- One connection of `ipc_connect_buf_write`: its result, or `none` when `ipc_connect` tries again. -/
def ipcConnectBufWrite (data : List U8) : Party U8 (Option Int) :=
  ipcClientSync.bind fun rc =>
    if rc ≠ 0 then .done none
    else (bioWrite data).bind fun rc => (ipcClientClose rc).bind fun _ => .done (some rc)

/-- `ipc_accept` behind `bio_accept`; 0 stands for the descriptor. -/
def ipcAccept : Party U8 Int := ipcServerSync.bind fun rc => .done (if rc ≠ 0 then -1 else 0)

/-- `ipc_accept_buf_read` behind `bio_accept`: its result and what it has stored. -/
def ipcAcceptBufRead (dataLen : Nat) : Party U8 (Int × List U8) :=
  ipcAccept.bind fun rc =>
    if rc ≠ 0 then .done (-1, [])
    else (bioRead dataLen).bind fun (rc, data) => (ipcServerClose rc).bind fun _ => .done (rc, data)

/-! ### The calls on a connection -/

section Calls

variable {c c' : Conn} {rc : Int}

theorem bioWrite_alone {buf : List U8} (returned : Ipc.bioWrite c buf = some (rc, c')) :
    ∃ sent, Party.Alone (bioWrite buf) sent [] (.done rc) ∧ c'.sent = c.sent ++ sent ∧ c'.wire = c.wire := by
  have wire : c'.wire = c.wire := by
    obtain ⟨_, _, same⟩ := Option.map_eq_some_iff.mp returned
    cases same
    rfl
  obtain ⟨rfl, sent⟩ | ⟨rfl, n, part, sent⟩ := bioWrite_result returned
  · refine ⟨buf, ?_, sent, wire⟩
    have all := (Party.putAll_alone buf).bind (k := fun all => .done (if all then (0 : Int) else -1)) (.stop _)
    rwa [List.append_nil] at all
  · refine ⟨buf.take n, ?_, sent, wire⟩
    have some_ := (Party.putAll_alone_part part).bind (k := fun all => .done (if all then (0 : Int) else -1)) (.stop _)
    rwa [List.append_nil] at some_

theorem readLoop_result {count available : Nat} {attempts left : List Attempt} {start total : Nat}
    (within : start ≤ count) (there : start ≤ available)
    (returned : readLoop count available attempts start = some (rc, left, total)) :
    total ≤ count ∧ total ≤ available ∧ rc = if total = count then 0 else -1 := by
  induction attempts generalizing start with
  | nil =>
    unfold readLoop at returned
    split at returned
    · cases returned
    · rename_i all
      cases returned
      obtain rfl := not_not.mp all
      exact ⟨Nat.le_refl _, there, (if_pos rfl).symm⟩
  | cons a rest ih =>
    unfold readLoop at returned
    split at returned
    · rename_i more
      cases a with
      | again => exact ih within there returned
      | failed =>
        cases returned
        exact ⟨within, there, (if_neg more).symm⟩
      | moved n =>
        dsimp only at returned
        split at returned
        · cases returned
          exact ⟨within, there, (if_neg more).symm⟩
        · exact ih (by omega) (by omega) returned
    · rename_i all
      cases returned
      obtain rfl := not_not.mp all
      exact ⟨Nat.le_refl _, there, (if_pos rfl).symm⟩

theorem bioRead_alone {count : Nat} {data : List U8} (returned : Ipc.bioRead c count = some (rc, data, c')) :
    Party.Alone (bioRead count) [] data (.done (rc, data)) ∧ c'.sent = c.sent ∧ c.wire = data ++ c'.wire := by
  obtain ⟨⟨rc', left, total⟩, looped, same⟩ := Option.map_eq_some_iff.mp returned
  cases same
  obtain ⟨within, there, result⟩ := readLoop_result (Nat.zero_le _) (Nat.zero_le _) looped
  have size : (c.wire.take total).length = total := List.length_take_of_le there
  refine ⟨?_, rfl, (List.take_append_drop total c.wire).symm⟩
  have got : Party.Alone (Party.getAll count) [] (c.wire.take total) (.done (c.wire.take total)) :=
    Party.getAll_alone (by rw [size]; exact within)
  have whole := got.bind (k := fun data => .done (if data.length = count then (0 : Int) else -1, data)) (.stop _)
  rwa [List.append_nil, List.append_nil, size, ← result] at whole

theorem ipcU32Read_alone {n : Nat} (returned : Ipc.ipcU32Read c = some (rc, n, c')) :
    ∃ got, Party.Alone ipcU32Read [] got (.done (rc, n)) ∧ c'.sent = c.sent ∧ c.wire = got ++ c'.wire := by
  obtain ⟨⟨rc', data, c₁⟩, read, same⟩ := Option.map_eq_some_iff.mp returned
  obtain ⟨alone, sent, wire⟩ := bioRead_alone read
  have ends : c₁ = c' ∧ (if rc' ≠ 0 then ((-1 : Int), 0) else (0, (be32 data).toNat)) = (rc, n) := by
    dsimp only at same
    split at same <;> cases same <;> exact ⟨rfl, by simp [*]⟩
  obtain ⟨rfl, result⟩ := ends
  refine ⟨data, ?_, sent, wire⟩
  have whole := alone.bind (k := fun p => .done (if p.1 ≠ 0 then ((-1 : Int), 0) else (0, (be32 p.2).toNat))) (.stop _)
  rwa [List.append_nil, List.append_nil, result] at whole

theorem malloc_alone {ok : Bool} (returned : c.malloc = some (ok, c')) :
    Party.Alone mallocL [] [] (.done ok) ∧ c'.sent = c.sent ∧ c'.wire = c.wire := by
  unfold Conn.malloc at returned
  split at returned
  · cases returned
  · cases returned
    refine ⟨?_, rfl, rfl⟩
    cases ok with
    | true => exact .act (.stop _)
    | false => exact .actFails (.stop _)

theorem ipcVarbufRead_alone {data : List U8} {n : Nat} (returned : Ipc.ipcVarbufRead c = some (rc, data, n, c')) :
    ∃ got, Party.Alone ipcVarbufRead [] got (.done (rc, data, n)) ∧ c'.sent = c.sent ∧ c.wire = got ++ c'.wire := by
  obtain ⟨⟨rc₁, len, c₁⟩, header, returned⟩ := Option.bind_eq_some_iff.mp returned
  obtain ⟨got, alone, sent, wire⟩ := ipcU32Read_alone header
  suffices rest : ∃ more, Party.Alone (if rc₁ ≠ 0 then .done (-1, [], len)
      else mallocL.bind fun ok =>
        if ok = false then .done (-1, [], len)
        else (bioRead len).bind fun p => .done (if p.1 ≠ 0 then (-1, [], len) else (0, p.2, len)))
      [] more (.done (rc, data, n)) ∧ c'.sent = c₁.sent ∧ c₁.wire = more ++ c'.wire by
    obtain ⟨more, later, sent', wire'⟩ := rest
    exact ⟨got ++ more, alone.bind later, sent'.trans sent, by rw [wire, wire', List.append_assoc]⟩
  dsimp only at returned
  by_cases failed : rc₁ ≠ 0
  · rw [if_pos failed] at returned ⊢
    cases returned
    exact ⟨[], .stop _, rfl, rfl⟩
  · rw [if_neg failed] at returned ⊢
    obtain ⟨⟨ok, c₂⟩, allocated, returned⟩ := Option.bind_eq_some_iff.mp returned
    obtain ⟨memory, sent₂, wire₂⟩ := malloc_alone allocated
    rw [← sent₂, ← wire₂]
    dsimp only at returned
    cases ok with
    | false =>
      cases returned
      exact ⟨[], memory.bind (.stop _), rfl, rfl⟩
    | true =>
      obtain ⟨⟨rc₃, body, c₃⟩, read, same⟩ := Option.map_eq_some_iff.mp returned
      obtain ⟨alone₃, sent₃, wire₃⟩ := bioRead_alone read
      have ends : c₃ = c' ∧ (if rc₃ ≠ 0 then ((-1 : Int), [], len) else (0, body, len)) = (rc, data, n) := by
        dsimp only at same
        split at same <;> cases same <;> exact ⟨rfl, by simp [*]⟩
      obtain ⟨rfl, result⟩ := ends
      refine ⟨body, ?_, sent₃, wire₃⟩
      have last := alone₃.bind (k := fun p => .done (if p.1 ≠ 0 then ((-1 : Int), [], len) else (0, p.2, len))) (.stop _)
      rw [List.append_nil, List.append_nil, result] at last
      exact memory.bind last

theorem ipcStringRead_alone {sync : Option (List U8)} (returned : Ipc.ipcStringRead c = some (sync, c')) :
    ∃ got, Party.Alone ipcStringRead [] got (.done sync) ∧ c'.sent = c.sent ∧ c.wire = got ++ c'.wire := by
  obtain ⟨⟨rc, data, len, c₁⟩, read, same⟩ := Option.map_eq_some_iff.mp returned
  obtain ⟨got, alone, sent, wire⟩ := ipcVarbufRead_alone read
  have ends : c₁ = c' ∧ (if rc ≠ 0 ∨ len = 0 then none else some (data.set (len - 1) 0#8)) = sync := by
    dsimp only at same
    split at same <;> cases same <;> exact ⟨rfl, by simp [*]⟩
  obtain ⟨rfl, result⟩ := ends
  refine ⟨got, ?_, sent, wire⟩
  have whole := alone.bind
    (k := fun p => .done (if p.1 ≠ 0 ∨ p.2.2 = 0 then none else some (p.2.1.set (p.2.2 - 1) 0#8))) (.stop _)
  rwa [List.append_nil, List.append_nil, result] at whole

theorem ipcStringWrite_alone {str : CString} (returned : Ipc.ipcStringWrite c str = some (rc, c')) :
    ∃ sent, Party.Alone (ipcStringWrite str) sent [] (.done rc) ∧ c'.sent = c.sent ++ sent ∧ c'.wire = c.wire := by
  obtain ⟨⟨rc₁, c₁⟩, header, returned⟩ := Option.bind_eq_some_iff.mp returned
  obtain ⟨sent₁, alone₁, more₁, wire₁⟩ := bioWrite_alone header
  dsimp only at returned
  by_cases failed : rc₁ ≠ 0
  · rw [if_pos failed] at returned
    cases returned
    refine ⟨sent₁, ?_, more₁, wire₁⟩
    have whole := alone₁.bind (k := fun rc => if rc ≠ 0 then .done (-1)
      else (bioWrite (str.buffer.take (str.chars.length + 1))).bind fun rc => .done (if rc ≠ 0 then (-1 : Int) else 0))
      (by rw [if_pos failed]; exact .stop _)
    rwa [List.append_nil] at whole
  · rw [if_neg failed] at returned
    obtain ⟨⟨rc₂, c₂⟩, body, same⟩ := Option.map_eq_some_iff.mp returned
    obtain ⟨sent₂, alone₂, more₂, wire₂⟩ := bioWrite_alone body
    have ends : c₂ = c' ∧ (if rc₂ ≠ 0 then (-1 : Int) else 0) = rc := by
      dsimp only at same
      split at same <;> cases same <;> exact ⟨rfl, by simp [*]⟩
    obtain ⟨rfl, result⟩ := ends
    refine ⟨sent₁ ++ sent₂, ?_, by rw [more₂, more₁, List.append_assoc], wire₂.trans wire₁⟩
    have last := alone₂.bind (k := fun rc => .done (if rc ≠ 0 then (-1 : Int) else 0)) (.stop _)
    rw [List.append_nil, result] at last
    exact alone₁.bind (by rw [if_neg failed]; exact last)

theorem ipcClientSync_alone (returned : Ipc.ipcClientSync c = some (rc, c')) :
    ∃ sent got, Party.Alone ipcClientSync sent got (.done rc) ∧ c'.sent = c.sent ++ sent ∧ c.wire = got ++ c'.wire := by
  obtain ⟨⟨rc₁, c₁⟩, wrote, returned⟩ := Option.bind_eq_some_iff.mp returned
  obtain ⟨sent, alone₁, more, wire₁⟩ := ipcStringWrite_alone wrote
  dsimp only at returned
  by_cases failed : rc₁ ≠ 0
  · rw [if_pos failed] at returned
    cases returned
    have whole := alone₁.bind (k := fun rc => if rc ≠ 0 then .done (-1)
      else ipcStringRead.bind fun sync => .done (if isSync sync then (0 : Int) else -1))
      (by rw [if_pos failed]; exact .stop _)
    rw [List.append_nil] at whole
    exact ⟨sent, [], whole, more, wire₁.symm⟩
  · rw [if_neg failed] at returned
    obtain ⟨⟨sync, c₂⟩, read, same⟩ := Option.map_eq_some_iff.mp returned
    obtain ⟨got, alone₂, kept, wire₂⟩ := ipcStringRead_alone read
    have ends : c₂ = c' ∧ (if isSync sync then (0 : Int) else -1) = rc := by
      cases sync with
      | none =>
        cases same
        exact ⟨rfl, rfl⟩
      | some buffer =>
        dsimp only at same
        split at same <;> cases same <;> exact ⟨rfl, by simp_all [isSync]⟩
    obtain ⟨rfl, result⟩ := ends
    have last := alone₂.bind (k := fun sync => .done (if isSync sync then (0 : Int) else -1)) (.stop _)
    rw [List.append_nil, result] at last
    have whole := alone₁.bind (k := fun rc => if rc ≠ 0 then .done (-1)
      else ipcStringRead.bind fun sync => .done (if isSync sync then (0 : Int) else -1))
      (by rw [if_neg failed]; exact last)
    rw [List.append_nil, List.nil_append, List.append_nil] at whole
    exact ⟨sent, got, whole, kept.trans more, wire₁.symm.trans wire₂⟩

theorem ipcConnect_synced {peers : List (Option Peer)} {r : Returned (Option (Peer × Conn))} {p : Peer}
    (returned : ipcConnect peers = some r) (val : r.val = some (p, c)) : Ipc.ipcClientSync p.conn = some (0, c) := by
  induction peers generalizing r with
  | nil => cases returned
  | cons socket rest ih =>
    unfold ipcConnect at returned
    split at returned
    · cases returned
    · cases returned
      cases val
    · rename_i p' rest' same
      cases same
      split at returned
      · cases returned
        cases val
      · split at returned
        · cases returned
          cases val
        · obtain ⟨⟨rc, c₁⟩, synced, returned⟩ := Option.bind_eq_some_iff.mp returned
          dsimp only at returned
          split at returned
          · rename_i ok
            cases returned
            cases val
            rw [synced, ok]
          · obtain ⟨r', again, same⟩ := Option.map_eq_some_iff.mp returned
            cases same
            exact ih again val

/-- What the model with given answers of the system calls does on its last socket, the tree can do. -/
theorem ipcConnectBufWrite_alone {peers : List (Option Peer)} {data : List U8} {p : Peer}
    {r : Returned (Int × Option (Peer × Conn))} (returned : Ipc.ipcConnectBufWrite peers data = some r)
    (used : r.val.2 = some (p, c)) :
    ∃ got, Party.Alone (ipcConnectBufWrite data) c.sent got (.done (some r.val.1)) ∧ p.wire = got ++ c.wire := by
  obtain ⟨r₁, connected, returned⟩ := Option.bind_eq_some_iff.mp returned
  cases val : r₁.val with
  | none =>
    rw [val] at returned
    cases returned
    cases used
  | some link =>
    obtain ⟨p', c₁⟩ := link
    rw [val] at returned
    obtain ⟨⟨rc, c₂⟩, wrote, returned⟩ := Option.bind_eq_some_iff.mp returned
    obtain ⟨⟨rc', _⟩, closed, same⟩ := Option.map_eq_some_iff.mp returned
    cases same
    cases used
    obtain ⟨sent₁, got₁, alone₁, more₁, wire₁⟩ := ipcClientSync_alone (ipcConnect_synced connected val)
    obtain ⟨sent₂, alone₂, more₂, wire₂⟩ := bioWrite_alone wrote
    obtain ⟨sent₃, got₃, alone₃, more₃, wire₃⟩ : ∃ sent got, Party.Alone (ipcClientClose rc) sent got (.done rc') ∧
        c.sent = c₂.sent ++ sent ∧ c₂.wire = got ++ c.wire := by
      unfold Ipc.ipcClientClose at closed
      unfold ipcClientClose
      split at closed
      · rename_i ok
        rw [if_pos ok]
        exact ipcClientSync_alone closed
      · rename_i failed
        rw [if_neg failed]
        cases closed
        exact ⟨[], [], .stop _, (List.append_nil _).symm, rfl⟩
    have closing := alone₃.bind (k := fun _ => .done (some rc)) (.stop _)
    have written := alone₂.bind (k := fun rc => (ipcClientClose rc).bind fun _ => .done (some rc)) closing
    have whole := alone₁.bind (k := fun rc => if rc ≠ 0 then .done none
      else (bioWrite data).bind fun rc => (ipcClientClose rc).bind fun _ => .done (some rc))
      (by rw [if_neg (not_not.mpr rfl)]; exact written)
    rw [List.append_nil, List.append_nil, List.nil_append] at whole
    refine ⟨got₁ ++ got₃, ?_, ?_⟩
    · have all : c.sent = sent₁ ++ (sent₂ ++ sent₃) := by
        rw [more₃, more₂, more₁, List.append_assoc, List.append_assoc]
        rfl
      rw [all]
      exact whole
    · have before : p.wire = got₁ ++ c₁.wire := wire₁
      rw [before, ← wire₂, wire₃, List.append_assoc]

end Calls

/-! ### What the client writes -/

theorem says_bioWrite (buf : List U8) : Party.Says (bioWrite buf) buf (· = 0) := by
  refine (Party.says_putAll buf).bind_silent (fun _ _ => Party.says_done) fun all failed => ⟨-1, ?_, by decide⟩
  simp [failed]

theorem says_bioRead (count : Nat) : Party.Says (bioRead count) [] fun _ => True :=
  (Party.says_getAll count).bind_silent (fun _ _ => Party.says_done) fun _ bad => absurd trivial bad

theorem says_ipcU32Read : Party.Says ipcU32Read [] fun _ => True :=
  (says_bioRead 4).bind_silent (fun _ _ => Party.says_done) fun _ bad => absurd trivial bad

theorem says_ipcVarbufRead : Party.Says ipcVarbufRead [] fun _ => True := by
  refine says_ipcU32Read.bind_silent (fun (rc, len) _ => ?_) fun _ bad => absurd trivial bad
  dsimp only
  split
  · exact Party.says_done
  · refine Party.says_act.bind_silent (fun ok _ => ?_) fun _ bad => absurd trivial bad
    split
    · exact Party.says_done
    · exact (says_bioRead len).bind_silent (fun _ _ => Party.says_done) fun _ bad => absurd trivial bad

theorem says_ipcStringRead : Party.Says ipcStringRead [] fun _ => True :=
  says_ipcVarbufRead.bind_silent (fun _ _ => Party.says_done) fun _ bad => absurd trivial bad

theorem says_ipcStringWrite (str : CString) : Party.Says (ipcStringWrite str) str.frame (· = 0) := by
  have whole : str.buffer.take (str.chars.length + 1) = str.buffer := by rw [← buffer_length, List.take_length]
  refine (says_bioWrite _).bind (fun rc ok => ?_) fun rc failed => ⟨-1, if_pos failed, by decide⟩
  have body : Party.Says ((bioWrite str.buffer).bind fun rc => .done (if rc ≠ 0 then (-1 : Int) else 0)) str.buffer
      (· = 0) := by
    refine (says_bioWrite str.buffer).bind_silent (fun _ _ => Party.says_done) fun rc failed => ⟨_, rfl, ?_⟩
    rw [if_pos failed]
    decide
  rwa [ok, if_neg (by decide), whole]

theorem says_ipcClientSync : Party.Says ipcClientSync syncStr.frame (· = 0) := by
  rw [← List.append_nil syncStr.frame]
  refine (says_ipcStringWrite syncStr).bind (fun rc ok => ?_) fun rc failed => ⟨-1, if_pos failed, by decide⟩
  rw [ok, if_neg (by decide)]
  exact says_ipcStringRead.bind_silent (fun _ _ => Party.says_done) fun _ bad => absurd trivial bad

theorem says_ipcClientClose {rc : Int} (ok : rc = 0) : Party.Says (ipcClientClose rc) syncStr.frame (· = 0) := by
  rw [ipcClientClose, if_pos ok]
  exact says_ipcClientSync

variable {data sent got : List U8} {q : Party U8 (Option Int)}

/-- The client writes `sync`, the buffer and `sync`. Where it tries again it has not come to the buffer. -/
theorem alone_ipcConnectBufWrite (alone : Party.Alone (ipcConnectBufWrite data) sent got q) :
    sent <+: syncStr.frame ++ (data ++ syncStr.frame) ∧ (q = .done none → sent <+: syncStr.frame) := by
  obtain ⟨p, begun, going, rfl⟩ | ⟨rc, s₁, g₁, s₂, g₂, synced, later, rfl, rfl⟩ := Party.alone_bind alone
  · refine ⟨(says_ipcClientSync begun).1.trans (List.prefix_append _ _), fun same => ?_⟩
    obtain ⟨a, done_, _⟩ := Party.bind_eq_done same
    exact absurd done_ (going a)
  · by_cases failed : rc ≠ 0
    · rw [if_pos failed] at later
      obtain ⟨rfl, rfl, rfl⟩ := Party.alone_done later
      rw [List.append_nil]
      have begun := (says_ipcClientSync synced).1
      exact ⟨begun.trans (List.prefix_append _ _), fun _ => begun⟩
    · obtain rfl := not_not.mp failed
      rw [if_neg failed] at later
      obtain rfl := (says_ipcClientSync synced).2 0 rfl rfl
      have written : Party.Says ((bioWrite data).bind fun rc => (ipcClientClose rc).bind fun _ => .done (some rc))
          (data ++ syncStr.frame) (fun _ => False) := by
        refine (says_bioWrite data).bind (fun rc ok => ?_) fun rc bad => ⟨some rc, ?_, not_false⟩
        · exact (says_ipcClientClose ok).bind_silent (fun _ _ => Party.says_done) fun _ _ => ⟨_, rfl, not_false⟩
        · rw [ipcClientClose, if_neg bad]
          rfl
      refine ⟨(List.prefix_append_right_inj _).mpr (written later).1, fun same => ?_⟩
      -- a client that has come so far does not try again
      subst same
      obtain ⟨_, _, _, _, _, _, last, _⟩ := Party.alone_bind_done later
      obtain ⟨_, _, _, _, _, _, last, _⟩ := Party.alone_bind_done last
      exact nomatch (Party.alone_done last).2.2

/-! ### What a server that succeeds has read -/

theorem alone_bioRead {count : Nat} {rc : Int} (alone : Party.Alone (bioRead count) sent got (.done (rc, data))) :
    got = data ∧ data.length ≤ count ∧ (rc = 0 ↔ data.length = count) := by
  obtain ⟨_, s₁, g₁, s₂, g₂, read, last, rfl, rfl⟩ := Party.alone_bind_done alone
  obtain ⟨rfl, rfl, few⟩ := Party.alone_getAll read
  obtain ⟨rfl, rfl, same⟩ := Party.alone_done last
  cases same
  refine ⟨List.append_nil _, few, ?_⟩
  split <;> simp [*]

theorem alone_ipcU32Read {n : Nat} (alone : Party.Alone ipcU32Read sent got (.done (0, n))) :
    got.length = 4 ∧ n = (be32 got).toNat := by
  obtain ⟨⟨rc, header⟩, s₁, g₁, s₂, g₂, read, last, rfl, rfl⟩ := Party.alone_bind_done alone
  obtain ⟨rfl, _, whole⟩ := alone_bioRead read
  obtain ⟨rfl, rfl, same⟩ := Party.alone_done last
  rw [List.append_nil]
  by_cases ok : rc = 0
  · rw [if_neg (not_not.mpr ok)] at same
    cases same
    exact ⟨whole.mp ok, rfl⟩
  · rw [if_pos ok] at same
    cases same

theorem alone_ipcVarbufRead {n : Nat} (alone : Party.Alone ipcVarbufRead sent got (.done (0, data, n))) :
    ∃ header, got = header ++ data ∧ header.length = 4 ∧ n = (be32 header).toNat ∧ data.length = n := by
  obtain ⟨⟨rc, len⟩, s₁, header, s₂, g₂, read, later, rfl, rfl⟩ := Party.alone_bind_done alone
  dsimp only at later
  by_cases failed : rc ≠ 0
  · rw [if_pos failed] at later
    cases (Party.alone_done later).2.2
  · obtain rfl := not_not.mp failed
    rw [if_neg failed] at later
    obtain ⟨four, rfl⟩ := alone_ipcU32Read read
    obtain ⟨granted, s₃, g₃, s₄, g₄, memory, rest, rfl, rfl⟩ := Party.alone_bind_done later
    have quiet : g₃ = [] := by
      cases memory with
      | act last => exact (Party.alone_done last).2.1
      | actFails last => exact (Party.alone_done last).2.1
    subst quiet
    cases granted with
    | false => cases (Party.alone_done rest).2.2
    | true =>
      obtain ⟨⟨rc, body⟩, s₅, g₅, s₆, g₆, read, last, rfl, rfl⟩ := Party.alone_bind_done rest
      obtain ⟨rfl, _, whole⟩ := alone_bioRead read
      obtain ⟨rfl, rfl, same⟩ := Party.alone_done last
      dsimp only at same
      split at same
      · cases same
      · rename_i ok
        cases same
        exact ⟨header, by simp, four, rfl, whole.mp (not_not.mp ok)⟩

theorem alone_ipcStringRead {buffer : List U8} (alone : Party.Alone ipcStringRead sent got (.done (some buffer))) :
    ∃ header body, got = header ++ body ∧ header.length = 4 ∧ body.length = (be32 header).toNat := by
  obtain ⟨⟨rc, data, len⟩, s₁, g₁, s₂, g₂, read, last, rfl, rfl⟩ := Party.alone_bind_done alone
  obtain ⟨rfl, rfl, same⟩ := Party.alone_done last
  split at same
  · cases same
  · rename_i ok
    obtain rfl : rc = 0 := by
      by_contra failed
      exact ok (Or.inl failed)
    obtain ⟨header, rfl, four, rfl, length⟩ := alone_ipcVarbufRead read
    exact ⟨header, data, by simp, four, length⟩

theorem deaf_bioWrite (buf : List U8) : Party.Deaf (bioWrite buf) :=
  (Party.deaf_putAll buf).bind fun _ => Party.deaf_done

theorem deaf_ipcStringWrite (str : CString) : Party.Deaf (ipcStringWrite str) := by
  refine (deaf_bioWrite _).bind fun rc => ?_
  split
  · exact Party.deaf_done
  · exact (deaf_bioWrite _).bind fun _ => Party.deaf_done

theorem alone_ipcServerSync (alone : Party.Alone ipcServerSync sent got (.done 0)) :
    ∃ header body, got = header ++ body ∧ header.length = 4 ∧ body.length = (be32 header).toNat := by
  obtain ⟨sync, s₁, g₁, s₂, g₂, read, later, rfl, rfl⟩ := Party.alone_bind_done alone
  cases sync with
  | none => cases (Party.alone_done later).2.2
  | some buffer =>
    have answered : g₂ = [] := by
      split at later
      · exact ((deaf_ipcStringWrite _).bind fun _ => Party.deaf_done) later
      · exact (Party.alone_done later).2.1
    rw [answered, List.append_nil]
    exact alone_ipcStringRead read

/-- A server that succeeds has read a string, and then the bytes it was asked for. -/
theorem alone_ipcAcceptBufRead {dataLen : Nat} (alone : Party.Alone (ipcAcceptBufRead dataLen) sent got (.done (0, data))) :
    ∃ header body rest, got = header ++ body ++ data ++ rest ∧ header.length = 4 ∧
      body.length = (be32 header).toNat ∧ data.length = dataLen := by
  obtain ⟨rc, s₁, g₁, s₂, g₂, accepted, later, rfl, rfl⟩ := Party.alone_bind_done alone
  by_cases failed : rc ≠ 0
  · rw [if_pos failed] at later
    cases (Party.alone_done later).2.2
  · obtain rfl := not_not.mp failed
    rw [if_neg failed] at later
    obtain ⟨rc', s₃, g₃, s₄, g₄, synced, last, rfl, rfl⟩ := Party.alone_bind_done accepted
    obtain ⟨rfl, rfl, same⟩ := Party.alone_done last
    obtain rfl : rc' = 0 := by
      by_contra bad
      rw [if_pos bad] at same
      cases same
    obtain ⟨header, body, rfl, four, length⟩ := alone_ipcServerSync synced
    obtain ⟨⟨rc, read_⟩, s₅, g₅, s₆, rest, read, later, rfl, rfl⟩ := Party.alone_bind_done later
    obtain ⟨rfl, _, whole⟩ := alone_bioRead read
    obtain ⟨_, s₇, g₇, s₈, g₈, _, last, rfl, rfl⟩ := Party.alone_bind_done later
    obtain ⟨rfl, rfl, same⟩ := Party.alone_done last
    cases same
    exact ⟨header, body, g₇, by simp, four, length, whole.mp rfl⟩

/-- Against this client these bytes are the buffer's. -/
theorem server_reads_buffer {dataLen : Nat} {buf client : List U8}
    (alone : Party.Alone (ipcAcceptBufRead dataLen) sent got (.done (0, buf))) (from_ : got <+: client)
    (begun : client <+: syncStr.frame ++ (data ++ syncStr.frame)) :
    buf = (data ++ syncStr.frame).take dataLen ∧ syncStr.frame ++ buf <+: client := by
  obtain ⟨header, body, rest, rfl, four, length, size⟩ := alone_ipcAcceptBufRead alone
  have within := from_.trans begun
  rw [List.append_assoc, List.append_assoc] at within
  have first : header = bytes32 5#32 := by
    have taken := List.prefix_iff_eq_take.mp ((List.prefix_append _ _).trans within)
    rw [four] at taken
    exact taken
  have five : (be32 header).toNat = 5 := by rw [first]; rfl
  have frame : syncStr.frame = header ++ syncStr.buffer := by rw [first]; rfl
  rw [frame, List.append_assoc, List.prefix_append_right_inj] at within
  have second : body = syncStr.buffer := by
    have taken := List.prefix_iff_eq_take.mp ((List.prefix_append _ _).trans within)
    rw [length, five] at taken
    exact taken
  rw [second, List.prefix_append_right_inj] at within
  refine ⟨?_, ?_⟩
  · have taken := List.prefix_iff_eq_take.mp ((List.prefix_append _ _).trans within)
    rwa [size, ← frame] at taken
  · rw [frame, ← second]
    exact (List.prefix_append _ rest).trans from_

end Dialogue

end TwinpassGateway.Ipc
