import TwinpassGateway.Foundation.Areas
import TwinpassGateway.Ipc.Framing

/-!
`ipc_string_read` of `ipc.c` with the memory it takes: what it returns and what stays allocated, whatever the peer sends.
-/

namespace TwinpassGateway.Ipc

open Foundation

/-- How a call ends that does not return: it waits for its next system call, or a store lies outside every area. -/
inductive Halt where
  | waiting
  | outside
  deriving DecidableEq

/-- `malloc_l`, which asks for four bytes in the place of none. -/
def mallocL (mem : AreaMem 32 U8) (place : Option U32) (size : Nat) : Option (U32 × AreaMem 32 U8) :=
  place.bind fun start => (mem.allocate ⟨start, if size = 0 then 4 else size⟩).map fun mem => (start, mem)

def readInto (buf : U32) (count : Nat) :
    List Attempt → List U8 → Nat → AreaMem 32 U8 → Except Halt (Int × List Attempt × List U8 × AreaMem 32 U8)
  | [], wire, total, mem => if total ≠ count then .error .waiting else .ok (0, [], wire, mem)
  | a :: rest, wire, total, mem =>
    if total ≠ count then
      match a with
      | .again => readInto buf count rest wire total mem
      | .failed => .ok (-1, rest, wire, mem)
      | .moved n =>
        let rc := min n (min (count - total) wire.length)
        if rc = 0 then .ok (-1, rest, wire, mem)
        else
          match mem.blit (buf + BitVec.ofNat 32 total) (fun k => wire.getD k.toNat 0#8) rc with
          | none => .error .outside
          | some mem => readInto buf count rest (wire.drop rc) (total + rc) mem
    else .ok (0, a :: rest, wire, mem)

/-- `ipc_varbuf_read`: the result, the data and their length. -/
def varbufRead (c : Conn) (mem : AreaMem 32 U8) (place : Option U32) :
    Except Halt (Int × U32 × Nat × AreaMem 32 U8) :=
  match ipcU32Read c with
  | none => .error .waiting
  | some (rc, len, c) =>
    if rc ≠ 0 then .ok (-1, 0#32, len, mem)
    else
      match mallocL mem place len with
      | none => .ok (-1, 0#32, len, mem)
      | some (data, mem) =>
        (readInto data len c.reads c.wire 0 mem).map fun (rc, _, _, mem) =>
          if rc ≠ 0 then (-1, data, len, mem.release data) else (0, data, len, mem)

/-- `ipc_string_read`: the pointer it returns, and the memory. -/
def stringRead (c : Conn) (mem : AreaMem 32 U8) (place : Option U32) :
    Except Halt (Option U32 × AreaMem 32 U8) :=
  match varbufRead c mem place with
  | .error halt => .error halt
  | .ok (rc, data, len, mem) =>
    if rc ≠ 0 ∨ len = 0 then .ok (none, mem)
    else
      match mem.blit (data + BitVec.ofNat 32 len - 1#32) (fun _ => 0#8) 1 with
      | none => .error .outside
      | some mem => .ok (some data, mem)

/-! ### What is expected -/

/-- No memory is kept with a null pointer; otherwise one area more, with a NUL in it. -/
def Sound (mem : AreaMem 32 U8) (data : Option U32) (mem' : AreaMem 32 U8) : Prop :=
  match data with
  | none => mem'.areas = mem.areas
  | some data => ∃ size, mem'.areas = ⟨data, size⟩ :: mem.areas ∧
      ∃ k < size, mem'.byte (data + BitVec.ofNat 32 k) = 0#8

/-- The system calls that are met, which do not only ask to try again. -/
structure Calls where
  call : Nat → Attempt
  goesOn : ∀ i, ∃ j, i ≤ j ∧ call j ≠ .again

/-- With enough of the calls the function returns, and leaves the memory sound. -/
def ReadsSoundly (calls : Calls) (wire : List U8) (mem : AreaMem 32 U8) (place : Option U32) : Prop :=
  ∃ start, ∀ m, start ≤ m → ∃ data mem',
    stringRead { writes := [], reads := firstCalls calls.call m, mallocs := [], wire } mem place = .ok (data, mem') ∧
      Sound mem data mem'

/-- The calls transfer so many bytes before one fails. -/
def Transfers : Nat → List Attempt → Prop
  | 0, _ => True
  | _ + 1, [] => False
  | n + 1, .again :: rest => Transfers (n + 1) rest
  | _ + 1, .failed :: _ => False
  | n + 1, .moved k :: rest => 0 < k ∧ Transfers (n + 1 - k) rest

/-- The peer declares no bytes, its four bytes arrive, and there is memory for four bytes. -/
structure DeclaresNothing (calls : Calls) (wire : List U8) (mem : AreaMem 32 U8) (place : Option U32) : Prop where
  zero : wire.take 4 = List.replicate 4 0#8
  arrives : ∃ m, Transfers 4 (firstCalls calls.call m)
  memory : ∃ start, place = some start ∧ mem.Room ⟨start, 4⟩

/-! ### The loops -/

theorem transfers_zero (attempts : List Attempt) : Transfers 0 attempts := by
  cases attempts <;> trivial

theorem transfers_append {n : Nat} {xs : List Attempt} (ys : List Attempt) (transfers : Transfers n xs) :
    Transfers n (xs ++ ys) := by
  induction xs generalizing n with
  | nil =>
    cases n with
    | zero => exact transfers_zero _
    | succ n => exact transfers.elim
  | cons a rest ih =>
    cases n with
    | zero => exact transfers_zero _
    | succ n =>
      cases a with
      | again => exact ih (n := n + 1) transfers
      | failed => exact transfers.elim
      | moved k => exact ⟨transfers.1, ih transfers.2⟩

theorem transfers_later {calls : Nat → Attempt} {n m m' : Nat} (transfers : Transfers n (firstCalls calls m))
    (later : m ≤ m') : Transfers n (firstCalls calls m') := by
  obtain ⟨k, rfl⟩ := Nat.exists_eq_add_of_le later
  rw [firstCalls_add]
  exact transfers_append _ transfers

/-- How the loop of `bio_read` ends: it waits with few effective calls, or has everything, or has failed. -/
theorem readLoop_cases (available : Nat) {count total : Nat} (attempts : List Attempt) (within : total ≤ count) :
    (readLoop count available attempts total = none ∧ effective attempts < count - total) ∨
      (∃ left, readLoop count available attempts total = some (0, left, count) ∧
        effective attempts ≤ effective left + (count - total)) ∨
      ∃ left done, readLoop count available attempts total = some (-1, left, done) := by
  induction attempts generalizing total with
  | nil =>
    unfold readLoop
    split
    · exact Or.inl ⟨rfl, show 0 < count - total by omega⟩
    · exact Or.inr (Or.inl ⟨[], by rw [show total = count by omega], Nat.zero_le _⟩)
  | cons a rest ih =>
    unfold readLoop
    split
    · rename_i more
      cases a with
      | again => exact ih within
      | failed => exact Or.inr (Or.inr ⟨rest, total, rfl⟩)
      | moved n =>
        dsimp only
        split
        · exact Or.inr (Or.inr ⟨rest, total, rfl⟩)
        · rename_i moves
          rw [effective_moved]
          obtain ⟨waits, few⟩ | ⟨left, all, used⟩ | failed :=
            ih (show total + min n (min (count - total) (available - total)) ≤ count by omega)
          · exact Or.inl ⟨waits, by omega⟩
          · exact Or.inr (Or.inl ⟨left, all, by omega⟩)
          · exact Or.inr (Or.inr failed)
    · exact Or.inr (Or.inl ⟨a :: rest, by rw [show total = count by omega], Nat.le_add_right _ _⟩)

/-- A loop that has ended otherwise has not read everything. -/
theorem not_finished {count : Nat} {ended : Option (Int × List Attempt × Nat)}
    (otherwise : ∀ left, ended ≠ some (0, left, count)) : ¬ ∃ left, ended = some (0, left, count) := by
  rintro ⟨left, finished⟩
  exact otherwise left finished

/-- The loop has everything exactly if so much is there and the calls transfer it. -/
theorem readLoop_all_iff {count available total : Nat} (attempts : List Attempt) (within : total ≤ count)
    (there : total ≤ available) :
    (∃ left, readLoop count available attempts total = some (0, left, count)) ↔
      count ≤ available ∧ Transfers (count - total) attempts := by
  induction attempts generalizing total with
  | nil =>
    unfold readLoop
    split
    · rename_i more
      obtain ⟨n, left⟩ : ∃ n, count - total = n + 1 := ⟨count - total - 1, by omega⟩
      rw [left]
      refine iff_of_false (not_finished fun _ finished => ?_) fun more => more.2.elim
      cases finished
    · obtain rfl : total = count := by omega
      rw [Nat.sub_self]
      exact iff_of_true ⟨[], rfl⟩ ⟨there, transfers_zero _⟩
  | cons a rest ih =>
    unfold readLoop
    split
    · rename_i more
      obtain ⟨n, left⟩ : ∃ n, count - total = n + 1 := ⟨count - total - 1, by omega⟩
      cases a with
      | again =>
        rw [left]
        have step := ih within there
        rw [left] at step
        exact step
      | failed =>
        rw [left]
        refine iff_of_false (not_finished fun _ finished => ?_) fun more => more.2.elim
        cases finished
      | moved k =>
        rw [left]
        dsimp only
        split
        · rename_i nothing
          refine iff_of_false (not_finished fun _ finished => ?_) ?_
          · cases finished
          · rintro ⟨enough, positive, _⟩
            omega
        · rename_i moves
          rw [ih (show total + min k (min (n + 1) (available - total)) ≤ count by omega) (by omega)]
          refine and_congr_right fun enough => ?_
          have rest' : count - (total + min k (min (n + 1) (available - total))) = n + 1 - k := by omega
          rw [rest']
          exact (and_iff_right (show 0 < k by omega)).symm
    · obtain rfl : total = count := by omega
      rw [Nat.sub_self]
      exact iff_of_true ⟨a :: rest, rfl⟩ ⟨there, transfers_zero _⟩

section Memory

variable {mem mem' : AreaMem 32 U8} {buf : U32} {count size : Nat}

theorem inside_area (taken : ⟨buf, size⟩ ∈ mem.areas) {k n : Nat} (within : k + n ≤ size) (some' : 0 < n) :
    (buf + BitVec.ofNat 32 k).toNat = buf.toNat + k ∧ mem.Inside (buf + BitVec.ofNat 32 k).toNat n := by
  have bounded := mem.bounded _ taken
  unfold Area.stop at bounded
  have place : (buf + BitVec.ofNat 32 k).toNat = buf.toNat + k := by
    rw [BitVec.toNat_add, BitVec.toNat_ofNat, Nat.add_mod_mod, Nat.mod_eq_of_lt (by dsimp only at bounded; omega)]
  refine ⟨place, ⟨buf, size⟩, taken, ?_, ?_⟩
  · show buf.toNat ≤ _
    omega
  · show _ ≤ buf.toNat + size
    omega

theorem readInto_cases (fits : count ≤ size) (attempts : List Attempt) (wire : List U8) {total : Nat}
    (within : total ≤ count) (taken : ⟨buf, size⟩ ∈ mem.areas) :
    (readInto buf count attempts wire total mem = .error .waiting ∧ effective attempts < count - total) ∨
      ∃ rc left wire' mem', readInto buf count attempts wire total mem = .ok (rc, left, wire', mem') ∧
        mem'.areas = mem.areas := by
  induction attempts generalizing wire total mem with
  | nil =>
    unfold readInto
    split
    · exact Or.inl ⟨rfl, show 0 < count - total by omega⟩
    · exact Or.inr ⟨0, [], wire, mem, rfl, rfl⟩
  | cons a rest ih =>
    unfold readInto
    split
    · rename_i more
      cases a with
      | again => exact ih wire within taken
      | failed => exact Or.inr ⟨-1, rest, wire, mem, rfl, rfl⟩
      | moved n =>
        dsimp only
        split
        · exact Or.inr ⟨-1, rest, wire, mem, rfl, rfl⟩
        · rename_i moves
          obtain ⟨_, inside⟩ := inside_area taken
            (show total + min n (min (count - total) wire.length) ≤ size by omega) (by omega)
          have taken' : ⟨buf, size⟩ ∈ (mem.overlay (buf + BitVec.ofNat 32 total) (fun k => wire.getD k.toNat 0#8)
              (min n (min (count - total) wire.length))).areas := taken
          rw [AreaMem.blit_some inside, effective_moved]
          dsimp only
          obtain ⟨waits, few⟩ | ⟨rc, left, wire', mem', read, areas⟩ :=
            ih (wire.drop (min n (min (count - total) wire.length)))
              (show total + min n (min (count - total) wire.length) ≤ count by omega) taken'
          · exact Or.inl ⟨waits, by omega⟩
          · exact Or.inr ⟨rc, left, wire', mem', read, areas⟩
    · exact Or.inr ⟨0, a :: rest, wire, mem, rfl, rfl⟩

end Memory

/-! ### The call -/

section Call

variable {c c' : Conn} {mem mem₁ : AreaMem 32 U8} {place : Option U32} {data : U32} {len : Nat}

theorem mallocL_some (granted : mallocL mem place len = some (data, mem₁)) :
    mem₁.areas = ⟨data, if len = 0 then 4 else len⟩ :: mem.areas := by
  obtain ⟨start, _, taken⟩ := Option.bind_eq_some_iff.mp granted
  obtain ⟨mem', allocated, same⟩ := Option.map_eq_some_iff.mp taken
  cases same
  exact AreaMem.allocate_areas allocated

theorem ipcU32Read_cases (c : Conn) :
    (ipcU32Read c = none ∧ effective c.reads < 4) ∨ (∃ c', ipcU32Read c = some (-1, 0, c')) ∨
      ∃ left, ipcU32Read c = some (0, (be32 (c.wire.take 4)).toNat, { c with reads := left, wire := c.wire.drop 4 }) ∧
        effective c.reads ≤ effective left + 4 ∧ 4 ≤ c.wire.length ∧ Transfers 4 c.reads := by
  unfold ipcU32Read bioRead
  obtain ⟨waits, few⟩ | ⟨left, all, used⟩ | ⟨left, done, failed⟩ :=
    readLoop_cases c.wire.length c.reads (Nat.zero_le 4)
  · rw [waits]
    exact Or.inl ⟨rfl, few⟩
  · have there := (readLoop_all_iff c.reads (Nat.zero_le 4) (Nat.zero_le _)).mp ⟨left, all⟩
    rw [all]
    exact Or.inr (Or.inr ⟨left, rfl, used, there⟩)
  · rw [failed]
    exact Or.inr (Or.inl ⟨_, rfl⟩)

theorem last_place (data : U32) (positive : len ≠ 0) :
    data + BitVec.ofNat 32 len - 1#32 = data + BitVec.ofNat 32 (len - 1) := by
  obtain ⟨k, rfl⟩ := Nat.exists_eq_add_one_of_ne_zero positive
  rw [Nat.add_sub_cancel, BitVec.ofNat_add, ← BitVec.add_assoc, BitVec.add_sub_cancel]

theorem stringRead_sound (header : ipcU32Read c = some (0, len, c')) (positive : len ≠ 0)
    (enough : len ≤ effective c'.reads) :
    ∃ data mem', stringRead c mem place = .ok (data, mem') ∧ Sound mem data mem' := by
  unfold stringRead varbufRead
  rw [header]
  dsimp only
  rw [if_neg (by decide)]
  cases granted : mallocL mem place len with
  | none => exact ⟨none, mem, rfl, rfl⟩
  | some pair =>
    obtain ⟨data, mem₁⟩ := pair
    have areas := mallocL_some granted
    rw [if_neg positive] at areas
    have taken : ⟨data, len⟩ ∈ mem₁.areas := by rw [areas]; exact List.mem_cons_self
    obtain ⟨_, few⟩ | ⟨rc, left, wire, mem₂, read, same⟩ :=
      readInto_cases (Nat.le_refl len) c'.reads c'.wire (Nat.zero_le len) taken
    · omega
    · have newest : mem₂.areas = ⟨data, len⟩ :: mem.areas := same.trans areas
      dsimp only
      rw [read]
      by_cases failed : rc ≠ 0
      · refine ⟨none, mem₂.release data, ?_, AreaMem.release_newest newest⟩
        simp only [Except.map, if_pos failed]
        rfl
      · have taken' : ⟨data, len⟩ ∈ mem₂.areas := by rw [newest]; exact List.mem_cons_self
        obtain ⟨_, inside⟩ := inside_area taken' (show len - 1 + 1 ≤ len by omega) Nat.one_pos
        refine ⟨some data, mem₂.overlay (data + BitVec.ofNat 32 (len - 1)) (fun _ => 0#8) 1, ?_, len, newest, len - 1,
          by omega, ?_⟩
        · simp only [Except.map, if_neg failed, ne_eq, not_true_eq_false, false_or, positive, if_false,
            last_place data positive]
          rw [AreaMem.blit_some inside]
        · show (if (data + BitVec.ofNat 32 (len - 1) - (data + BitVec.ofNat 32 (len - 1))).toNat < 1 then 0#8 else _) = _
          rw [BitVec.sub_self, if_pos (by decide)]

theorem ipcU32Read_zero {attempts : List Attempt} {wire : List U8} (zero : wire.take 4 = List.replicate 4 0#8)
    (transfers : Transfers 4 attempts) :
    ∃ c', ipcU32Read { writes := [], reads := attempts, mallocs := [], wire } = some (0, 0, c') := by
  have four : 4 ≤ wire.length := by
    have length := congrArg List.length zero
    rw [List.length_take, List.length_replicate] at length
    omega
  obtain ⟨left, all⟩ := (readLoop_all_iff attempts (Nat.zero_le 4) (Nat.zero_le _)).mpr ⟨four, transfers⟩
  refine ⟨{ writes := [], reads := left, mallocs := [], wire := wire.drop 4 }, ?_⟩
  unfold ipcU32Read bioRead
  rw [all]
  dsimp only [Option.map_some]
  rw [zero]
  rfl

/-- A length of zero: nothing is read, and what was allocated stays so. -/
theorem stringRead_zero (header : ipcU32Read c = some (0, 0, c')) :
    stringRead c mem place = .ok (none, ((mallocL mem place 0).map Prod.snd).getD mem) := by
  unfold stringRead varbufRead
  rw [header]
  dsimp only
  rw [if_neg (by decide)]
  cases mallocL mem place 0 with
  | none => rfl
  | some pair =>
    have nothing : readInto pair.1 0 c'.reads c'.wire 0 pair.2 = .ok (0, c'.reads, c'.wire, pair.2) := by
      cases c'.reads <;> rfl
    dsimp only
    rw [nothing]
    rfl

theorem be32_zero {bytes : List U8} (four : bytes.length = 4) : be32 bytes = 0#32 ↔ bytes = List.replicate 4 0#8 := by
  match bytes, four with
  | [a, b, c, d], _ =>
    constructor
    · intro zero
      have whole : a ++ b ++ c ++ d = 0#32 := zero
      have parts : a = 0#8 ∧ b = 0#8 ∧ c = 0#8 ∧ d = 0#8 := by
        simp only [← BitVec.toNat_inj, BitVec.toNat_append, BitVec.toNat_ofNat] at whole ⊢
        simp only [Nat.zero_mod, Nat.or_eq_zero_iff, Nat.shiftLeft_eq, Nat.mul_eq_zero] at whole ⊢
        omega
      obtain ⟨rfl, rfl, rfl, rfl⟩ := parts
      rfl
    · intro zero
      rw [zero]
      rfl

end Call

/-! ### The same call without its memory -/

section Forget

variable {c : Conn} {mem mem' : AreaMem 32 U8} {place data : Option U32}

/-- The loop into memory is the loop of `Ipc.BioSocket`, with the bytes it takes stored from `buf + total` on. -/
theorem readInto_readLoop {buf : U32} {count : Nat} (small : count < 2 ^ 32) {attempts left : List Attempt}
    {wire wire' : List U8} {total : Nat} {rc : Int} (within : total ≤ count)
    (read : readInto buf count attempts wire total mem = .ok (rc, left, wire', mem')) :
    ∃ n, n ≤ count - total ∧ readLoop count (total + wire.length) attempts total = some (rc, left, total + n) ∧
      wire' = wire.drop n ∧ mem' = mem.overlay (buf + BitVec.ofNat 32 total) (fun k => wire.getD k.toNat 0#8) n := by
  have nothing (mem : AreaMem 32 U8) (dst : U32) (src : U32 → U8) : mem = mem.overlay dst src 0 := by
    unfold AreaMem.overlay
    simp only [Nat.not_lt_zero, if_false]
  induction attempts generalizing wire total mem with
  | nil =>
    unfold readInto at read
    split at read
    · cases read
    · cases read
      refine ⟨0, Nat.zero_le _, ?_, rfl, nothing _ _ _⟩
      rename_i done
      unfold readLoop
      rw [if_neg done]
      rfl
  | cons a rest ih =>
    unfold readInto at read
    unfold readLoop
    split at read
    · rename_i more
      rw [if_pos more]
      cases a with
      | again => exact ih within read
      | failed =>
        cases read
        exact ⟨0, Nat.zero_le _, rfl, rfl, nothing _ _ _⟩
      | moved n =>
        dsimp only at read ⊢
        rw [Nat.add_sub_cancel_left]
        split at read
        · rename_i none_
          cases read
          rw [if_pos none_]
          exact ⟨0, Nat.zero_le _, rfl, rfl, nothing _ _ _⟩
        · rename_i moves
          rw [if_neg moves]
          generalize got : min n (min (count - total) wire.length) = m at read moves ⊢
          split at read
          · cases read
          · rename_i mem₁ stored
            obtain ⟨n', few, looped, rest', memory⟩ := ih (by omega) read
            have length : total + m + (wire.drop m).length = total + wire.length := by
              rw [List.length_drop]
              omega
            rw [length, Nat.add_assoc] at looped
            refine ⟨m + n', by omega, looped, by rw [rest', List.drop_drop], ?_⟩
            rw [AreaMem.blit_some (AreaMem.blit_inside stored)] at stored
            obtain rfl := Option.some.inj stored
            have place : buf + BitVec.ofNat 32 (total + m) = buf + BitVec.ofNat 32 total + BitVec.ofNat 32 m := by
              rw [BitVec.ofNat_add, BitVec.add_assoc]
            rw [memory, place]
            refine AreaMem.overlay_overlay (by omega) (fun _ _ => rfl) fun k below => ?_
            have sum : (k + BitVec.ofNat 32 m).toNat = m + k.toNat := by
              rw [BitVec.toNat_add, BitVec.toNat_ofNat, Nat.add_mod_mod, Nat.mod_eq_of_lt (by omega), Nat.add_comm]
            rw [sum, List.getD_eq_getElem?_getD, List.getD_eq_getElem?_getD, List.getElem?_drop]
    · rename_i done
      cases read
      rw [if_neg done]
      exact ⟨0, Nat.zero_le _, rfl, rfl, nothing _ _ _⟩

/-- All bytes are there when the loop ends without a failure. -/
theorem readInto_whole {buf : U32} {count : Nat} (small : count < 2 ^ 32) {attempts left : List Attempt}
    {wire wire' : List U8} (read : readInto buf count attempts wire 0 mem = .ok (0, left, wire', mem')) :
    readLoop count wire.length attempts 0 = some (0, left, count) ∧ count ≤ wire.length ∧
      mem' = mem.overlay buf (fun k => wire.getD k.toNat 0#8) count := by
  obtain ⟨n, _, looped, _, stored⟩ := readInto_readLoop small (Nat.zero_le count) read
  rw [Nat.zero_add, Nat.zero_add] at looped
  rw [BitVec.add_zero] at stored
  have all : n = count := by
    obtain ⟨waits, _⟩ | ⟨_, whole, _⟩ | ⟨_, _, fails⟩ := readLoop_cases wire.length attempts (Nat.zero_le count)
    · exact nomatch waits.symm.trans looped
    · exact (Prod.mk.inj (Prod.mk.inj (Option.some.inj (whole.symm.trans looped))).2).2.symm
    · exact nomatch fails.symm.trans looped
  subst all
  exact ⟨looped, ((readLoop_all_iff attempts (Nat.zero_le n) (Nat.zero_le _)).mp ⟨left, looped⟩).1, stored⟩

def bytesAt (mem : AreaMem 32 U8) (p : U32) (n : Nat) : List U8 :=
  (List.range n).map fun k => mem.byte (p + BitVec.ofNat 32 k)

theorem bytesAt_overlay (mem : AreaMem 32 U8) (p : U32) {wire : List U8} {n : Nat} (small : n < 2 ^ 32)
    (enough : n ≤ wire.length) :
    bytesAt (mem.overlay p (fun k => wire.getD k.toNat 0#8) n) p n = wire.take n := by
  apply List.ext_getElem
  · rw [bytesAt, List.length_map, List.length_range, List.length_take_of_le enough]
  · intro k low high
    rw [bytesAt, List.length_map, List.length_range] at low
    have offset : (p + BitVec.ofNat 32 k - p).toNat = k := by
      rw [BitVec.add_comm, BitVec.add_sub_cancel, BitVec.toNat_ofNat, Nat.mod_eq_of_lt (by omega)]
    simp only [bytesAt, List.getElem_map, List.getElem_range, List.getElem_take, AreaMem.overlay, offset, if_pos low,
      List.getD_eq_getElem?_getD, List.getElem?_eq_getElem (low.trans_le enough), Option.getD_some]

theorem bytesAt_set (mem : AreaMem 32 U8) (p : U32) {k n : Nat} (small : n < 2 ^ 32) (inside : k < n) (b : U8) :
    bytesAt (mem.overlay (p + BitVec.ofNat 32 k) (fun _ => b) 1) p n = (bytesAt mem p n).set k b := by
  apply List.ext_getElem
  · simp only [bytesAt, List.length_map, List.length_range, List.length_set]
  · intro i low high
    rw [bytesAt, List.length_map, List.length_range] at low
    have offset : (p + BitVec.ofNat 32 i - (p + BitVec.ofNat 32 k)).toNat < 1 ↔ k = i := by
      have same : p + BitVec.ofNat 32 i = p + BitVec.ofNat 32 k ↔ i = k := by
        rw [BitVec.add_right_inj, ← BitVec.toNat_inj, BitVec.toNat_ofNat, BitVec.toNat_ofNat,
          Nat.mod_eq_of_lt (by omega), Nat.mod_eq_of_lt (by omega)]
      rw [Nat.lt_one_iff, eq_comm (a := k), ← same]
      constructor
      · intro nothing
        have zero : p + BitVec.ofNat 32 i - (p + BitVec.ofNat 32 k) = 0#32 := BitVec.eq_of_toNat_eq nothing
        have back := BitVec.sub_add_cancel (p + BitVec.ofNat 32 i) (p + BitVec.ofNat 32 k)
        rw [zero, BitVec.zero_add] at back
        exact back.symm
      · intro equal
        rw [equal, BitVec.sub_self]
        rfl
    simp only [bytesAt, List.getElem_map, List.getElem_range, List.getElem_set, AreaMem.overlay, offset]

theorem ipcU32Read_mallocs {c c' : Conn} {rc : Int} {len : Nat} (read : ipcU32Read c = some (rc, len, c')) :
    c'.mallocs = c.mallocs ∧ len < 2 ^ 32 := by
  obtain ⟨⟨rc', data, c₁⟩, taken, same⟩ := Option.map_eq_some_iff.mp read
  obtain ⟨_, _, made⟩ := Option.map_eq_some_iff.mp taken
  cases made
  dsimp only at same
  split at same
  · cases same
    exact ⟨rfl, by decide⟩
  · cases same
    exact ⟨rfl, (be32 _).isLt⟩

theorem none_placed {α β : Type} {P : α → β → Prop} {str : Option β} (p : α) (chars : β)
    (placed : (none : Option α) = some p) : str = some chars → P p chars :=
  absurd placed (Option.some_ne_none p).symm

/-- What `ipc_string_read` returns is the string that `Ipc.Framing` computes, when `malloc_l` answers the same. -/
theorem stringRead_framing {ok : Bool} {mallocs : List Bool} (given : c.mallocs = ok :: mallocs)
    (answer : ∀ len c', ipcU32Read c = some (0, len, c') → ok = (mallocL mem place len).isSome)
    (read : stringRead c mem place = .ok (data, mem')) :
    ∃ str c', ipcStringRead c = some (str, c') ∧ str.isSome = data.isSome ∧
      ∀ p chars, data = some p → str = some chars → bytesAt mem' p chars.length = chars := by
  unfold stringRead varbufRead at read
  unfold ipcStringRead ipcVarbufRead
  cases header : ipcU32Read c with
  | none => rw [header] at read; cases read
  | some triple =>
    obtain ⟨rc, len, c₁⟩ := triple
    rw [header] at read
    dsimp only [Option.bind_some] at read ⊢
    by_cases failed : rc ≠ 0
    · rw [if_pos failed] at read ⊢
      cases read
      exact ⟨none, c₁, rfl, rfl, none_placed⟩
    · obtain rfl : rc = 0 := not_not.mp failed
      obtain ⟨kept, small⟩ := ipcU32Read_mallocs header
      rw [given] at kept
      rw [if_neg failed] at read ⊢
      rw [Conn.malloc, kept]
      dsimp only [Option.bind_some]
      have answered := answer len c₁ header
      cases granted : mallocL mem place len with
      | none =>
        rw [granted] at read answered
        have refused : ok = false := answered
        rw [if_pos refused]
        cases read
        exact ⟨none, _, rfl, rfl, none_placed⟩
      | some pair =>
        obtain ⟨p, mem₁⟩ := pair
        rw [granted] at read answered
        dsimp only at read
        have made : ok ≠ false := fun refused => Bool.false_ne_true (refused.symm.trans answered)
        rw [if_neg made]
        cases looped : readInto p len c₁.reads c₁.wire 0 mem₁ with
        | error halt =>
          rw [looped] at read
          cases read
        | ok result =>
          obtain ⟨rc, left, wire, mem₂⟩ := result
          rw [looped] at read
          unfold bioRead
          dsimp only
          by_cases broken : rc ≠ 0
          · obtain ⟨n, _, sameLoop, _, _⟩ := readInto_readLoop small (Nat.zero_le len) looped
            rw [Nat.zero_add, Nat.zero_add] at sameLoop
            rw [sameLoop]
            dsimp only [Option.map_some, Except.map] at read ⊢
            rw [if_pos broken] at read ⊢
            cases read
            exact ⟨none, _, rfl, rfl, none_placed⟩
          · obtain rfl : rc = 0 := not_not.mp broken
            obtain ⟨sameLoop, there, stored⟩ := readInto_whole small looped
            rw [sameLoop]
            dsimp only [Option.map_some, Except.map] at read ⊢
            rw [if_neg broken] at read ⊢
            dsimp only at read ⊢
            by_cases none_ : len = 0
            · rw [if_pos (Or.inr none_)] at read ⊢
              cases read
              exact ⟨none, _, rfl, rfl, none_placed⟩
            · rw [if_neg fun h => h.elim (fun h => h rfl) none_] at read ⊢
              rw [last_place p none_] at read
              split at read
              · cases read
              · rename_i mem₃ ended
                cases read
                rw [AreaMem.blit_some (AreaMem.blit_inside ended)] at ended
                obtain rfl := Option.some.inj ended
                refine ⟨_, _, rfl, rfl, ?_⟩
                rintro _ _ ⟨⟩ ⟨⟩
                rw [List.length_set, List.length_take_of_le there, bytesAt_set mem₂ p small (by omega), stored,
                  bytesAt_overlay mem₁ p small there]

end Forget

/-! ### Every stream -/

theorem reads_soundly_iff (calls : Calls) (wire : List U8) (mem : AreaMem 32 U8) (place : Option U32) :
    ReadsSoundly calls wire mem place ↔ ¬ DeclaresNothing calls wire mem place := by
  obtain ⟨start, enough⟩ := effective_enough calls.goesOn (4 + 2 ^ 32)
  constructor
  · rintro ⟨start', sound⟩ ⟨zero, ⟨m, arrives⟩, at_, rfl, room⟩
    obtain ⟨data, mem', read, kept⟩ := sound (max m (max start start')) (by omega)
    obtain ⟨c', header⟩ := ipcU32Read_zero zero (transfers_later arrives (Nat.le_max_left m (max start start')))
    rw [stringRead_zero header] at read
    cases read
    obtain ⟨mem₁, allocated⟩ : ∃ mem₁, mem.allocate ⟨at_, 4⟩ = some mem₁ := ⟨_, dif_pos room⟩
    have granted : mallocL mem (some at_) 0 = some (at_, mem₁) := by
      unfold mallocL
      rw [Option.bind_some, if_pos rfl, allocated]
      rfl
    rw [granted] at kept
    have same : mem₁.areas = mem.areas := kept
    rw [AreaMem.allocate_areas allocated] at same
    exact absurd (congrArg List.length same) (by simp)
  · intro something
    refine ⟨start, fun m above => ?_⟩
    have many := enough m above
    obtain ⟨_, few⟩ | ⟨c', failed⟩ | ⟨left, header, used, four, transfers⟩ :=
      ipcU32Read_cases { writes := [], reads := firstCalls calls.call m, mallocs := [], wire }
    · exact absurd (many.trans_lt few) (by omega)
    · refine ⟨none, mem, ?_, rfl⟩
      unfold stringRead varbufRead
      rw [failed]
      rfl
    · by_cases zero : (be32 (wire.take 4)).toNat = 0
      · rw [zero] at header
        refine ⟨none, _, stringRead_zero header, ?_⟩
        cases granted : mallocL mem place 0 with
        | none => rfl
        | some pair =>
          obtain ⟨at_, given, taken⟩ := Option.bind_eq_some_iff.mp granted
          obtain ⟨mem₁, allocated, _⟩ := Option.map_eq_some_iff.mp taken
          have room : mem.Room ⟨at_, 4⟩ := by
            rw [if_pos rfl] at allocated
            rw [← AreaMem.allocate_isSome, allocated]
            rfl
          have zeros : be32 (wire.take 4) = 0#32 := BitVec.eq_of_toNat_eq zero
          have length : (wire.take 4).length = 4 := List.length_take_of_le four
          exact absurd ⟨(be32_zero length).mp zeros, ⟨m, transfers⟩, at_, given, room⟩ something
      · refine stringRead_sound header zero ?_
        have small := (be32 (wire.take 4)).isLt
        dsimp only at used ⊢
        omega

def eager : Calls := ⟨fun _ => .moved 4, fun i => ⟨i, Nat.le_refl i, nofun⟩⟩

def emptyMem : AreaMem 32 U8 := ⟨fun _ => 0#8, [], nofun, nofun, .nil⟩

/-- A declared length of zero: the null pointer is returned, and four bytes stay allocated. -/
theorem nothing_declared : ¬ ReadsSoundly eager [0#8, 0#8, 0#8, 0#8] emptyMem (some 0x1000#32) := by
  rintro ⟨start, sound⟩
  obtain ⟨data, mem', read, kept⟩ := sound (start + 1) (by omega)
  have calls : firstCalls eager.call (start + 1) = .moved 4 :: firstCalls eager.call start := by
    rw [Nat.add_comm, firstCalls_add]
    rfl
  rw [calls] at read
  have transfers : Transfers 4 (.moved 4 :: firstCalls eager.call start) := ⟨by decide, transfers_zero _⟩
  have zero : [0#8, 0#8, 0#8, 0#8].take 4 = List.replicate 4 0#8 := rfl
  obtain ⟨c', header⟩ := ipcU32Read_zero zero transfers
  rw [stringRead_zero header] at read
  cases read
  exact nomatch kept

end TwinpassGateway.Ipc
