import TwinpassGateway.Switch.Filters

/-!
The protocol filters of the switch: two of them in each of the registers 0x68 to 0x6B, and the actions of all eight in
register 0x95.
-/

namespace TwinpassGateway.Switch

open Foundation

/-- `ADM_MAGIC`, the text `'a'|'d'|'m'|'t'|'e'|'k'`. -/
def admMagic : U32 := 0x61#32 ||| 0x64#32 ||| 0x6D#32 ||| 0x74#32 ||| 0x65#32 ||| 0x6B#32

/-- `_IOWR(ADM_MAGIC, nr, type)` for a type of `size` bytes. -/
def admIowr (nr size : Nat) : U32 :=
  0x6#32 <<< 29 ||| admMagic <<< 8 ||| BitVec.ofNat 32 nr ||| BitVec.ofNat 32 size <<< 16

def admSwIoctlFilterAdd : U32 := admIowr 0x09 12

def admSwIoctlFilterDel : U32 := admIowr 0x0A 12

def admSwIoctlFilterGet : U32 := admIowr 0x0B 12

structure ProtocolFilter where
  protocolFilterNum : Int
  ipP : U32
  /-- `char action:2`, its two bits. -/
  action : BitVec 2
  deriving DecidableEq

/-- `x >> n` of an unsigned word as the processor does it. -/
def shr (x : U32) (n : Int) : U32 := x >>> (n % 32).toNat

/-- `adm_process_protocol_filter_request`, which returns 0: the request and the registers. -/
def admProcessProtocolFilterRequest (r : Regs) (cmd : U32) (u : ProtocolFilter) : ProtocolFilter × Regs :=
  let u := if cmd = admSwIoctlFilterDel then { u with ipP := 0, action := 0 } else u
  let addr := (BitVec.ofInt 32 (u.protocolFilterNum.tdiv 2 + 0x68)).toNat
  let val := ifxSwRead r addr
  let (u, val) : ProtocolFilter × U32 :=
    if u.protocolFilterNum.tmod 2 = 0 then
      if cmd = admSwIoctlFilterGet then ({ u with ipP := val &&& 0x00FF#32 }, val)
      else (u, (val &&& 0xFF00#32) ||| u.ipP)
    else
      if cmd = admSwIoctlFilterGet then ({ u with ipP := val >>> 8 }, val)
      else (u, (val &&& 0x00FF#32) ||| u.ipP <<< 8)
  let r := if cmd ≠ admSwIoctlFilterGet then ifxSwWrite r addr val else r
  let val := ifxSwRead r 0x95
  if cmd = admSwIoctlFilterGet then
    ({ u with action := (shr val (u.protocolFilterNum * 2) &&& 0x3#32).setWidth 2 }, r)
  else
    (u, ifxSwWrite r 0x95 ((val &&& ~~~ shl 0x03#32 (u.protocolFilterNum * 2)) |||
      shl (u.action.signExtend 32 &&& 0x03#32) (u.protocolFilterNum * 2)))

/-! ### The fields of a filter -/

def protocolField (n : Fin 8) : Field := ⟨0x68 + n / 2, n % 2 * 8, 8⟩

def actionField (n : Fin 8) : Field := ⟨0x95, n * 2, 2⟩

def protocolFilter (r : Regs) (n : Fin 8) : ProtocolFilter :=
  ⟨n, ((protocolField n).read r).setWidth 32, (actionField n).read r⟩

def storeFilter (r : Regs) (n : Fin 8) (ipP : U8) (action : BitVec 2) : Regs :=
  ((actionField n).set action).write (((protocolField n).set ipP).write r)

theorem protocolField_inside (n : Fin 8) : (protocolField n).lo + (protocolField n).width ≤ 16 := by
  show n.val % 2 * 8 + 8 ≤ 16
  omega

theorem actionField_inside (n : Fin 8) : (actionField n).lo + (actionField n).width ≤ 16 := by
  show n.val * 2 + 2 ≤ 16
  omega

theorem filters_apart : ∀ n m : Fin 8, n ≠ m →
    (protocolField n).Apart (protocolField m) ∧ (actionField n).Apart (actionField m) := by
  decide +kernel

theorem kinds_apart : ∀ n m : Fin 8, (protocolField n).Apart (actionField m) ∧ (actionField n).Apart (protocolField m) := by
  decide +kernel

theorem protocolFilter_stored (r : Regs) (n m : Fin 8) (ipP : U8) (action : BitVec 2) :
    protocolFilter (storeFilter r n ipP action) m =
      if m = n then ⟨n, ipP.setWidth 32, action⟩ else protocolFilter r m := by
  have number : (protocolField m).read (storeFilter r n ipP action) =
      (protocolField m).read (((protocolField n).set ipP).write r) :=
    (kinds_apart n m).2.read_set (protocolField_inside m) action _
  have first (r : Regs) : (actionField m).read (((protocolField n).set ipP).write r) = (actionField m).read r :=
    (kinds_apart n m).1.read_set (actionField_inside m) ipP r
  unfold protocolFilter
  rw [number]
  by_cases same : m = n
  · subst same
    rw [if_pos rfl]
    congr 1
    · exact congrArg (BitVec.setWidth 32) (Field.read_set (protocolField_inside m) ipP r)
    · exact Field.read_set (actionField_inside m) action _
  · obtain ⟨numbers, actions⟩ := filters_apart n m (Ne.symm same)
    rw [if_neg same]
    congr 1
    · exact congrArg (BitVec.setWidth 32) (numbers.read_set (protocolField_inside m) ipP r)
    · exact (actions.read_set (actionField_inside m) action _).trans (first r)

/-! ### The requests -/

theorem request_register : ∀ n : Fin 8,
    (BitVec.ofInt 32 ((n.val : Int).tdiv 2 + 0x68)).toNat = (protocolField n).addr ∧
      ((n.val : Int).tmod 2 = 0 ↔ n.val % 2 = 0) := by
  decide

theorem action_masks : ∀ (n : Fin 8) (action : BitVec 2),
    (~~~ shl 0x03#32 (n.val * 2)).setWidth 16 = ((actionField n).set action : Mask 16).keep ∧
      (shl (action.signExtend 32 &&& 0x03#32) (n.val * 2)).setWidth 16 = ((actionField n).set action : Mask 16).put := by
  decide +kernel

theorem action_written (r : Regs) (n : Fin 8) (action : BitVec 2) :
    ifxSwWrite r 0x95 ((ifxSwRead r 0x95 &&& ~~~ shl 0x03#32 (n.val * 2)) |||
        shl (action.signExtend 32 &&& 0x03#32) (n.val * 2)) =
      ((actionField n).set action).write r := by
  obtain ⟨keep, put⟩ := action_masks n action
  rw [write_mask, keep, put]
  rfl

theorem action_read (r : Regs) (n : Fin 8) :
    (shr (ifxSwRead r 0x95) (n.val * 2) &&& 0x3#32).setWidth 2 = (actionField n).read r := by
  have count : ((n.val * 2 : Int) % 32).toNat = n.val * 2 := by omega
  have shifted := @shifted_toNat r 0x95 (n.val * 2) 0x3#32 2 rfl
  apply BitVec.eq_of_toNat_eq
  unfold shr
  rw [count, BitVec.toNat_setWidth, shifted]
  exact Nat.mod_eq_of_lt (BitVec.isLt _)

/-- The field is the low half of its register, or the high one. -/
theorem protocol_read (r : Regs) (n : Fin 8) :
    ((protocolField n).read r).setWidth 32 =
      if n.val % 2 = 0 then ifxSwRead r (protocolField n).addr &&& 0x00FF#32
      else ifxSwRead r (protocolField n).addr >>> 8 := by
  split
  · rename_i first
    have half : protocolField n = ⟨(protocolField n).addr, 0, 8⟩ := by simp [protocolField, first]
    rw [half]
    exact (fieldAt_read r _ 0 (by decide) rfl).symm
  · rename_i second
    have half : protocolField n = ⟨(protocolField n).addr, 8, 8⟩ := by
      simp [protocolField, Nat.mod_two_ne_zero.mp second]
    rw [half]
    apply BitVec.eq_of_getLsbD_eq
    intro i below
    simp only [ifxSwRead, Field.read, Field.of, BitVec.getLsbD_ushiftRight, BitVec.getLsbD_setWidth,
      BitVec.getLsbD_extractLsb']
    grind

theorem protocol_written (r : Regs) (n : Fin 8) (ipP : U8) :
    ((protocolField n).set ipP).write r =
      if n.val % 2 = 0 then
        ifxSwWrite r (protocolField n).addr
          ((ifxSwRead r (protocolField n).addr &&& 0xFF00#32) ||| ipP.setWidth 32)
      else
        ifxSwWrite r (protocolField n).addr
          ((ifxSwRead r (protocolField n).addr &&& 0x00FF#32) ||| ipP.setWidth 32 <<< 8) := by
  unfold Field.set
  split
  · rename_i first
    have lo : (protocolField n).lo = 0 := by simp [protocolField, first]
    have keep : (0xFF00#32).setWidth 16 = ~~~((BitVec.allOnes 8).setWidth 16 <<< 0) := by decide
    have put : (ipP.setWidth 32).setWidth 16 = ipP.setWidth 16 <<< 0 := by simp
    rw [write_mask, keep, put, lo]
    rfl
  · rename_i second
    have lo : (protocolField n).lo = 8 := by simp [protocolField, Nat.mod_two_ne_zero.mp second]
    have keep : (0x00FF#32).setWidth 16 = ~~~((BitVec.allOnes 8).setWidth 16 <<< 8) := by decide
    have put : (ipP.setWidth 32 <<< 8).setWidth 16 = ipP.setWidth 16 <<< 8 := by
      apply BitVec.eq_of_getLsbD_eq
      intro i below
      simp only [BitVec.getLsbD_setWidth, BitVec.getLsbD_shiftLeft]
      grind
    rw [write_mask, keep, put, lo]
    rfl

/-- A get fills in what the registers hold, whatever the request carried, and leaves the registers alone. -/
theorem filter_get (r : Regs) (n : Fin 8) (ipP : U32) (action : BitVec 2) :
    admProcessProtocolFilterRequest r admSwIoctlFilterGet ⟨n, ipP, action⟩ = (protocolFilter r n, r) := by
  have other : admSwIoctlFilterGet ≠ admSwIoctlFilterDel := by decide
  obtain ⟨addr, even⟩ := request_register n
  unfold admProcessProtocolFilterRequest protocolFilter
  rw [if_neg other, protocol_read]
  dsimp only
  simp only [if_true, ne_eq, not_true_eq_false, if_false, addr, even]
  by_cases first : n.val % 2 = 0
  · simp only [if_pos first]
    rw [action_read]
  · simp only [if_neg first]
    rw [action_read]

theorem filter_set (r : Regs) (n : Fin 8) (ipP : U8) (action : BitVec 2) :
    (admProcessProtocolFilterRequest r admSwIoctlFilterAdd ⟨n, ipP.setWidth 32, action⟩).2 =
      storeFilter r n ipP action := by
  have kept : admSwIoctlFilterAdd ≠ admSwIoctlFilterDel := by decide
  have stored : admSwIoctlFilterAdd ≠ admSwIoctlFilterGet := by decide
  obtain ⟨addr, even⟩ := request_register n
  unfold admProcessProtocolFilterRequest storeFilter
  rw [if_neg kept, protocol_written]
  dsimp only
  simp only [if_neg stored, if_pos stored, addr, even]
  by_cases first : n.val % 2 = 0
  · simp only [if_pos first]
    rw [action_written]
  · simp only [if_neg first]
    rw [action_written]

/-- Deleting a filter is setting it to protocol 0 and action 0. -/
theorem filter_del (r : Regs) (n : Fin 8) (ipP : U32) (action : BitVec 2) :
    (admProcessProtocolFilterRequest r admSwIoctlFilterDel ⟨n, ipP, action⟩).2 = storeFilter r n 0 0 := by
  rw [← filter_set]
  rfl

/-- A filter reads back as it was set, and the others as before. `asked` is what the request for the other filter
carries in the fields that are filled in. -/
theorem protocol_filter_reads_back (r : Regs) (n m : Fin 8) (ipP : U8) (action : BitVec 2) (asked : U32 × BitVec 2) :
    let set := (admProcessProtocolFilterRequest r admSwIoctlFilterAdd ⟨n, ipP.setWidth 32, action⟩).2
    (admProcessProtocolFilterRequest set admSwIoctlFilterGet ⟨m, asked.1, asked.2⟩).1 =
      if m = n then ⟨n, ipP.setWidth 32, action⟩
      else (admProcessProtocolFilterRequest r admSwIoctlFilterGet ⟨m, asked.1, asked.2⟩).1 := by
  intro set
  have written : set = storeFilter r n ipP action := filter_set r n ipP action
  rw [written, filter_get, filter_get]
  exact protocolFilter_stored r n m ipP action

end TwinpassGateway.Switch
