import TwinpassGateway.Foundation.Lifetime
import TwinpassGateway.Switch.ProtocolFilters

/-!
`adm_ioctl`: what it returns, and what it does on the way to the request block it allocates, to the switch and to the
user. What the kernel and the switch answer are inputs.
-/

namespace TwinpassGateway.Switch

open Foundation

def efault : Int := 14

def einval : Int := 22

def keyIoctlMaxKey : Nat := 0x0C

def iocNr (cmd : U32) : Nat := (cmd &&& 0xFF#32).toNat

def iocType (cmd : U32) : U32 := (cmd >>> 8) &&& 0xFF#32

def admIoctlRegrw : U32 := admIowr 0x01 12

def admSwIoctlRegrw : U32 := admIowr 0x02 12

def admSwIoctlPortsts : U32 := admIowr 0x03 4

def admSwIoctlInit : U32 := admIowr 0x04 4

def admSwIoctlMacentryAdd : U32 := admIowr 0x05 16

def admSwIoctlMacentryDel : U32 := admIowr 0x06 16

def admSwIoctlMacentryGetInit : U32 := admIowr 0x07 16

def admSwIoctlMacentryGetMore : U32 := admIowr 0x08 16

structure Regrw where
  addr : U32
  value : U32
  mode : U32

/-- `MACENTRY`; `ctrl` is the union of `age_timer` and `info_ctrl`. -/
structure Macentry where
  macAddr : Fin 6 → U8
  fid : BitVec 4
  portmap : BitVec 6
  ctrl : BitVec 9
  occupy : BitVec 1
  infoType : BitVec 1
  bad : BitVec 1
  result : BitVec 3

inductive RequestBlock where
  | uREGRW
  | mMACENTRY
  | uPROTOCOLFILTER
  deriving DecidableEq

inductive Reply where
  | regrw (u : Regrw)
  | macentry (m : Macentry)
  | filter (u : ProtocolFilter)

inductive IoctlAct where
  | mem (op : MemOp RequestBlock)
  | swRead (addr : U32)
  | swWrite (addr dat : U32)
  | checkPortStatus (port : Nat)
  | swInit
  | copyToUser (reply : Reply)

/-- What `copy_from_user` does: it refuses an address that is not the user's, or copies what it can and fills the rest
of the block with zeros. -/
inductive FromUser where
  | refused
  | missing (bytes : Nat)

/-- A status word of the switch whose busy bit is clear. -/
abbrev Idle := { val : U32 // val &&& 0x8000#32 = 0 }

structure IoctlOutcomes where
  kmalloc : Bool
  fromUser : FromUser
  regrw : Regrw
  macentry : Macentry
  filter : ProtocolFilter
  /-- What a register of the switch holds. -/
  read : U32 → U32
  /-- How the waits for the switch end; one that does not end is `none`. -/
  wait : Nat → Option Idle

structure IoctlRun where
  /-- `none`: the call does not return. -/
  ret : Option Int
  acts : List IoctlAct

def IoctlRun.after (acts : List IoctlAct) (rest : IoctlRun) : IoctlRun := ⟨rest.ret, acts ++ rest.acts⟩

def memOps (acts : List IoctlAct) : List (MemOp RequestBlock) :=
  acts.filterMap fun
    | .mem op => some op
    | _ => none

/-- Every request block is used only while it is held, and once the call returns each has been freed exactly once. -/
structure IoctlRun.Clean (run : IoctlRun) : Prop where
  sound : ∀ before op after, memOps run.acts = before ++ op :: after → op.Sound before
  freed : run.ret.isSome → ∀ b, (memOps run.acts).count (.release (some b)) = (memOps run.acts).count (.alloc b)

/-! ### Statements -/

def use (p : Option RequestBlock) : IoctlAct := .mem (.touch p)

def kfree (p : Option RequestBlock) : IoctlAct := .mem (.release p)

/-- `kmalloc` and `copy_from_user` into the block, whose pointer is not tested. -/
def fetch (o : IoctlOutcomes) (b : RequestBlock) (rest : Option RequestBlock → IoctlRun) : IoctlRun :=
  let p := if o.kmalloc then some b else none
  let allocated := if o.kmalloc then [IoctlAct.mem (.alloc b)] else []
  match o.fromUser with
  | .refused => ⟨some (-efault), allocated⟩
  | .missing 0 => .after (allocated ++ [use p]) (rest p)
  | .missing (_ + 1) => ⟨some (-efault), allocated ++ [use p]⟩

/-- `while (val & 0x8000) ifx_sw_read(0x125, &val)`. -/
def awaitIdle (o : IoctlOutcomes) (k : Nat) (rest : U32 → IoctlRun) : IoctlRun :=
  match o.wait k with
  | none => ⟨none, [.swRead 0x125]⟩
  | some val => .after [.swRead 0x125] (rest val)

/-! ### Commands -/

/-- `ADM_IOCTL_REGRW`, which does not reach the switch, and `ADM_SW_IOCTL_REGRW`. -/
def regrwCommand (o : IoctlOutcomes) (reached : Bool) : IoctlRun :=
  fetch o .uREGRW fun p =>
    .after [use p] <|
    if o.regrw.mode = 0 then
      let value := if reached then o.read o.regrw.addr else 0x12345678#32
      let asked := if reached then [use p, .swRead o.regrw.addr] else []
      ⟨some 0, asked ++ [use p, use p, .copyToUser (.regrw { o.regrw with value }), kfree p]⟩
    else if o.regrw.mode = 1 then
      let told := if reached then [use p, .swWrite o.regrw.addr o.regrw.value] else []
      ⟨some 0, told ++ [kfree p]⟩
    else ⟨some (-efault), []⟩

def macWord (m : Macentry) (high low : Fin 6) : U32 := (m.macAddr high).setWidth 32 <<< 8 + (m.macAddr low).setWidth 32

def macControl (m : Macentry) : List U32 :=
  [macWord m 1 0, macWord m 3 2, macWord m 5 4, (m.fid.setWidth 32 &&& 0xF#32) + (m.portmap.setWidth 32 &&& 0x3F#32) <<< 4,
    if m.infoType.setWidth 32 &&& 0x01#32 ≠ 0 then m.ctrl.setWidth 32 + 0x1000#32
    else m.ctrl.setWidth 32 &&& 0xFF#32]

def macStatus (m : Macentry) (status : Nat → U32) : Macentry :=
  { m with
    macAddr := fun i => (status (i.val / 2) >>> (i.val % 2 * 8)).setWidth 8
    fid := (status 3 &&& 0xF#32).setWidth 4
    portmap := ((status 3 >>> 4) &&& 0x3F#32).setWidth 6
    ctrl := (status 4 &&& 0xFF#32).setWidth 9
    infoType := if status 5 &&& 0x2#32 ≠ 0 then 1 else 0
    occupy := ((status 5 &&& 0x2000#32) >>> 13).setWidth 1
    bad := ((status 5 &&& 0x4#32) >>> 2).setWidth 1 }

def macentryResult (o : IoctlOutcomes) (cmd : U32) (p : Option RequestBlock) (val : U32) : IoctlRun :=
  let result := (val &&& 0x7000#32) >>> 12
  let m := { o.macentry with result := result.setWidth 3 }
  if result = 0 ∧ (cmd = admSwIoctlMacentryGetInit ∨ cmd = admSwIoctlMacentryGetMore) then
    let status i := o.read (0x120 + BitVec.ofNat 32 i)
    ⟨some 0, [use p] ++ (List.range 6).map (fun i => .swRead (0x120 + BitVec.ofNat 32 i)) ++
      [use p, use p, .copyToUser (.macentry (macStatus m status))]⟩
  else ⟨some 0, [use p, use p, .copyToUser (.macentry m)]⟩

def macentryOperate (o : IoctlOutcomes) (cmd : U32) (p : Option RequestBlock) : IoctlRun :=
  let operation : U32 :=
    if cmd = admSwIoctlMacentryAdd then 0x07 else if cmd = admSwIoctlMacentryDel then 0x1F else 0x2C
  let control := macControl o.macentry ++ [operation]
  awaitIdle o 2 fun _ =>
    .after ((List.range 6).map fun i => .swWrite (0x11A + BitVec.ofNat 32 i) (control.getD i 0)) <|
    awaitIdle o 3 (macentryResult o cmd p)

/-- The four commands on the address table, which leave the request block allocated. -/
def macentryCommand (o : IoctlOutcomes) (cmd : U32) : IoctlRun :=
  fetch o .mMACENTRY fun p =>
    .after [use p] <|
    if cmd = admSwIoctlMacentryGetInit then
      awaitIdle o 0 fun _ => .after [.swWrite 0x11F 0x030] (awaitIdle o 1 fun _ => macentryOperate o cmd p)
    else macentryOperate o cmd p

/-- The statements of the commands on the protocol filters, which are those of `adm_process_protocol_filter_request`. -/
def filterOperate (o : IoctlOutcomes) (cmd : U32) (p : Option RequestBlock) : IoctlRun :=
  let u := if cmd = admSwIoctlFilterDel then { o.filter with ipP := 0, action := 0 } else o.filter
  let addr := BitVec.ofInt 32 (u.protocolFilterNum.tdiv 2 + 0x68)
  let val := o.read addr
  let (u, val) : ProtocolFilter × U32 :=
    if u.protocolFilterNum.tmod 2 = 0 then
      if cmd = admSwIoctlFilterGet then ({ u with ipP := val &&& 0x00FF#32 }, val)
      else (u, (val &&& 0xFF00#32) ||| u.ipP)
    else
      if cmd = admSwIoctlFilterGet then ({ u with ipP := val >>> 8 }, val)
      else (u, (val &&& 0x00FF#32) ||| u.ipP <<< 8)
  let stored := if cmd ≠ admSwIoctlFilterGet then [use p, .swWrite addr val] else []
  let val := o.read 0x95
  .after ([use p, .swRead addr, use p] ++ stored ++ [.swRead 0x95]) <|
  if cmd = admSwIoctlFilterGet then
    let u := { u with action := (shr val (u.protocolFilterNum * 2) &&& 0x3#32).setWidth 2 }
    ⟨some 0, [use p, use p, .copyToUser (.filter u)]⟩
  else
    ⟨some 0, [use p, .swWrite 0x95 ((val &&& ~~~ shl 0x03#32 (u.protocolFilterNum * 2)) |||
      shl (u.action.signExtend 32 &&& 0x03#32) (u.protocolFilterNum * 2))]⟩

/-- The three commands on the protocol filters, which leave the request block allocated. -/
def filterCommand (o : IoctlOutcomes) (cmd : U32) : IoctlRun := fetch o .uPROTOCOLFILTER (filterOperate o cmd)

def admIoctl (o : IoctlOutcomes) (cmd : U32) : IoctlRun :=
  if iocType cmd ≠ admMagic then ⟨some (-einval), []⟩
  else if keyIoctlMaxKey ≤ iocNr cmd then ⟨some (-einval), []⟩
  else if cmd = admIoctlRegrw then regrwCommand o false
  else if cmd = admSwIoctlRegrw then regrwCommand o true
  else if cmd = admSwIoctlPortsts then ⟨some 0, (List.range 6).map .checkPortStatus⟩
  else if cmd = admSwIoctlInit then ⟨some 0, [.swInit]⟩
  else if cmd = admSwIoctlMacentryAdd ∨ cmd = admSwIoctlMacentryDel ∨ cmd = admSwIoctlMacentryGetInit ∨
      cmd = admSwIoctlMacentryGetMore then macentryCommand o cmd
  else if cmd = admSwIoctlFilterAdd ∨ cmd = admSwIoctlFilterDel ∨ cmd = admSwIoctlFilterGet then filterCommand o cmd
  else ⟨some (-efault), []⟩

/-! ### The protocol filters once more -/

def IoctlAct.onSwitch (r : Regs) : IoctlAct → Regs
  | .swWrite addr dat => ifxSwWrite r addr.toNat dat
  | _ => r

/-- Over registers that are plain storage, the commands on the filters do what `adm_process_protocol_filter_request` does. -/
theorem filterOperate_request (r : Regs) (o : IoctlOutcomes) (cmd : U32) (p : Option RequestBlock) (n : Fin 8)
    (asked : o.filter.protocolFilterNum = n) (plain : o.read = fun addr => ifxSwRead r addr.toNat) :
    (filterOperate o cmd p).acts.foldl IoctlAct.onSwitch r = (admProcessProtocolFilterRequest r cmd o.filter).2 := by
  have number : (if cmd = admSwIoctlFilterDel then { o.filter with ipP := 0, action := 0 } else o.filter).protocolFilterNum =
      n := by
    split <;> exact asked
  unfold filterOperate admProcessProtocolFilterRequest
  generalize (if cmd = admSwIoctlFilterDel then { o.filter with ipP := 0, action := 0 } else o.filter) = u at number ⊢
  by_cases get : cmd = admSwIoctlFilterGet
  · simp only [ne_eq, get, not_true_eq_false, if_false]
    rfl
  · obtain ⟨addr, _⟩ := request_register n
    have elsewhere (dat : U32) : ifxSwRead (ifxSwWrite r (protocolField n).addr dat) 0x95 = ifxSwRead r 0x95 := by
      have other : 0x95 ≠ (protocolField n).addr := by
        show 0x95 ≠ 0x68 + n.val / 2
        omega
      unfold ifxSwRead ifxSwWrite
      rw [Function.update_of_ne other]
    simp only [ne_eq, get, not_false_eq_true, if_true, plain, number, addr]
    split
    · simp only [elsewhere]
      rw [← addr]
      rfl
    · simp only [elsewhere]
      rw [← addr]
      rfl

/-! ### The blocks -/

def IoctlRun.CleanFrom (live : List RequestBlock) (run : IoctlRun) : Prop :=
  ∃ final, MemOp.replay live (memOps run.acts) = some final ∧ (run.ret.isSome → final = [])

variable {live next : List RequestBlock} {acts : List IoctlAct} {rest run : IoctlRun} {o : IoctlOutcomes} {b : RequestBlock}

theorem clean_iff (run : IoctlRun) : run.Clean ↔ run.CleanFrom [] := by
  have sound := MemOp.Ledger.start.replay_isSome (memOps run.acts)
  have ended := MemOp.disciplined_iff_replay (memOps run.acts)
  constructor
  · intro clean
    obtain ⟨final, replayed⟩ := Option.isSome_iff_exists.mp (sound.mpr clean.sound)
    refine ⟨final, replayed, fun returned => ?_⟩
    have empty := ended.mp ⟨clean.sound, clean.freed returned⟩
    exact Option.some.inj (replayed.symm.trans empty)
  · rintro ⟨final, replayed, empty⟩
    refine ⟨sound.mp (by rw [replayed]; rfl), fun returned => ?_⟩
    rw [empty returned] at replayed
    exact (ended.mpr replayed).released

theorem cleanFrom_after (done : MemOp.replay live (memOps acts) = some next) :
    (IoctlRun.after acts rest).CleanFrom live ↔ rest.CleanFrom next := by
  have split : memOps (IoctlRun.after acts rest).acts = memOps acts ++ memOps rest.acts := List.filterMap_append
  unfold IoctlRun.CleanFrom
  rw [split, MemOp.replay_append, done, Option.bind_some]
  rfl

theorem cleanFrom_done (ret : Int) (done : MemOp.replay live (memOps acts) = some next) :
    IoctlRun.CleanFrom live ⟨some ret, acts⟩ ↔ next = [] := by
  constructor
  · rintro ⟨final, replayed, empty⟩
    rw [← Option.some.inj (replayed.symm.trans done)]
    exact empty rfl
  · intro empty
    exact ⟨next, done, fun _ => empty⟩

/-- The pointer is not tested: without memory the call is clean only where nothing is copied to it. -/
theorem fetch_clean (b : RequestBlock) (rest : Option RequestBlock → IoctlRun) :
    (fetch o b rest).Clean ↔
      o.kmalloc = false ∧ o.fromUser = .refused ∨
        o.kmalloc = true ∧ o.fromUser = .missing 0 ∧ (rest (some b)).CleanFrom [b] := by
  rw [clean_iff]
  unfold fetch
  cases o.kmalloc with
  | false =>
    have touched (acts : List IoctlAct) (run : IoctlRun) : ¬ (IoctlRun.after ([use none] ++ acts) run).CleanFrom [] := by
      rintro ⟨final, replayed, _⟩
      cases replayed
    cases o.fromUser with
    | refused => exact iff_of_true ⟨[], rfl, fun _ => rfl⟩ (Or.inl ⟨rfl, rfl⟩)
    | missing bytes =>
      cases bytes with
      | zero => exact iff_of_false (touched [] _) (by simp)
      | succ bytes => exact iff_of_false (touched [] ⟨some (-efault), []⟩) (by simp)
  | true =>
    have allocated : MemOp.replay [] (memOps [.mem (.alloc b)]) = some [b] := rfl
    have copied : MemOp.replay [] (memOps ([.mem (.alloc b)] ++ [use (some b)])) = some [b] := by
      cases b <;> rfl
    cases o.fromUser with
    | refused => exact iff_of_false (fun clean => absurd ((cleanFrom_done _ allocated).mp clean) nofun) (by simp)
    | missing bytes =>
      cases bytes with
      | zero =>
        simp only [if_true, Bool.true_eq_false, false_and, false_or, true_and]
        exact cleanFrom_after copied
      | succ bytes => exact iff_of_false (fun clean => absurd ((cleanFrom_done _ copied).mp clean) nofun) (by simp)

theorem awaitIdle_clean (k : Nat) (rest : U32 → IoctlRun) :
    (awaitIdle o k rest).CleanFrom live ↔ ∀ val ∈ o.wait k, (rest val).CleanFrom live := by
  have asked : MemOp.replay live (memOps [.swRead 0x125]) = some live := rfl
  unfold awaitIdle
  cases o.wait k with
  | none => exact iff_of_true ⟨live, asked, fun returned => by cases returned⟩ (by simp)
  | some val => simpa using cleanFrom_after asked

/-- A block that is fetched and not freed again. -/
theorem held_not_clean (ret : Int) (done : MemOp.replay [b] (memOps acts) = some [b]) :
    ¬ IoctlRun.CleanFrom [b] ⟨some ret, acts⟩ := fun clean => absurd ((cleanFrom_done ret done).mp clean) nofun

theorem regrwCommand_clean (reached : Bool) :
    (regrwCommand o reached).Clean ↔
      o.kmalloc = false ∧ o.fromUser = .refused ∨
        o.kmalloc = true ∧ o.fromUser = .missing 0 ∧ (o.regrw.mode = 0 ∨ o.regrw.mode = 1) := by
  have used : MemOp.replay [.uREGRW] (memOps [use (some .uREGRW)]) = some [RequestBlock.uREGRW] := rfl
  unfold regrwCommand
  rw [fetch_clean, cleanFrom_after used]
  refine or_congr_right (and_congr_right fun _ => and_congr_right fun _ => ?_)
  split
  · rename_i read
    refine iff_of_true ?_ (Or.inl read)
    cases reached <;> exact ⟨[], rfl, fun _ => rfl⟩
  · rename_i notRead
    split
    · rename_i write
      refine iff_of_true ?_ (Or.inr write)
      cases reached <;> exact ⟨[], rfl, fun _ => rfl⟩
    · rename_i notWrite
      exact iff_of_false (held_not_clean _ rfl) (not_or.mpr ⟨notRead, notWrite⟩)

def Hangs (o : IoctlOutcomes) (cmd : U32) : Prop :=
  (cmd = admSwIoctlMacentryGetInit ∧ (o.wait 0 = none ∨ o.wait 1 = none)) ∨ o.wait 2 = none ∨ o.wait 3 = none

theorem macentryResult_held (cmd val : U32) :
    ¬ (macentryResult o cmd (some .mMACENTRY) val).CleanFrom [.mMACENTRY] := by
  unfold macentryResult
  dsimp only
  split
  · exact held_not_clean _ rfl
  · exact held_not_clean _ rfl

theorem macentryOperate_clean (cmd : U32) :
    (macentryOperate o cmd (some .mMACENTRY)).CleanFrom [.mMACENTRY] ↔ o.wait 2 = none ∨ o.wait 3 = none := by
  have written (dat : Nat → U32) : MemOp.replay [RequestBlock.mMACENTRY] (memOps ((List.range 6).map fun i =>
      .swWrite (0x11A + BitVec.ofNat 32 i) (dat i))) = some [RequestBlock.mMACENTRY] := rfl
  unfold macentryOperate
  dsimp only
  simp only [awaitIdle_clean, cleanFrom_after (written _), macentryResult_held]
  cases o.wait 2 <;> cases o.wait 3 <;> simp

theorem macentryCommand_clean (cmd : U32) :
    (macentryCommand o cmd).Clean ↔
      o.kmalloc = false ∧ o.fromUser = .refused ∨
        o.kmalloc = true ∧ o.fromUser = .missing 0 ∧ Hangs o cmd := by
  have used : MemOp.replay [.mMACENTRY] (memOps [use (some .mMACENTRY)]) = some [RequestBlock.mMACENTRY] := rfl
  have reset : MemOp.replay [.mMACENTRY] (memOps [.swWrite 0x11F 0x030]) = some [RequestBlock.mMACENTRY] := rfl
  unfold macentryCommand Hangs
  rw [fetch_clean, cleanFrom_after used]
  refine or_congr_right (and_congr_right fun _ => and_congr_right fun _ => ?_)
  split
  · rename_i first
    simp only [awaitIdle_clean, cleanFrom_after reset, macentryOperate_clean, first, true_and]
    cases o.wait 0 <;> cases o.wait 1 <;> simp
  · rename_i later
    rw [macentryOperate_clean]
    exact (or_iff_right fun first => later first.1).symm

theorem filterOperate_held (cmd : U32) :
    ¬ (filterOperate o cmd (some .uPROTOCOLFILTER)).CleanFrom [.uPROTOCOLFILTER] := by
  have asked (addr dat : U32) : MemOp.replay [.uPROTOCOLFILTER]
      (memOps ([use (some .uPROTOCOLFILTER), .swRead addr, use (some .uPROTOCOLFILTER)] ++
        (if cmd ≠ admSwIoctlFilterGet then [use (some .uPROTOCOLFILTER), .swWrite addr dat] else []) ++
        [.swRead 0x95])) = some [RequestBlock.uPROTOCOLFILTER] := by
    split <;> rfl
  unfold filterOperate
  dsimp only
  rw [cleanFrom_after (asked _ _)]
  split
  · exact held_not_clean _ rfl
  · exact held_not_clean _ rfl

theorem filterCommand_clean (cmd : U32) :
    (filterCommand o cmd).Clean ↔ o.kmalloc = false ∧ o.fromUser = .refused := by
  unfold filterCommand
  rw [fetch_clean, or_iff_left fun held => filterOperate_held cmd held.2.2]

/-! ### Commands that are clean -/

def commandBlock (cmd : U32) : Option RequestBlock :=
  if cmd = admIoctlRegrw ∨ cmd = admSwIoctlRegrw then some .uREGRW
  else if cmd = admSwIoctlMacentryAdd ∨ cmd = admSwIoctlMacentryDel ∨ cmd = admSwIoctlMacentryGetInit ∨
      cmd = admSwIoctlMacentryGetMore then some .mMACENTRY
  else if cmd = admSwIoctlFilterAdd ∨ cmd = admSwIoctlFilterDel ∨ cmd = admSwIoctlFilterGet then some .uPROTOCOLFILTER
  else none

/-- The only ways to the end of a command that frees its block, or never gets there. -/
def Completes (o : IoctlOutcomes) (cmd : U32) : RequestBlock → Prop
  | .uREGRW => o.regrw.mode = 0 ∨ o.regrw.mode = 1
  | .mMACENTRY => Hangs o cmd
  | .uPROTOCOLFILTER => False

theorem commandBlock_known {cmd : U32} (allocates : b ∈ commandBlock cmd) :
    iocType cmd = admMagic ∧ ¬ keyIoctlMaxKey ≤ iocNr cmd := by
  unfold commandBlock at allocates
  split_ifs at allocates with regrw macentry filter
  · obtain rfl | rfl := regrw <;> decide
  · obtain rfl | rfl | rfl | rfl := macentry <;> decide
  · obtain rfl | rfl | rfl := filter <;> decide
  · cases allocates

theorem without_block (ret : Int) {acts : List IoctlAct} (unused : memOps acts = []) :
    (IoctlRun.mk (some ret) acts).Clean := by
  have done : MemOp.replay [] (memOps acts) = some [] := by
    rw [unused]
    rfl
  rw [clean_iff, cleanFrom_done ret done]

/-- A call is clean if and only if the command allocates nothing, or there is neither memory nor an address to copy from,
or the block is filled and the command then frees it (a register command with a known mode) or never returns. -/
theorem admIoctl_clean_iff (o : IoctlOutcomes) (cmd : U32) :
    (admIoctl o cmd).Clean ↔
      ∀ b ∈ commandBlock cmd, o.kmalloc = false ∧ o.fromUser = .refused ∨
        o.kmalloc = true ∧ o.fromUser = .missing 0 ∧ Completes o cmd b := by
  by_cases known : iocType cmd = admMagic ∧ ¬ keyIoctlMaxKey ≤ iocNr cmd
  · unfold admIoctl
    rw [if_neg (not_not.mpr known.1), if_neg known.2]
    split
    · rename_i regrw
      subst regrw
      simpa [commandBlock, Completes] using regrwCommand_clean (o := o) false
    · rename_i notRegrw
      split
      · rename_i swRegrw
        subst swRegrw
        simpa [commandBlock, Completes] using regrwCommand_clean (o := o) true
      · rename_i notSwRegrw
        have block : commandBlock cmd = _ := if_neg (not_or.mpr ⟨notRegrw, notSwRegrw⟩)
        split
        · rename_i portsts
          subst portsts
          exact iff_of_true (without_block 0 rfl) (by simp [show commandBlock admSwIoctlPortsts = none by decide])
        · split
          · rename_i init
            subst init
            exact iff_of_true (without_block 0 rfl) (by simp [show commandBlock admSwIoctlInit = none by decide])
          · rw [block]
            split
            · simpa [Completes] using macentryCommand_clean cmd
            · split
              · simpa [Completes] using filterCommand_clean cmd
              · exact iff_of_true (without_block _ rfl) (by simp)
  · have allocates : ∀ b, b ∉ commandBlock cmd := fun b member => known (commandBlock_known member)
    refine iff_of_true ?_ fun b member => absurd member (allocates b)
    unfold admIoctl
    split
    · exact without_block _ rfl
    · rename_i type
      rw [if_pos (not_not.mp fun small => known ⟨not_not.mp type, small⟩)]
      exact without_block _ rfl

/-- Everything succeeds: the filter is read and copied to the user, and its block stays allocated. -/
def filterAsked : IoctlOutcomes where
  kmalloc := true
  fromUser := .missing 0
  regrw := ⟨0, 0, 0⟩
  macentry := ⟨fun _ => 0, 0, 0, 0, 0, 0, 0, 0⟩
  filter := ⟨0, 0, 0⟩
  read := fun _ => 0
  wait := fun _ => none

theorem filter_block_leaks : ¬ ∀ (o : IoctlOutcomes) (cmd : U32), (admIoctl o cmd).Clean := by
  intro clean
  have freed := (clean filterAsked admSwIoctlFilterGet).freed rfl .uPROTOCOLFILTER
  exact absurd freed (by decide)

end TwinpassGateway.Switch
