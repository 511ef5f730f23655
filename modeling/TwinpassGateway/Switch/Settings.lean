import Mathlib.Data.Nat.Bitwise
import Mathlib.Tactic.DeriveFintype
import TwinpassGateway.Foundation.Field
import TwinpassGateway.Switch.Adm6996

/-!
Which settings of the switch a setter changes.
-/

namespace TwinpassGateway.Switch

open Foundation

deriving instance Fintype for Setting

deriving instance Fintype for Setter

/-! ### Settings as fields, setters as masks -/

def bndctlPos (port txrx : Nat) : Nat :=
  if port < 3 then 2 * port + txrx else if txrx ≠ 0 then 9 + (port - 3) else 6 + (port - 3)

/-- Queue 0 has no weight: its getter reads an empty field. -/
def Setting.field : Setting → Field
  | .igmp => ⟨admSwIgmpctl, 1, 1⟩
  | .igmpProxy => ⟨admSwIgmpctl, 0, 1⟩
  | .additionalSnoop => ⟨admSwSysctl1, 12, 2⟩
  | .vlanmode => ⟨admSwVlanMode, 5, 1⟩
  | .cpuPort => ⟨admSwVlanMode, 13, 3⟩
  | .qosControl => ⟨admSwBndwthCtlEna, 12, 1⟩
  | .bndctl port txrx => ⟨admSwBndwthCtlEna, bndctlPos port txrx, 1⟩
  | .fc port => ⟨ifxSwConf port, 0, 1⟩
  | .queue port => ⟨ifxSwConf port, 8, 2⟩
  | .queueWeight qno => if qno.val = 0 then ⟨0, 0, 0⟩ else ⟨admSwQueueConf1 + qno - 1, 12, 4⟩

def bitMask (addr n b : Nat) : Mask 16 :=
  if b ≠ 0 then ⟨addr, BitVec.allOnes 16, (bit n).setWidth 16⟩ else ⟨addr, (complBit n).setWidth 16, 0⟩

def Setter.mask : Setter → Mask 16
  | .igmp b => bitMask admSwIgmpctl 1 b
  | .igmpProxy b => bitMask admSwIgmpctl 0 b
  | .additionalSnoop b => if b.val ≠ 0 then ⟨admSwSysctl1, 0xCFFF#16, 0x1000#16⟩ else ⟨admSwSysctl1, 0xC000#16, 0⟩
  | .vlanmode b => bitMask admSwVlanMode 5 b
  | .cpuPort port => ⟨admSwVlanMode, 0, (BitVec.ofInt 32 port.val <<< 13).setWidth 16⟩
  | .qosControl qos => ⟨admSwBndwthCtlEna, (complBit 12).setWidth 16, (BitVec.ofNat 32 qos <<< 12).setWidth 16⟩
  | .enaBndctl port txrx =>
    ⟨admSwBndwthCtlEna, BitVec.allOnes 16, (bndctlBit port txrx ||| bit 12).setWidth 16⟩
  | .disBndctl port txrx => ⟨admSwBndwthCtlEna, (~~~ bndctlBit port txrx).setWidth 16, 0⟩
  | .enaFc port => bitMask (ifxSwConf port) 0 1
  | .disFc port => bitMask (ifxSwConf port) 0 0
  | .queue port qno =>
    ⟨ifxSwConf port, (~~~(0x3#32 <<< 8)).setWidth 16, (BitVec.ofNat 32 qno <<< 8).setWidth 16⟩
  | .queueWeight qno weight =>
    if qno.val = 0 then ⟨0, BitVec.allOnes 16, 0⟩
    else ⟨admSwQueueConf1 + qno - 1, (~~~(0xF#32 <<< 12)).setWidth 16, (BitVec.ofNat 32 weight <<< 12).setWidth 16⟩

theorem write_mask (r : Regs) (addr : Nat) (keep put : U32) :
    ifxSwWrite r addr ((ifxSwRead r addr &&& keep) ||| put) =
      Mask.write ⟨addr, keep.setWidth 16, put.setWidth 16⟩ r := by
  simp [ifxSwWrite, ifxSwRead, Mask.write]

theorem write_keep (r : Regs) (addr : Nat) (keep : U32) :
    ifxSwWrite r addr (ifxSwRead r addr &&& keep) = Mask.write ⟨addr, keep.setWidth 16, 0⟩ r := by
  simp [ifxSwWrite, ifxSwRead, Mask.write]

theorem write_put (r : Regs) (addr : Nat) (put : U32) :
    ifxSwWrite r addr (ifxSwRead r addr ||| put) = Mask.write ⟨addr, BitVec.allOnes 16, put.setWidth 16⟩ r := by
  rw [Mask.write, BitVec.and_allOnes]
  simp [ifxSwWrite, ifxSwRead]

theorem setBit_mask (addr n b : Nat) (r : Regs) : setBit addr n r b = (bitMask addr n b).write r := by
  unfold setBit bitMask
  split
  · exact write_put r addr (bit n)
  · exact write_keep r addr (complBit n)

theorem apply_mask (r : Regs) (c : Setter) : apply r c = c.mask.write r := by
  cases c with
  | igmp b => exact setBit_mask _ _ _ r
  | igmpProxy b => exact setBit_mask _ _ _ r
  | vlanmode b => exact setBit_mask _ _ _ r
  | additionalSnoop b =>
    show ifxSwSetAdditionalSnoopCtr r b = Mask.write (if b.val ≠ 0 then _ else _) r
    unfold ifxSwSetAdditionalSnoopCtr
    split
    · exact write_mask r _ 0xCFFF#32 0x1000#32
    · exact write_keep r _ 0xC000#32
  | cpuPort port =>
    have inRange : ¬ ((port.val : Int) < 0 ∨ (port.val : Int) > 6) := by omega
    show (ifxSwSetCpuPort r port.val).2 = _
    rw [ifxSwSetCpuPort, if_neg inRange]
    simp [ifxSwWrite, Mask.write, Setter.mask]
  | qosControl qos => exact write_mask r _ _ _
  | enaBndctl port txrx =>
    show ifxSwWrite r _ (ifxSwRead r _ ||| bndctlBit port txrx ||| bit 12) = _
    rw [BitVec.or_assoc]
    exact write_put r _ _
  | disBndctl port txrx => exact write_keep r _ _
  | enaFc port => exact write_put r _ _
  | disFc port => exact write_keep r _ _
  | queue port qno => exact write_mask r _ _ _
  | queueWeight qno weight =>
    show ifxSwSetQueueWeight r qno weight = Mask.write (if qno.val = 0 then _ else _) r
    unfold ifxSwSetQueueWeight
    split
    · have same : r 0 ||| (0 : BitVec 16) = r 0 := BitVec.or_zero
      rw [Mask.write, BitVec.and_allOnes]
      show r = Function.update r 0 (r 0 ||| 0)
      rw [same, Function.update_eq_self]
    · exact write_mask r _ _ _

/-! ### Getters -/

theorem field_toNat (r : Regs) (addr lo width : Nat) :
    (Field.read ⟨addr, lo, width⟩ r).toNat = (r addr).toNat >>> lo % 2 ^ width := by
  rw [Field.read, Field.of, BitVec.extractLsb'_toNat]

theorem read_toNat (r : Regs) (addr : Nat) : (ifxSwRead r addr).toNat = (r addr).toNat := by
  have small := (r addr).isLt
  rw [ifxSwRead, BitVec.toNat_setWidth, Nat.mod_eq_of_lt (by omega)]

theorem shifted_toNat (r : Regs) (addr lo : Nat) {low : U32} {width : Nat} (ones : low.toNat = 2 ^ width - 1) :
    (ifxSwRead r addr >>> lo &&& low).toNat = (Field.read ⟨addr, lo, width⟩ r).toNat := by
  rw [field_toNat, BitVec.toNat_and, BitVec.toNat_ushiftRight, read_toNat, ones, Nat.and_two_pow_sub_one_eq_mod]

theorem getBit_field (r : Regs) (addr : Nat) {n : Nat} (below : n < 16) :
    getBit addr n r = (Field.read ⟨addr, n, 1⟩ r).toNat := by
  have power : (bit n).toNat = 2 ^ n := by
    have small : 2 ^ n < 2 ^ 32 := Nat.pow_lt_pow_right (by decide) (by omega)
    rw [bit, BitVec.toNat_shiftLeft, BitVec.toNat_ofNat, Nat.shiftLeft_eq, Nat.mod_eq_of_lt (by omega)]
    omega
  have masked : (ifxSwRead r addr &&& bit n).toNat = ((r addr).toNat.testBit n).toNat * 2 ^ n := by
    rw [BitVec.toNat_and, read_toNat, power, Nat.and_two_pow]
  have tested : (Field.read ⟨addr, n, 1⟩ r).toNat = ((r addr).toNat.testBit n).toNat := by
    rw [field_toNat, Nat.toNat_testBit, Nat.shiftRight_eq_div_pow, Nat.pow_one]
  rw [tested]
  unfold getBit
  cases set : (r addr).toNat.testBit n with
  | false =>
    rw [set, Bool.toNat_false, Nat.zero_mul] at masked
    rw [if_neg (not_not.mpr (BitVec.eq_of_toNat_eq masked))]
    rfl
  | true =>
    rw [set, Bool.toNat_true, Nat.one_mul] at masked
    rw [if_pos]
    · rfl
    · intro zero
      rw [zero] at masked
      exact absurd masked (Nat.ne_of_lt (Nat.two_pow_pos n))

theorem get_field (r : Regs) (s : Setting) : get r s = (s.field.read r).toNat := by
  cases s with
  | igmp => exact getBit_field r _ (by decide)
  | igmpProxy => exact getBit_field r _ (by decide)
  | additionalSnoop =>
    show ((ifxSwRead r admSwSysctl1 &&& 0x3000#32) >>> 12).toNat = _
    have shifted : (ifxSwRead r admSwSysctl1 &&& 0x3000#32) >>> 12 = ifxSwRead r admSwSysctl1 >>> 12 &&& 3#32 :=
      BitVec.ushiftRight_and_distrib _ _ 12
    rw [shifted]
    exact shifted_toNat r _ 12 rfl
  | vlanmode => exact getBit_field r _ (by decide)
  | cpuPort =>
    show ((ifxSwRead r admSwVlanMode &&& 0xE000#32) >>> 13).toNat = _
    have shifted : (ifxSwRead r admSwVlanMode &&& 0xE000#32) >>> 13 = ifxSwRead r admSwVlanMode >>> 13 &&& 7#32 :=
      BitVec.ushiftRight_and_distrib _ _ 13
    rw [shifted]
    exact shifted_toNat r _ 13 rfl
  | qosControl => exact getBit_field r _ (by decide)
  | bndctl port txrx =>
    show ifxSwChkBndctl r port txrx = (Field.read ⟨_, bndctlPos port txrx, 1⟩ r).toNat
    unfold ifxSwChkBndctl
    dsimp only
    rw [← BitVec.shiftRight_add, ← BitVec.shiftRight_add, ← BitVec.shiftRight_add, Nat.mul_comm]
    by_cases low : port.val < 3
    · rw [if_pos low, show bndctlPos port txrx = 2 * port.val + txrx.val from if_pos low]
      apply shifted_toNat
      rfl
    · rw [if_neg low, bndctlPos, if_neg low]
      by_cases tx : txrx.val ≠ 0
      · rw [if_pos tx, if_pos tx]
        apply shifted_toNat
        rfl
      · rw [if_neg tx, if_neg tx]
        apply shifted_toNat
        rfl
  | fc port =>
    have whole : (ifxSwRead r (ifxSwConf port) >>> 0 &&& 1#32).toNat = (Field.read ⟨ifxSwConf port, 0, 1⟩ r).toNat := by
      apply shifted_toNat
      rfl
    exact whole
  | queue port =>
    apply shifted_toNat
    rfl
  | queueWeight qno =>
    show ifxSwGetQueueWeight r qno = ((Setting.queueWeight qno).field.read r).toNat
    unfold ifxSwGetQueueWeight
    by_cases zero : qno.val = 0
    · rw [if_pos zero, Setting.field, if_pos zero, field_toNat, Nat.pow_zero, Nat.mod_one]
    · rw [if_neg zero, Setting.field, if_neg zero]
      apply shifted_toNat
      rfl

/-! ### What a call does to a setting -/

/-- What really becomes of a setting. -/
def Setter.effect (c : Setter) (s : Setting) : Option Nat :=
  match c, s with
  | .igmp b, .igmpProxy => if b.val = 0 then some 0 else none
  | .cpuPort _, .vlanmode => some 0
  | .qosControl _, .bndctl _ _ => some 0
  | .queueWeight qno _, .queueWeight _ => if qno.val = 0 then none else c.value s
  | _, _ => c.value s

theorem effect_table : ∀ (c : Setter) (s : Setting), c.mask.Makes s.field (c.effect s) := by
  decide +kernel

theorem get_apply (r : Regs) (c : Setter) (s : Setting) : get (apply r c) s = (c.effect s).getD (get r s) := by
  rw [apply_mask, get_field, get_field]
  exact (effect_table c s).read r

/-! ### Independence -/

/-- The call finds nothing in the registers that it would lose: `~BIT_1` and `~BIT_12` clear the lower bits as well,
and the CPU port is written without reading the register. Queue 0 takes no weight but 0. -/
def Harmless (r : Regs) : Setter → Prop
  | .igmp b => b.val = 0 → get r .igmpProxy = 0
  | .cpuPort _ => get r .vlanmode = 0
  | .qosControl _ => ∀ port txrx, get r (.bndctl port txrx) = 0
  | .queueWeight qno weight => qno.val = 0 → weight.val = 0
  | _ => True

instance (r : Regs) : ∀ c, Decidable (Harmless r c)
  | .igmp _ => inferInstanceAs (Decidable (_ → _))
  | .cpuPort _ => inferInstanceAs (Decidable (_ = _))
  | .qosControl _ => inferInstanceAs (Decidable (∀ _, ∀ _, _ = _))
  | .queueWeight .. => inferInstanceAs (Decidable (_ → _))
  | .igmpProxy _ | .additionalSnoop _ | .vlanmode _ | .enaBndctl .. | .disBndctl .. | .enaFc _ | .disFc _ | .queue .. =>
    instDecidableTrue

theorem queueWeight_zero (r : Regs) {qno : Fin 4} (zero : qno.val = 0) : get r (.queueWeight qno) = 0 := by
  show ifxSwGetQueueWeight r qno = 0
  rw [ifxSwGetQueueWeight, if_pos zero]

/-- A call acts on the registers as on independent values exactly when it is harmless. -/
theorem get_apply_iff (r : Regs) (c : Setter) : get (apply r c) = assign (get r) c ↔ Harmless r c := by
  have effect : get (apply r c) = assign (get r) c ↔
      ∀ s, (c.effect s).getD (get r s) = (c.value s).getD (get r s) := by
    rw [funext_iff]
    exact forall_congr' fun s => by rw [get_apply]; rfl
  rw [effect]
  cases c with
  | igmp b =>
    constructor
    · intro same cleared
      have proxy := same .igmpProxy
      simp only [Setter.effect, Setter.value, cleared, if_true, Option.getD_some, Option.getD_none] at proxy
      exact proxy.symm
    · intro harmless s
      cases s with
      | igmpProxy =>
        by_cases cleared : b.val = 0
        · simp only [Setter.effect, Setter.value, cleared, if_true, Option.getD_some, Option.getD_none]
          exact (harmless cleared).symm
        · simp only [Setter.effect, Setter.value, cleared, if_false]
      | _ => rfl
  | cpuPort port =>
    constructor
    · intro same
      exact (same .vlanmode).symm
    · intro harmless s
      cases s with
      | vlanmode => exact harmless.symm
      | _ => rfl
  | qosControl qos =>
    constructor
    · intro same port txrx
      exact (same (.bndctl port txrx)).symm
    · intro harmless s
      cases s with
      | bndctl port txrx => exact (harmless port txrx).symm
      | _ => rfl
  | queueWeight qno weight =>
    constructor
    · intro same zero
      have read := same (.queueWeight qno)
      simp only [Setter.effect, Setter.value, zero, if_true, Option.getD_some, Option.getD_none] at read
      exact read.symm.trans (queueWeight_zero r zero)
    · intro harmless s
      by_cases zero : qno.val = 0
      · cases s with
        | queueWeight qno' =>
          simp only [Setter.effect, Setter.value, zero, if_true, Option.getD_none]
          split
          · rename_i same
            subst same
            rw [Option.getD_some, harmless zero, queueWeight_zero r zero]
          · rfl
        | _ => rfl
      · cases s with
        | queueWeight qno' => simp only [Setter.effect, zero, if_false]
        | _ => rfl
  | _ => exact iff_of_true (fun _ => rfl) trivial

/-- After every part of a run each getter returns the value last set, or the one it had at first. -/
def ReadsBack (r : Regs) (calls : List Setter) : Prop :=
  ∀ before after, calls = before ++ after → get (exec apply r before) = exec assign (get r) before

theorem reads_back_iff (r : Regs) (calls : List Setter) : ReadsBack r calls ↔ Guarded apply Harmless r calls := by
  induction calls generalizing r with
  | nil =>
    refine iff_of_true ?_ trivial
    intro before after split
    obtain ⟨rfl, rfl⟩ := List.append_eq_nil_iff.mp split.symm
    rfl
  | cons c rest ih =>
    rw [Guarded, ← get_apply_iff, ← ih]
    constructor
    · intro whole
      have first : get (apply r c) = assign (get r) c := whole [c] rest rfl
      refine ⟨first, ?_⟩
      rintro before after rfl
      have later := whole (c :: before) after rfl
      rw [exec_cons, exec_cons, ← first] at later
      exact later
    · rintro ⟨first, later⟩ before after split
      cases before with
      | nil => rfl
      | cons c' before =>
        obtain ⟨rfl, rfl⟩ := List.cons_eq_cons.mp split
        rw [exec_cons, exec_cons, ← first]
        exact later before after rfl

/-- Snooping off also turns the proxy off, a CPU port turns VLAN mode off, and QoS control turns limits off. -/
theorem settings_interfere :
    ¬ ReadsBack (fun _ => 0) [.igmpProxy 1, .igmp 0] ∧ ¬ ReadsBack (fun _ => 0) [.vlanmode 1, .cpuPort 5] ∧
      ¬ ReadsBack (fun _ => 0) [.enaBndctl 2 1, .qosControl 1] := by
  refine ⟨fun all => ?_, fun all => ?_, fun all => ?_⟩
  · exact absurd (congrFun (all [.igmpProxy 1, .igmp 0] [] rfl) .igmpProxy) (by decide)
  · exact absurd (congrFun (all [.vlanmode 1, .cpuPort 5] [] rfl) .vlanmode) (by decide)
  · exact absurd (congrFun (all [.enaBndctl 2 1, .qosControl 1] [] rfl) (.bndctl 2 1)) (by decide)

end TwinpassGateway.Switch
