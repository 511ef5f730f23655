import TwinpassGateway.Switch.Settings

/-!
The bandwidth limits of the switch: `ifx_sw_set_bndwth` spreads a limit over three registers, and `ifx_sw_get_bndwth`
collects it again.
-/

namespace TwinpassGateway.Switch

open Foundation

def admSwBndwthCtl0 : Nat := 0x31

def admSwBndwthCtl1 : Nat := 0x32

/-- `ADM_SW_BNDWTH_EXTCTL0` to `ADM_SW_BNDWTH_EXTCTL6`. -/
def admSwBndwthExtctl (n : Nat) : Nat := 0x34 + n

/-- `(ifx_sw_read(addr, &val) >> pos) & low`. -/
def fieldAt (r : Regs) (addr pos : Nat) (low : U32) : U32 := (ifxSwRead r addr >>> pos) &&& low

def ifxSwGetBndwth (r : Regs) (port txrx : Nat) : Nat :=
  let bandwidth :=
    if txrx ≠ 0 then
      if port < 2 then
        (fieldAt r admSwBndwthCtl1 (port * 4 + 8) 0xF#32 +
          (fieldAt r (admSwBndwthExtctl 2) (port * 4 + 8) 0xF#32) <<< 4 +
          (fieldAt r (admSwBndwthExtctl 5) (port * 3 + 3) 0x7#32) <<< 8) * 64#32
      else
        let bandwidth :=
          (fieldAt r (admSwBndwthExtctl 0) ((port - 2) * 4) 0xF#32 +
            (fieldAt r (admSwBndwthExtctl 3) ((port - 2) * 4) 0xF#32) <<< 4) * 64#32
        if port < 4 then bandwidth + (fieldAt r (admSwBndwthExtctl 5) (port * 3 + 3) 0x7#32) <<< 8 * 64#32
        else bandwidth + (fieldAt r (admSwBndwthExtctl 6) ((port - 4) * 3) 0x7#32) <<< 8 * 64#32
    else if port < 4 then
      (fieldAt r admSwBndwthCtl0 (port * 4) 0xF#32 + (fieldAt r (admSwBndwthExtctl 1) (port * 4) 0xF#32) <<< 4 +
        (fieldAt r (admSwBndwthExtctl 4) (port * 3) 0x7#32) <<< 8) * 64#32
    else if port = 4 then
      ((ifxSwRead r admSwBndwthCtl1 &&& 0xF#32) + (ifxSwRead r (admSwBndwthExtctl 2) &&& 0xF#32) <<< 4 +
        (fieldAt r (admSwBndwthExtctl 4) (port * 3) 0x7#32) <<< 8) * 64#32
    else
      (fieldAt r admSwBndwthCtl1 4 0xF#32 + (fieldAt r (admSwBndwthExtctl 2) 4 0xF#32) <<< 4 +
        (ifxSwRead r (admSwBndwthExtctl 5) &&& 0x7#32) <<< 8) * 64#32
  bandwidth.toNat

/-- `ifx_sw_write(addr, (ifx_sw_read(addr, &val) & ~(low << pos)) | (reg << pos))`. -/
def putAt (r : Regs) (addr pos : Nat) (low reg : U32) : Regs :=
  ifxSwWrite r addr ((ifxSwRead r addr &&& ~~~(low <<< pos)) ||| reg <<< pos)

def ifxSwSetBndwth (r : Regs) (port txrx : Nat) (limit : Int) : Regs :=
  if limit ≤ 0 ∨ limit ≥ 102400 then ifxSwDisBndctl r port txrx
  else
    let limit64k := BitVec.ofInt 32 (limit / 64)
    let reg1 := limit64k &&& 0xF#32
    let reg2 := (limit64k >>> 4) &&& 0xF#32
    let reg3 := (limit64k >>> 8) &&& 0x7#32
    let r := ifxSwEnaBndctl r port txrx
    if txrx ≠ 0 then
      if port = 0 ∨ port = 1 then
        let r := putAt r admSwBndwthCtl1 (port * 4 + 8) 0xF#32 reg1
        let r := putAt r (admSwBndwthExtctl 2) (port * 4 + 8) 0xF#32 reg2
        putAt r (admSwBndwthExtctl 5) (port * 3 + 3) 0x7#32 reg3
      else if port = 2 ∨ port = 3 then
        let r := putAt r (admSwBndwthExtctl 0) ((port - 2) * 4) 0xF#32 reg1
        let r := putAt r (admSwBndwthExtctl 3) ((port - 2) * 4) 0xF#32 reg2
        putAt r (admSwBndwthExtctl 5) (port * 3 + 3) 0x7#32 reg3
      else if port = 4 ∨ port = 5 then
        let r := putAt r (admSwBndwthExtctl 0) ((port - 2) * 4) 0xF#32 reg1
        let r := putAt r (admSwBndwthExtctl 3) ((port - 2) * 4) 0xF#32 reg2
        putAt r (admSwBndwthExtctl 6) ((port - 4) * 3) 0x7#32 reg3
      else r
    else if port ≤ 3 then
      let r := putAt r admSwBndwthCtl0 (port * 4) 0xF#32 reg1
      let r := putAt r (admSwBndwthExtctl 1) (port * 4) 0xF#32 reg2
      putAt r (admSwBndwthExtctl 4) (port * 3) 0x7#32 reg3
    else if port = 4 ∨ port = 5 then
      let r := putAt r admSwBndwthCtl1 ((port - 4) * 4) 0xF#32 reg1
      let r := putAt r (admSwBndwthExtctl 2) ((port - 4) * 4) 0xF#32 reg2
      if port = 4 then putAt r (admSwBndwthExtctl 4) (port * 3) 0x7#32 reg3
      else
        ifxSwWrite r (admSwBndwthExtctl 5) ((ifxSwRead r (admSwBndwthExtctl 5) &&& ~~~0x7#32) ||| reg3)
    else r

/-! ### Where the parts of a limit are -/

abbrev Lane := Fin 6 × Fin 2

inductive Digit where
  | low
  | mid
  | high
  deriving DecidableEq

instance : Fintype Digit := ⟨{.low, .mid, .high}, fun d => by cases d <;> decide⟩

def Digit.width : Digit → Nat
  | .low => 4
  | .mid => 4
  | .high => 3

def Lane.place (lane : Lane) : Digit → Nat × Nat
  | .low =>
    if lane.2.val ≠ 0 then
      if lane.1.val < 2 then (admSwBndwthCtl1, lane.1 * 4 + 8) else (admSwBndwthExtctl 0, (lane.1 - 2) * 4)
    else if lane.1.val < 4 then (admSwBndwthCtl0, lane.1 * 4)
    else (admSwBndwthCtl1, (lane.1 - 4) * 4)
  | .mid =>
    if lane.2.val ≠ 0 then
      if lane.1.val < 2 then (admSwBndwthExtctl 2, lane.1 * 4 + 8) else (admSwBndwthExtctl 3, (lane.1 - 2) * 4)
    else if lane.1.val < 4 then (admSwBndwthExtctl 1, lane.1 * 4)
    else (admSwBndwthExtctl 2, (lane.1 - 4) * 4)
  | .high =>
    if lane.2.val ≠ 0 then
      if lane.1.val < 4 then (admSwBndwthExtctl 5, lane.1 * 3 + 3) else (admSwBndwthExtctl 6, (lane.1 - 4) * 3)
    else if lane.1.val < 5 then (admSwBndwthExtctl 4, lane.1 * 3)
    else (admSwBndwthExtctl 5, 0)

def Lane.field (lane : Lane) (d : Digit) : Field := ⟨(lane.place d).1, (lane.place d).2, d.width⟩

def Lane.write (lane : Lane) (r : Regs) (d : Digit) (x : Nat) : Regs :=
  ((lane.field d).set (BitVec.ofNat d.width x)).write r

def Lane.read (lane : Lane) (r : Regs) (d : Digit) : BitVec d.width := (lane.field d).read r

/-! ### One digit -/

theorem fields_apart : ∀ (l m : Lane) (d e : Digit), (l, d) ≠ (m, e) → (l.field d).Apart (m.field e) := by
  decide +kernel

theorem fields_inside : ∀ (l : Lane) (d : Digit), (l.field d).lo + (l.field d).width ≤ 16 := by decide +kernel

theorem fields_elsewhere : ∀ (l : Lane) (d : Digit), (l.field d).addr ≠ admSwBndwthCtlEna := by decide +kernel

theorem putAt_set (r : Regs) (addr pos : Nat) {width : Nat} (x : BitVec width) :
    putAt r addr pos ((BitVec.allOnes width).setWidth 32) (x.setWidth 32) = (Field.set ⟨addr, pos, width⟩ x).write r := by
  unfold putAt
  rw [write_mask]
  congr 2
  · apply BitVec.eq_of_getLsbD_eq
    intro i below
    simp [below]
  · apply BitVec.eq_of_getLsbD_eq
    intro i below
    simp [below]

theorem putAt_four (r : Regs) (addr pos : Nat) (x : BitVec 4) :
    putAt r addr pos 0xF#32 (x.setWidth 32) = (Field.set ⟨addr, pos, 4⟩ x).write r := putAt_set r addr pos x

theorem putAt_three (r : Regs) (addr pos : Nat) (x : BitVec 3) :
    putAt r addr pos 0x7#32 (x.setWidth 32) = (Field.set ⟨addr, pos, 3⟩ x).write r := putAt_set r addr pos x

theorem write_three (r : Regs) (addr : Nat) (x : BitVec 3) :
    ifxSwWrite r addr ((ifxSwRead r addr &&& ~~~0x7#32) ||| x.setWidth 32) = (Field.set ⟨addr, 0, 3⟩ x).write r := by
  rw [← putAt_three]
  unfold putAt
  rw [BitVec.shiftLeft_zero, BitVec.shiftLeft_zero]

theorem digit_value {n : Nat} (small : n < 2 ^ 32) (lo width : Nat) {low : U32} (narrow : width ≤ 32)
    (ones : low.toNat = 2 ^ width - 1) :
    (BitVec.ofInt 32 n >>> lo) &&& low = (BitVec.ofNat width (n / 2 ^ lo)).setWidth 32 := by
  apply BitVec.eq_of_toNat_eq
  have whole : (BitVec.ofInt 32 n).toNat = n := by
    rw [BitVec.ofInt_natCast, BitVec.toNat_ofNat, Nat.mod_eq_of_lt small]
  have fits : n / 2 ^ lo % 2 ^ width < 2 ^ 32 :=
    (Nat.mod_lt _ (Nat.two_pow_pos width)).trans_le (Nat.pow_le_pow_right (by decide) narrow)
  rw [BitVec.toNat_and, BitVec.toNat_ushiftRight, whole, ones, Nat.and_two_pow_sub_one_eq_mod,
    Nat.shiftRight_eq_div_pow, BitVec.toNat_setWidth, BitVec.toNat_ofNat, Nat.mod_eq_of_lt fits]

/-! ### The setter and the getter -/

theorem set_limited (r : Regs) (lane : Lane) {limit : Int} (low : 0 < limit) (high : limit < 102400) :
    ifxSwSetBndwth r lane.1 lane.2 limit =
      lane.write (lane.write (lane.write (ifxSwEnaBndctl r lane.1 lane.2) .low (limit / 64).toNat) .mid
        ((limit / 64).toNat / 16)) .high ((limit / 64).toNat / 256) := by
  obtain ⟨n, rfl⟩ : ∃ n : Nat, limit = n := ⟨limit.toNat, by omega⟩
  have units : (n : Int) / 64 = ((n / 64 : Nat) : Int) := by omega
  have small : n / 64 < 2 ^ 32 := by omega
  unfold ifxSwSetBndwth
  rw [if_neg (by omega), units, Int.toNat_natCast]
  generalize n / 64 = n at small
  have first : BitVec.ofInt 32 n &&& 0xF#32 = (BitVec.ofNat 4 n).setWidth 32 := by
    have := digit_value small 0 4 (by decide) (show (0xF#32).toNat = 2 ^ 4 - 1 from rfl)
    rwa [BitVec.ushiftRight_zero, Nat.pow_zero, Nat.div_one] at this
  have second : BitVec.ofInt 32 n >>> 4 &&& 0xF#32 = (BitVec.ofNat 4 (n / 16)).setWidth 32 :=
    digit_value small 4 4 (by decide) rfl
  have third : BitVec.ofInt 32 n >>> 8 &&& 0x7#32 = (BitVec.ofNat 3 (n / 256)).setWidth 32 :=
    digit_value small 8 3 (by decide) rfl
  obtain ⟨port, txrx⟩ := lane
  dsimp only
  rw [first, second, third]
  generalize ifxSwEnaBndctl r port txrx = r
  generalize n / 16 = y
  generalize n / 256 = z
  simp only [putAt_four, putAt_three, write_three]
  fin_cases port <;> fin_cases txrx <;> rfl

theorem fieldAt_read (r : Regs) (addr pos : Nat) {low : U32} {width : Nat} (narrow : width ≤ 32)
    (ones : low.toNat = 2 ^ width - 1) :
    fieldAt r addr pos low = (Field.read ⟨addr, pos, width⟩ r).setWidth 32 := by
  apply BitVec.eq_of_toNat_eq
  have fits : (Field.read ⟨addr, pos, width⟩ r).toNat < 2 ^ 32 :=
    (BitVec.isLt _).trans_le (Nat.pow_le_pow_right (by decide) narrow)
  rw [fieldAt, shifted_toNat r addr pos ones, BitVec.toNat_setWidth, Nat.mod_eq_of_lt fits]

theorem fieldAt_four (r : Regs) (addr pos : Nat) :
    fieldAt r addr pos 0xF#32 = (Field.read ⟨addr, pos, 4⟩ r).setWidth 32 := fieldAt_read r addr pos (by decide) rfl

theorem fieldAt_three (r : Regs) (addr pos : Nat) :
    fieldAt r addr pos 0x7#32 = (Field.read ⟨addr, pos, 3⟩ r).setWidth 32 := fieldAt_read r addr pos (by decide) rfl

theorem read_four (r : Regs) (addr : Nat) :
    ifxSwRead r addr &&& 0xF#32 = (Field.read ⟨addr, 0, 4⟩ r).setWidth 32 := fieldAt_four r addr 0

theorem read_three (r : Regs) (addr : Nat) :
    ifxSwRead r addr &&& 0x7#32 = (Field.read ⟨addr, 0, 3⟩ r).setWidth 32 := fieldAt_three r addr 0

theorem digits_sum (x y : BitVec 4) (z : BitVec 3) :
    ((x.setWidth 32 + y.setWidth 32 <<< 4 + z.setWidth 32 <<< 8) * 64#32).toNat =
      (x.toNat + 16 * y.toNat + 256 * z.toNat) * 64 := by
  have := x.isLt
  have := y.isLt
  have := z.isLt
  simp only [BitVec.toNat_mul, BitVec.toNat_add, BitVec.toNat_shiftLeft, BitVec.toNat_setWidth, BitVec.toNat_ofNat,
    Nat.shiftLeft_eq]
  omega

theorem get_digits (r : Regs) (lane : Lane) :
    ifxSwGetBndwth r lane.1 lane.2 =
      ((lane.read r .low).toNat + 16 * (lane.read r .mid).toNat + 256 * (lane.read r .high).toNat) * 64 := by
  obtain ⟨port, txrx⟩ := lane
  unfold ifxSwGetBndwth
  dsimp only
  simp only [fieldAt_four, fieldAt_three, read_four, read_three, ← BitVec.add_mul]
  refine Eq.trans ?_ (digits_sum (Lane.read (port, txrx) r .low) (Lane.read (port, txrx) r .mid)
    (Lane.read (port, txrx) r .high))
  congr 1
  fin_cases port <;> fin_cases txrx <;> rfl

/-! ### Limits are kept apart -/

section Lanes

variable {l m : Lane} {d e : Digit} {r r' : Regs}

theorem read_write (l : Lane) (d : Digit) (r : Regs) (x : Nat) :
    l.read (l.write r d x) d = BitVec.ofNat d.width x :=
  Field.read_set (fields_inside l d) _ r

theorem read_write_ne (other : (l, d) ≠ (m, e)) (r : Regs) (x : Nat) :
    m.read (l.write r d x) e = m.read r e :=
  (fields_apart l m d e other).read_set (fields_inside m e) _ r

theorem write_ena (l : Lane) (d : Digit) (r : Regs) (x : Nat) :
    l.write r d x admSwBndwthCtlEna = r admSwBndwthCtlEna :=
  Function.update_of_ne (fields_elsewhere l d).symm _ _

theorem read_ena (r : Regs) (word : U32) : l.read (ifxSwWrite r admSwBndwthCtlEna word) d = l.read r d :=
  Field.read_update (fields_elsewhere l d) r _

theorem chk_congr (same : r' admSwBndwthCtlEna = r admSwBndwthCtlEna) (port txrx : Nat) :
    ifxSwChkBndctl r' port txrx = ifxSwChkBndctl r port txrx := by
  unfold ifxSwChkBndctl ifxSwRead
  rw [same]

theorem get_congr (same : ∀ d, l.read r' d = l.read r d) :
    ifxSwGetBndwth r' l.1 l.2 = ifxSwGetBndwth r l.1 l.2 := by
  rw [get_digits, get_digits, same, same, same]

theorem chk_ena (r : Regs) (l m : Lane) :
    ifxSwChkBndctl (ifxSwEnaBndctl r l.1 l.2) m.1 m.2 = if l = m then 1 else ifxSwChkBndctl r m.1 m.2 := by
  have changed := get_apply r (.enaBndctl l.1 l.2) (.bndctl m.1 m.2)
  refine changed.trans ?_
  simp only [Setter.effect, Setter.value, ← Prod.ext_iff]
  split <;> rfl

theorem chk_dis (r : Regs) (l m : Lane) :
    ifxSwChkBndctl (ifxSwDisBndctl r l.1 l.2) m.1 m.2 = if l = m then 0 else ifxSwChkBndctl r m.1 m.2 := by
  have changed := get_apply r (.disBndctl l.1 l.2) (.bndctl m.1 m.2)
  refine changed.trans ?_
  simp only [Setter.effect, Setter.value, ← Prod.ext_iff]
  split <;> rfl

end Lanes

/-- The limit of a lane is in force and reads back in whole units of 64 Kbps; the other lanes are as before. -/
structure Limited (r r' : Regs) (lane : Lane) (limit : Int) : Prop where
  bandwidth : (ifxSwGetBndwth r' lane.1 lane.2 : Int) = limit / 64 * 64
  enabled : ifxSwChkBndctl r' lane.1 lane.2 = 1
  others : ∀ other : Lane, other ≠ lane → ifxSwGetBndwth r' other.1 other.2 = ifxSwGetBndwth r other.1 other.2 ∧
    ifxSwChkBndctl r' other.1 other.2 = ifxSwChkBndctl r other.1 other.2

/-- The lane has no limit, and nothing else in the registers has changed. -/
structure Unlimited (r r' : Regs) (lane : Lane) : Prop where
  disabled : ifxSwChkBndctl r' lane.1 lane.2 = 0
  others : ∀ other : Lane, other ≠ lane → ifxSwChkBndctl r' other.1 other.2 = ifxSwChkBndctl r other.1 other.2
  bandwidths : ∀ other : Lane, ifxSwGetBndwth r' other.1 other.2 = ifxSwGetBndwth r other.1 other.2
  bits : ∀ addr i, (addr, i) ≠ (admSwBndwthCtlEna, bndctlPos lane.1 lane.2) → (r' addr).getLsbD i = (r addr).getLsbD i

theorem limited (r : Regs) (lane : Lane) {limit : Int} (low : 0 < limit) (high : limit < 102400) :
    Limited r (ifxSwSetBndwth r lane.1 lane.2 limit) lane limit := by
  rw [set_limited r lane low high]
  have units : (limit / 64).toNat < 1600 := by omega
  refine ⟨?_, ?_, fun other different => ⟨get_congr fun d => ?_, ?_⟩⟩
  · have apart {d e : Digit} (other : d ≠ e) : (lane, d) ≠ (lane, e) := fun same => other (congrArg Prod.snd same)
    rw [get_digits, read_write_ne (apart (by decide : Digit.high ≠ .low)),
      read_write_ne (apart (by decide : Digit.mid ≠ .low)), read_write,
      read_write_ne (apart (by decide : Digit.high ≠ .mid)), read_write, read_write]
    simp only [BitVec.toNat_ofNat, Digit.width]
    omega
  · rw [chk_congr (write_ena ..), chk_congr (write_ena ..), chk_congr (write_ena ..), chk_ena, if_pos rfl]
  · have apart (e : Digit) : (lane, e) ≠ (other, d) := fun same => different (congrArg Prod.fst same).symm
    rw [read_write_ne (apart _), read_write_ne (apart _), read_write_ne (apart _)]
    exact read_ena r _
  · rw [chk_congr (write_ena ..), chk_congr (write_ena ..), chk_congr (write_ena ..), chk_ena, if_neg different.symm]

theorem bndctlBit_eq : ∀ lane : Lane, (bndctlBit lane.1 lane.2).setWidth 16 = BitVec.twoPow 16 (bndctlPos lane.1 lane.2) := by
  decide +kernel

theorem unlimited (r : Regs) (lane : Lane) : Unlimited r (ifxSwDisBndctl r lane.1 lane.2) lane := by
  refine ⟨?_, fun other different => ?_, fun other => get_congr fun d => read_ena r _, ?_⟩
  · rw [chk_dis, if_pos rfl]
  · rw [chk_dis, if_neg different.symm]
  · intro addr i elsewhere
    by_cases ena : addr = admSwBndwthCtlEna
    · subst ena
      have bit : i ≠ bndctlPos lane.1 lane.2 := fun same => elsewhere (by rw [same])
      have written : ifxSwDisBndctl r lane.1 lane.2 admSwBndwthCtlEna =
          r admSwBndwthCtlEna &&& ~~~ BitVec.twoPow 16 (bndctlPos lane.1 lane.2) := by
        rw [← bndctlBit_eq lane]
        simp [ifxSwDisBndctl, ifxSwWrite, ifxSwRead]
      rw [written, BitVec.getLsbD_and, BitVec.getLsbD_not, BitVec.getLsbD_twoPow]
      by_cases below : i < 16
      · simp [below, bit.symm]
      · simp [BitVec.getLsbD_of_ge _ i (Nat.le_of_not_lt below)]
    · exact congrArg (fun word => word.getLsbD i) (Function.update_of_ne ena _ r)

/-- Over every content of the registers: a limit in range reads back and changes no other, any other value only takes
the limit away. -/
theorem bndwth_read_back (r : Regs) (lane : Lane) (limit : Int) :
    if 0 < limit ∧ limit < 102400 then Limited r (ifxSwSetBndwth r lane.1 lane.2 limit) lane limit
    else Unlimited r (ifxSwSetBndwth r lane.1 lane.2 limit) lane := by
  split
  · rename_i inRange
    exact limited r lane inRange.1 inRange.2
  · rename_i outside
    unfold ifxSwSetBndwth
    rw [if_pos (by omega)]
    exact unlimited r lane

end TwinpassGateway.Switch
