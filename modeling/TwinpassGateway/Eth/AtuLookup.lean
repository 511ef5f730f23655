import Mathlib.Data.BitVec
import Mathlib.Tactic
import TwinpassGateway.Foundation.Word

/-!
The lookup of a MAC address in the switch's address table, `atu_lookup_mac` of `danube_ppa_eth_d2.c`: the address before it
is given to the GET_NEXT operation, and the answer has to be the address itself.
-/

namespace TwinpassGateway.Eth

open Foundation

structure Atu where
  regs : Nat → BitVec 16
  /-- How many more reads of the operation register find the busy bit. -/
  busy : Nat

/-- The GET_NEXT operation of the switch: what it answers for an address, and how long it takes. -/
structure AtuSwitch where
  getNext : BitVec 48 → Option (BitVec 48 × BitVec 16)
  delay : Nat

namespace Atu

def read (s : Atu) (reg : Nat) : BitVec 16 × Atu :=
  if reg = 0x0B then
    (if s.busy = 0 then s.regs reg &&& 0x7FFF else s.regs reg ||| 0x8000, { s with busy := s.busy - 1 })
  else (s.regs reg, s)

def address (s : Atu) : BitVec 48 := s.regs 0x0D ++ s.regs 0x0E ++ s.regs 0x0F

def setAddress (s : Atu) (mac : BitVec 48) : Atu :=
  { s with
    regs := fun reg =>
      if reg = 0x0D then mac.extractLsb' 32 16
      else if reg = 0x0E then mac.extractLsb' 16 16
      else if reg = 0x0F then mac.extractLsb' 0 16
      else s.regs reg }

def setData (s : Atu) (data : BitVec 16) : Atu := { s with regs := Function.update s.regs 0x0C data }

/-- A write to the operation register of 0xC000 starts GET_NEXT. -/
def write (hw : AtuSwitch) (s : Atu) (reg : Nat) (val : BitVec 16) : Atu :=
  let s := { s with regs := Function.update s.regs reg val }
  if reg = 0x0B ∧ val = 0xC000 then
    let s := { s with busy := hw.delay }
    match hw.getNext s.address with
    | some (mac, data) => (s.setAddress mac).setData data
    | none => s
  else s

end Atu

def MAX_BUSY : Nat := 100

/-- The loop that waits for the busy bit, with `left` reads before it gives up. -/
def waitBusy : Nat → Atu → Bool × Atu
  | left, s =>
    let (opReg, s) := s.read 0x0B
    if opReg &&& 0x8000 = 0 then (true, s)
    else
      match left with
      | 0 => (false, s)
      | left + 1 => waitBusy left s

/-- What `atu_lookup_mac` reads and writes: the caller's address and result, its own copy of the address and the switch. -/
structure LookupFrame where
  pMac : Nat → U8
  pResult : BitVec 16
  lbmac : Nat → U8
  atu : Atu

/-- The loop that subtracts 1, from byte `k - 1` down. -/
def subtractOne : Nat → (Nat → U8) → Nat → U8
  | 0, lbmac => lbmac
  | lcv + 1, lbmac =>
    let lbmac := Function.update lbmac lcv (lbmac lcv - 1)
    if lbmac lcv ≠ 0xFF then lbmac else subtractOne lcv lbmac

/-- `*(u16 *)(p + i)` on a big-endian processor. -/
def word16 (p : Nat → U8) (i : Nat) : BitVec 16 := p i ++ p (i + 1)

def askNext (hw : AtuSwitch) (s : Atu) (lbmac : Nat → U8) : Atu :=
  let s := s.write hw 0x0D (word16 lbmac 0)
  let s := s.write hw 0x0E (word16 lbmac 2)
  let s := s.write hw 0x0F (word16 lbmac 4)
  s.write hw 0x0B 0xC000

/-- The end of `atu_lookup_mac`: the answer must be the address that is wanted. -/
def readAnswer (f : LookupFrame) : Int × LookupFrame :=
  let (atuDataReg, atu) := f.atu.read 0x0C
  let (maclow, atu) := atu.read 0x0F
  let (macmid, atu) := atu.read 0x0E
  let (machi, atu) := atu.read 0x0D
  let f := { f with atu := atu }
  if machi ≠ word16 f.pMac 0 then (3, f)
  else if macmid ≠ word16 f.pMac 2 then (4, f)
  else if maclow ≠ word16 f.pMac 4 then (4, f)
  else (0, { f with pResult := atuDataReg })

def atuLookupMac (hw : AtuSwitch) (f : LookupFrame) : Int × LookupFrame :=
  let f := { f with lbmac := fun i => if i < 6 then f.pMac i else f.lbmac i }
  let f := { f with lbmac := subtractOne 6 f.lbmac }
  let (ready, atu) := waitBusy (MAX_BUSY - 1) f.atu
  let f := { f with atu := atu }
  if !ready then (1, f)
  else
    let (ready, atu) := waitBusy (MAX_BUSY - 1) (askNext hw f.atu f.lbmac)
    let f := { f with atu := atu }
    if !ready then (2, f) else readAnswer f

/-! ### What GET_NEXT answers -/

/-- The entry after an address: the smallest of the greater ones, or the smallest of all if none is greater. -/
def IsNext (table : BitVec 48 → Option (BitVec 16)) (a b : BitVec 48) : Prop :=
  (a < b ∧ ∀ c, table c ≠ none → a < c → b ≤ c) ∨ ((∀ c, table c ≠ none → ¬ a < c) ∧ ∀ c, table c ≠ none → b ≤ c)

structure AtuSwitch.Serves (hw : AtuSwitch) (table : BitVec 48 → Option (BitVec 16)) : Prop where
  entry : ∀ a b data, hw.getNext a = some (b, data) → table b = some data ∧ IsNext table a b
  empty : ∀ a, hw.getNext a = none → ∀ b, table b = none

/-- The address that follows the one before `m` is `m`, if `m` is in the table. -/
theorem isNext_pred {table : BitVec 48 → Option (BitVec 16)} {m b : BitVec 48} (next : IsNext table (m - 1) b)
    (present : table m ≠ none) : b = m := by
  obtain ⟨above, least⟩ | ⟨none_above, least⟩ := next
  · have below : m - 1 < m := by bv_omega
    have small := least m present below
    bv_omega
  · have not_above := none_above m present
    have small := least m present
    bv_omega

/-! ### The address before -/

def prefixValue (p : Nat → U8) : Nat → Nat
  | 0 => 0
  | k + 1 => 256 * prefixValue p k + (p k).toNat

theorem prefixValue_congr {p q : Nat → U8} {k : Nat} (same : ∀ i < k, p i = q i) : prefixValue p k = prefixValue q k := by
  induction k with
  | zero => rfl
  | succ k ih =>
    unfold prefixValue
    rw [ih fun i below => same i (by omega), same k (by omega)]

theorem prefixValue_update (p : Nat → U8) (k : Nat) (byte : U8) :
    prefixValue (Function.update p k byte) k = prefixValue p k :=
  prefixValue_congr fun _ below => Function.update_of_ne (by omega) _ _

theorem subtractOne_above (k : Nat) (p : Nat → U8) {i : Nat} (above : k ≤ i) : subtractOne k p i = p i := by
  induction k generalizing p with
  | zero => rfl
  | succ lcv ih =>
    unfold subtractOne
    have kept : Function.update p lcv (p lcv - 1) i = p i := Function.update_of_ne (by omega) _ _
    dsimp only
    split
    · exact kept
    · rw [ih _ (by omega), kept]

/-- The borrow goes on as long as the bytes are zero, and around if all are. -/
theorem prefixValue_subtractOne (k : Nat) (p : Nat → U8) :
    prefixValue (subtractOne k p) k = if prefixValue p k = 0 then 256 ^ k - 1 else prefixValue p k - 1 := by
  induction k generalizing p with
  | zero => rfl
  | succ lcv ih =>
    unfold subtractOne
    dsimp only
    rw [Function.update_self]
    split
    · rename_i no_borrow
      have positive : 0 < (p lcv).toNat := by
        refine Nat.pos_of_ne_zero fun zero => no_borrow ?_
        rw [BitVec.eq_of_toNat_eq (y := 0#8) zero]
        rfl
      have less : (p lcv - 1).toNat = (p lcv).toNat - 1 := by bv_omega
      unfold prefixValue
      rw [prefixValue_update, Function.update_self, less, if_neg (by omega)]
      omega
    · rename_i borrow
      have zero : (p lcv).toNat = 0 := by bv_omega
      have byte : (subtractOne lcv (Function.update p lcv (p lcv - 1)) lcv).toNat = 255 := by
        rw [subtractOne_above lcv _ le_rfl, Function.update_self]
        bv_omega
      have positive : 0 < 256 ^ lcv := by positivity
      unfold prefixValue
      rw [ih, prefixValue_update, byte, zero, pow_succ]
      split <;> split <;> omega

def macAddress (p : Nat → U8) : BitVec 48 := word16 p 0 ++ word16 p 2 ++ word16 p 4

theorem toNat_append {v w : Nat} (x : BitVec v) (y : BitVec w) : (x ++ y).toNat = 2 ^ w * x.toNat + y.toNat := by
  rw [BitVec.toNat_append, ← Nat.shiftLeft_add_eq_or_of_lt y.isLt, Nat.shiftLeft_eq, Nat.mul_comm]

theorem toNat_macAddress (p : Nat → U8) : (macAddress p).toNat = prefixValue p 6 := by
  have words : (macAddress p).toNat =
      2 ^ 16 * (2 ^ 16 * (word16 p 0).toNat + (word16 p 2).toNat) + (word16 p 4).toNat := by
    rw [← toNat_append, ← toNat_append]
    rfl
  have bytes (i : Nat) : (word16 p i).toNat = 2 ^ 8 * (p i).toNat + (p (i + 1)).toNat := toNat_append _ _
  rw [words, bytes, bytes, bytes]
  simp only [prefixValue, Nat.reduceAdd]
  omega

theorem macAddress_subtractOne (p : Nat → U8) : macAddress (subtractOne 6 p) = macAddress p - 1 := by
  apply BitVec.eq_of_toNat_eq
  have bound := (macAddress p).isLt
  rw [BitVec.toNat_sub, toNat_macAddress, prefixValue_subtractOne, ← toNat_macAddress]
  split
  · rename_i zero
    rw [zero]
    rfl
  · have one : (1 : BitVec 48).toNat = 1 := rfl
    rw [one]
    omega

/-! ### The switch -/

theorem busy_clear (x : BitVec 16) : x &&& 0x7FFF &&& 0x8000 = 0 := by
  rw [BitVec.and_assoc]
  exact BitVec.and_zero

theorem busy_set (x : BitVec 16) : (x ||| 0x8000) &&& 0x8000 ≠ 0 := by
  intro zero
  have bit := congrArg (fun y => y.getLsbD 15) zero
  simp at bit

theorem waitBusy_ends {left : Nat} {s : Atu} (soon : s.busy ≤ left) : waitBusy left s = (true, { s with busy := 0 }) := by
  induction left generalizing s with
  | zero =>
    have idle : s.busy = 0 := by omega
    unfold waitBusy Atu.read
    dsimp only
    rw [if_pos rfl, if_pos idle, if_pos (busy_clear _), idle]
  | succ left ih =>
    unfold waitBusy Atu.read
    dsimp only
    rw [if_pos rfl]
    by_cases idle : s.busy = 0
    · rw [if_pos idle, if_pos (busy_clear _), idle]
    · rw [if_neg idle, if_neg (busy_set _), ih (by dsimp only; omega)]

theorem append_words_inj {x y z x' y' z' : BitVec 16} : x ++ y ++ z = x' ++ y' ++ z' ↔ x = x' ∧ y = y' ∧ z = z' := by
  constructor
  · intro same
    have value := congrArg BitVec.toNat same
    simp only [toNat_append] at value
    refine ⟨?_, ?_, ?_⟩ <;> apply BitVec.eq_of_toNat_eq <;> omega
  · rintro ⟨rfl, rfl, rfl⟩
    rfl

theorem address_setAddress (s : Atu) (mac : BitVec 48) : (s.setAddress mac).address = mac := by
  have parts : mac.extractLsb' 32 16 ++ mac.extractLsb' 16 16 ++ mac.extractLsb' 0 16 = mac := by
    apply BitVec.eq_of_toNat_eq
    have bound := mac.isLt
    simp only [toNat_append, BitVec.extractLsb'_toNat, Nat.shiftRight_eq_div_pow]
    omega
  exact parts

theorem address_setData (s : Atu) (data : BitVec 16) : (s.setData data).address = s.address := rfl

def answer (hw : AtuSwitch) (s : Atu) (mac : BitVec 48) : Prop :=
  match hw.getNext mac with
  | some (b, data) => s.address = b ∧ s.regs 0x0C = data
  | none => s.address = mac

theorem write_getNext (hw : AtuSwitch) (s : Atu) : answer hw (s.write hw 0x0B 0xC000) s.address := by
  have same : ({ s with regs := Function.update s.regs 0x0B 0xC000, busy := hw.delay } : Atu).address = s.address := rfl
  unfold Atu.write answer
  rw [if_pos ⟨rfl, rfl⟩]
  dsimp only
  rw [same]
  cases hw.getNext s.address with
  | none => exact same
  | some entry => exact ⟨(address_setData _ _).trans (address_setAddress _ _), rfl⟩

theorem write_busy (hw : AtuSwitch) (s : Atu) : (s.write hw 0x0B 0xC000).busy = hw.delay := by
  unfold Atu.write
  rw [if_pos ⟨rfl, rfl⟩]
  dsimp only
  split <;> rfl

theorem askNext_answer (hw : AtuSwitch) (s : Atu) (lbmac : Nat → U8) :
    answer hw (askNext hw s lbmac) (macAddress lbmac) :=
  write_getNext hw (((s.write hw 0x0D (word16 lbmac 0)).write hw 0x0E (word16 lbmac 2)).write hw 0x0F (word16 lbmac 4))

theorem readAnswer_eq (f : LookupFrame) :
    if f.atu.address = macAddress f.pMac then readAnswer f = (0, { f with pResult := f.atu.regs 0x0C })
    else ∃ code ≠ 0, readAnswer f = (code, f) := by
  have matches_iff : f.atu.address = macAddress f.pMac ↔
      f.atu.regs 0x0D = word16 f.pMac 0 ∧ f.atu.regs 0x0E = word16 f.pMac 2 ∧ f.atu.regs 0x0F = word16 f.pMac 4 :=
    append_words_inj
  have reads (reg : Nat) (other : reg ≠ 0x0B) : f.atu.read reg = (f.atu.regs reg, f.atu) := if_neg other
  unfold readAnswer
  simp only [reads _ (show 0x0C ≠ 0x0B by decide), reads _ (show 0x0D ≠ 0x0B by decide),
    reads _ (show 0x0E ≠ 0x0B by decide), reads _ (show 0x0F ≠ 0x0B by decide), ite_not, matches_iff]
  by_cases high : f.atu.regs 0x0D = word16 f.pMac 0
  · by_cases mid : f.atu.regs 0x0E = word16 f.pMac 2
    · by_cases low : f.atu.regs 0x0F = word16 f.pMac 4
      · rw [if_pos ⟨high, mid, low⟩, if_pos high, if_pos mid, if_pos low]
      · rw [if_neg fun all => low all.2.2, if_pos high, if_pos mid, if_neg low]
        exact ⟨4, by decide, rfl⟩
    · rw [if_neg fun all => mid all.2.1, if_pos high, if_neg mid]
      exact ⟨4, by decide, rfl⟩
  · rw [if_neg fun all => high all.1, if_neg high]
    exact ⟨3, by decide, rfl⟩

/-- On a switch that is fast enough the lookup comes to the comparison. -/
theorem atuLookupMac_ends (hw : AtuSwitch) (f : LookupFrame) (idle : f.atu.busy < MAX_BUSY) (fast : hw.delay < MAX_BUSY) :
    ∃ lbmac atu, answer hw atu (macAddress f.pMac - 1) ∧
      atuLookupMac hw f = readAnswer { f with lbmac := lbmac, atu := atu } := by
  let lbmac := subtractOne 6 fun i => if i < 6 then f.pMac i else f.lbmac i
  let ready : Atu := { f.atu with busy := 0 }
  let asked := askNext hw ready lbmac
  have before : macAddress lbmac = macAddress f.pMac - 1 := macAddress_subtractOne _
  have first : waitBusy (MAX_BUSY - 1) f.atu = (true, ready) := waitBusy_ends (by omega)
  have second : waitBusy (MAX_BUSY - 1) asked = (true, { asked with busy := 0 }) := by
    apply waitBusy_ends
    have delay : asked.busy = hw.delay := write_busy hw _
    omega
  refine ⟨lbmac, { asked with busy := 0 }, ?_, ?_⟩
  · rw [← before]
    exact askNext_answer hw ready lbmac
  · unfold atuLookupMac
    simp only [first]
    exact congrArg (fun polled : Bool × Atu =>
      if !polled.1 then (2, { f with lbmac := lbmac, atu := polled.2 })
      else readAnswer { f with lbmac := lbmac, atu := polled.2 }) second

/-- The answer is the address that is wanted exactly when that address is in the table. -/
theorem answer_found {hw : AtuSwitch} {table : BitVec 48 → Option (BitVec 16)} (serves : hw.Serves table) {atu : Atu}
    {m : BitVec 48} (answered : answer hw atu (m - 1)) :
    table m = if atu.address = m then some (atu.regs 0x0C) else none := by
  unfold answer at answered
  cases next : hw.getNext (m - 1) with
  | none =>
    rw [next] at answered
    have unequal : m - 1 ≠ m := by bv_omega
    rw [if_neg fun same => unequal (answered.symm.trans same)]
    exact serves.empty _ next m
  | some entry =>
    obtain ⟨b, data⟩ := entry
    rw [next] at answered
    obtain ⟨address, register⟩ := answered
    obtain ⟨in_table, is_next⟩ := serves.entry _ b data next
    rw [address, register]
    split
    · rename_i same
      rw [← same, in_table]
    · rename_i other
      by_contra present
      exact other (isNext_pred is_next present)

/-- The lookup succeeds for the addresses in the table and gives their data. -/
theorem atuLookupMac_correct (hw : AtuSwitch) (table : BitVec 48 → Option (BitVec 16)) (serves : hw.Serves table)
    (fast : hw.delay < MAX_BUSY) (f : LookupFrame) (idle : f.atu.busy < MAX_BUSY) :
    ((atuLookupMac hw f).1 = 0 ↔ table (macAddress f.pMac) ≠ none) ∧
      (∀ data, table (macAddress f.pMac) = some data → (atuLookupMac hw f).2.pResult = data) ∧
      (table (macAddress f.pMac) = none → (atuLookupMac hw f).2.pResult = f.pResult) ∧
      (atuLookupMac hw f).2.pMac = f.pMac := by
  obtain ⟨lbmac, atu, answered, ends⟩ := atuLookupMac_ends hw f idle fast
  have outcome := readAnswer_eq { f with lbmac := lbmac, atu := atu }
  have found := answer_found serves answered
  rw [ends]
  dsimp only at outcome
  by_cases same : atu.address = macAddress f.pMac
  · rw [if_pos same] at outcome found
    rw [outcome, found]
    exact ⟨iff_of_true rfl (Option.some_ne_none _), fun data equal => Option.some.inj equal, nofun, rfl⟩
  · rw [if_neg same] at outcome found
    obtain ⟨code, failed, outcome⟩ := outcome
    rw [outcome, found]
    exact ⟨iff_of_false failed (not_not.mpr rfl), nofun, fun _ => rfl, rfl⟩

def oneEntrySwitch (mac : BitVec 48) (data : BitVec 16) : AtuSwitch where
  getNext := fun _ => some (mac, data)
  delay := 3

def oneEntryTable (mac : BitVec 48) (data : BitVec 16) : BitVec 48 → Option (BitVec 16) :=
  fun b => if b = mac then some data else none

theorem oneEntrySwitch_serves (mac : BitVec 48) (data : BitVec 16) :
    (oneEntrySwitch mac data).Serves (oneEntryTable mac data) := by
  have only {c : BitVec 48} (entry : oneEntryTable mac data c ≠ none) : c = mac := by
    by_contra other
    exact entry (if_neg other)
  have smallest {c : BitVec 48} (entry : oneEntryTable mac data c ≠ none) : mac ≤ c := by
    rw [only entry]
    exact Nat.le_refl _
  refine ⟨fun a b found equal => ?_, nofun⟩
  obtain ⟨rfl, rfl⟩ := Prod.mk.inj (Option.some.inj equal)
  refine ⟨if_pos rfl, ?_⟩
  by_cases above : a < mac
  · exact .inl ⟨above, fun c entry _ => smallest entry⟩
  · exact .inr ⟨fun c entry => by rwa [only entry], fun c entry => smallest entry⟩

def lookupOf (mac : BitVec 48) : LookupFrame where
  pMac := fun i => mac.extractLsb' (40 - 8 * i) 8
  pResult := 0
  lbmac := fun _ => 0
  atu := { regs := fun _ => 0, busy := 2 }

theorem lookup_zero_address :
    macAddress (lookupOf 0).pMac = 0 ∧
      (atuLookupMac (oneEntrySwitch 0 0x0040) (lookupOf 0)).1 = 0 ∧
      (atuLookupMac (oneEntrySwitch 0 0x0040) (lookupOf 0)).2.pResult = 0x0040 := by
  have address : macAddress (lookupOf 0).pMac = 0 := by decide
  have entry : oneEntryTable 0 0x0040 (macAddress (lookupOf 0).pMac) = some 0x0040 := by
    rw [address]
    rfl
  obtain ⟨found, data, -⟩ := atuLookupMac_correct (oneEntrySwitch 0 0x0040) (oneEntryTable 0 0x0040)
    (oneEntrySwitch_serves 0 0x0040) (by decide) (lookupOf 0) (by decide)
  refine ⟨address, found.mpr ?_, data _ entry⟩
  rw [entry]
  exact Option.some_ne_none _

end TwinpassGateway.Eth
