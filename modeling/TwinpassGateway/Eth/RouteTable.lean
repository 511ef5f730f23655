import Mathlib.Data.BitVec
import Mathlib.Tactic
import TwinpassGateway.Foundation.Word

/-!
The edits of the hardware route tables, the end of `proc_write_route` in `danube_ppa_eth_d2.c`: an entry is a row of the
compare table and a row of the action table, and both tables hold the WAN entries in front of the LAN entries.
-/

namespace TwinpassGateway.Eth.Route

open Foundation

abbrev Words := Nat → U32

abbrev Row := Fin 4 → U32

inductive Side where
  | lan
  | wan
  deriving DecidableEq

def LAN_ROUT_TBL_CFG : Nat := 0x5116

def WAN_ROUT_TBL_CFG : Nat := 0x5117

def routNum (w : Words) : Side → Nat
  | .lan => (w LAN_ROUT_TBL_CFG >>> 23).toNat
  | .wan => (w WAN_ROUT_TBL_CFG >>> 23).toNat

def routOff (w : Words) : Side → Nat
  | .lan => (w LAN_ROUT_TBL_CFG >>> 14 &&& 0x1FF).toNat
  | .wan => 0

/-- Where `LAN_ROUT_FORWARD_COMPARE_TBL` or `WAN_ROUT_FORWARD_COMPARE_TBL` places an entry. -/
def compareTbl (w : Words) (side : Side) (i : Nat) : Nat := 0x8090 + (i + routOff w side) * 4

def actionTbl (w : Words) (side : Side) (i : Nat) : Nat := 0x51C0 + (i + routOff w side) * 4

def InRange (w : Words) (side : Side) (a : Nat) : Prop :=
  (compareTbl w side 0 ≤ a ∧ a < compareTbl w side (routNum w side)) ∨
    (actionTbl w side 0 ≤ a ∧ a < actionTbl w side (routNum w side))

instance (w : Words) (side : Side) (a : Nat) : Decidable (InRange w side a) := inferInstanceAs (Decidable (_ ∨ _))

/-- A read of a word of a table; it fails out of the range. -/
def load (w : Words) (side : Side) (a : Nat) : Option U32 := if InRange w side a then some (w a) else none

def store (w : Words) (side : Side) (a : Nat) (v : U32) : Option Words :=
  if InRange w side a then some (Function.update w a v) else none

def storeRow (w : Words) (side : Side) (p : Nat) (row : Row) : Option Words := do
  let w ← store w side p (row 0)
  let w ← store w side (p + 1) (row 1)
  let w ← store w side (p + 2) (row 2)
  store w side (p + 3) (row 3)

/-- `*pu2 == *pu1 && pu2[1] == pu1[1] && pu2[2] == pu1[2]` -/
def sameKey (w : Words) (side : Side) (pu1 : Row) (pu2 : Nat) : Option Bool := do
  if (← load w side pu2) ≠ pu1 0 then return false
  if (← load w side (pu2 + 1)) ≠ pu1 1 then return false
  return (← load w side (pu2 + 2)) = pu1 2

/-- `!*pu2 && !pu2[1]` -/
def isFree (w : Words) (side : Side) (pu2 : Nat) : Option Bool := do
  if (← load w side pu2) ≠ 0 then return false
  return (← load w side (pu2 + 1)) = 0

/-- `for ( ; entry < max_entry; entry++, pu2 += 4 ) if ( test(pu2) ) break;` with `left` entries to go. -/
def search (test : Nat → Option Bool) : Nat → Nat → Nat → Option Nat
  | 0, entry, _ => some entry
  | left + 1, entry, pu2 => do
    if ← test pu2 then return entry
    search test left (entry + 1) (pu2 + 4)

inductive Operation where
  | none
  | add
  | delete
  deriving DecidableEq

inductive TableType where
  | auto
  | lan
  | wan
  deriving DecidableEq

structure Command where
  operation : Operation
  type : TableType
  entry : Int
  compare : Row
  action : Row

structure Pointer where
  side : Side
  place : Nat
  deriving DecidableEq

def entryPointer (w : Words) (side : Side) (entry : Nat) : Pointer := ⟨side, compareTbl w side entry⟩

/-- The search of a table for the key to delete: `pu2`, if it is not `NULL`. -/
def findKey (w : Words) (side : Side) (pu1 : Row) : Option (Option Pointer) := do
  let entry ← search (sameKey w side pu1) (routNum w side) 0 (compareTbl w side 0)
  return if entry = routNum w side then none else some (entryPointer w side entry)

def checkKey (w : Words) (side : Side) (entry : Int) (pu1 : Row) : Option (Option Pointer) := do
  let pu2 := entryPointer w side entry.toNat
  return if ← sameKey w side pu1 pu2.place then some pu2 else none

def deletePointer (w : Words) (c : Command) : Option (Option Pointer) :=
  if c.entry < 0 then
    if c.compare 0 ≠ 0 ∧ c.compare 1 ≠ 0 then do
      let pu2 ← (if c.type = .auto ∨ c.type = .lan then findKey w .lan c.compare else pure none)
      if (c.type = .auto ∧ pu2 = none) ∨ c.type = .wan then findKey w .wan c.compare else pure pu2
    else pure none
  else
    if c.compare 0 ≠ 0 ∧ c.compare 1 ≠ 0 then do
      let pu2 ←
        (if (c.type = .auto ∨ c.type = .lan) ∧ c.entry < routNum w .lan then checkKey w .lan c.entry c.compare
        else pure none)
      if ((c.type = .auto ∧ pu2 = none) ∨ c.type = .wan) ∧ c.entry < routNum w .wan then
        checkKey w .wan c.entry c.compare
      else pure pu2
    else if c.compare 0 = 0 ∧ c.compare 1 = 0 then
      if c.type = .lan ∧ c.entry < routNum w .lan then pure (some (entryPointer w .lan c.entry.toNat))
      else if c.type = .wan ∧ c.entry < routNum w .wan then pure (some (entryPointer w .wan c.entry.toNat))
      else pure none
    else pure none

def TableType.side : TableType → Side
  | .lan => .lan
  | _ => .wan

def addEntry (w : Words) (c : Command) : Option (Option Nat) := do
  let side := c.type.side
  let maxEntry := routNum w side
  if c.entry < 0 then
    let entry ← search (sameKey w side c.compare) maxEntry 0 (compareTbl w side 0)
    if entry = maxEntry then
      let entry ← search (isFree w side) maxEntry 0 (compareTbl w side 0)
      return if entry = maxEntry then none else some entry
    else return some entry
  else
    let tmpEntry ← search (sameKey w side c.compare) maxEntry 0 (compareTbl w side 0)
    if tmpEntry < maxEntry then return some tmpEntry
    else if ¬ (c.type = .lan ∧ c.entry < routNum w .lan) ∧ ¬ (c.type = .wan ∧ c.entry < routNum w .wan) then return none
    else return some c.entry.toNat

def edit (w : Words) (c : Command) : Option Words :=
  if c.operation = .delete then do
    match ← deletePointer w c with
    | some pu2 => storeRow w pu2.side pu2.place fun _ => 0
    | none => return w
  else if c.operation = .add ∧ c.type ≠ .auto ∧ c.compare 0 ≠ 0 ∧ c.compare 1 ≠ 0 then do
    match ← addEntry w c with
    | some entry =>
      let pu1 := compareTbl w c.type.side entry
      let pu2 := actionTbl w c.type.side entry
      let w ← storeRow w c.type.side pu1 c.compare
      storeRow w c.type.side pu2 c.action
    | none => return w
  else return w

def edits (w : Words) (commands : List Command) : Option Words := commands.foldlM edit w

/-! ### What the tables are for -/

def compareRow (w : Words) (side : Side) (i : Nat) : Row := fun k => w (compareTbl w side i + k)

def actionRow (w : Words) (side : Side) (i : Nat) : Row := fun k => w (actionTbl w side i + k)

def Used (row : Row) : Prop := ¬ (row 0 = 0 ∧ row 1 = 0)

def SameKey (row row' : Row) : Prop := row 0 = row' 0 ∧ row 1 = row' 1 ∧ row 2 = row' 2

def Unique (w : Words) : Prop :=
  ∀ side, ∀ i < routNum w side, ∀ j < routNum w side,
    Used (compareRow w side i) → SameKey (compareRow w side i) (compareRow w side j) → i = j

/-- The WAN entries end before the LAN entries, as `init_communication_data_structures` sets them. -/
def Layout (w : Words) : Prop := routNum w .wan ≤ routOff w .lan

structure Others (w w' : Words) (side : Side) (i : Nat) : Prop where
  num : routNum w' = routNum w
  off : routOff w' = routOff w
  words : ∀ a, ¬ InRange w side a → w' a = w a
  compare : ∀ side' j, j < routNum w side' → (side', j) ≠ (side, i) → compareRow w' side' j = compareRow w side' j
  action : ∀ side' j, j < routNum w side' → (side', j) ≠ (side, i) → actionRow w' side' j = actionRow w side' j

/-- What a command may do to the tables. -/
def Obeys (w : Words) (c : Command) (w' : Words) : Prop :=
  match c.operation with
  | .none => w' = w
  | .add =>
    w' = w ∨ (c.type ≠ .auto ∧ ∃ i < routNum w c.type.side, Others w w' c.type.side i ∧
      compareRow w' c.type.side i = c.compare ∧ actionRow w' c.type.side i = c.action)
  | .delete =>
    w' = w ∨ ∃ side, ∃ i < routNum w side, (c.type = .lan → side = .lan) ∧ (c.type = .wan → side = .wan) ∧
      Others w w' side i ∧ compareRow w' side i = (fun _ => 0) ∧ actionRow w' side i = actionRow w side i

/-! ### The range -/

variable {w w' : Words} {side : Side} {i : Nat}

theorem routNum_lt (w : Words) (side : Side) : routNum w side < 512 := by
  unfold routNum
  cases side <;> simp only [BitVec.toNat_ushiftRight, Nat.shiftRight_eq_div_pow] <;> omega

theorem routOff_lt (w : Words) (side : Side) : routOff w side < 512 := by
  cases side with
  | lan =>
    have small : (w LAN_ROUT_TBL_CFG >>> 14 &&& 0x1FF).toNat ≤ 0x1FF := Nat.and_le_right
    exact Nat.lt_of_le_of_lt small (by decide)
  | wan => exact Nat.zero_lt_succ _

theorem inRange_compare (inside : i < routNum w side) {k : Nat} (below : k < 4) : InRange w side (compareTbl w side i + k) := by
  refine .inl ?_
  unfold compareTbl
  omega

theorem inRange_action (inside : i < routNum w side) {k : Nat} (below : k < 4) : InRange w side (actionTbl w side i + k) := by
  refine .inr ?_
  unfold actionTbl
  omega

theorem inRange_low {a : Nat} (inside : InRange w side a) : 0x51C0 ≤ a := by
  obtain ⟨low, -⟩ | ⟨low, -⟩ := inside
  · unfold compareTbl at low
    omega
  · unfold actionTbl at low
    omega

/-- Two memories with the same configuration. -/
theorem config_congr (num : routNum w' = routNum w) (off : routOff w' = routOff w) :
    compareTbl w' = compareTbl w ∧ actionTbl w' = actionTbl w ∧ (InRange w' = InRange w) := by
  have compare : compareTbl w' = compareTbl w := by
    funext side i
    unfold compareTbl
    rw [off]
  have action : actionTbl w' = actionTbl w := by
    funext side i
    unfold actionTbl
    rw [off]
  refine ⟨compare, action, ?_⟩
  unfold InRange
  rw [compare, action, num]

/-- A write above the configuration leaves it as it was. -/
theorem config_frame (frame : ∀ a < 0x51C0, w' a = w a) : routNum w' = routNum w ∧ routOff w' = routOff w := by
  have lan : w' LAN_ROUT_TBL_CFG = w LAN_ROUT_TBL_CFG := frame _ (by decide)
  have wan : w' WAN_ROUT_TBL_CFG = w WAN_ROUT_TBL_CFG := frame _ (by decide)
  refine ⟨funext fun side => ?_, funext fun side => ?_⟩
  · cases side
    · exact congrArg (fun v : U32 => (v >>> 23).toNat) lan
    · exact congrArg (fun v : U32 => (v >>> 23).toNat) wan
  · cases side
    · exact congrArg (fun v : U32 => (v >>> 14 &&& 0x1FF).toNat) lan
    · rfl

/-! ### Reading -/

theorem load_compare (inside : i < routNum w side) (k : Fin 4) :
    load w side (compareTbl w side i + k) = some (compareRow w side i k) :=
  if_pos (inRange_compare inside k.isLt)

instance (row row' : Row) : Decidable (SameKey row row') := inferInstanceAs (Decidable (_ ∧ _ ∧ _))

instance (row : Row) : Decidable (Used row) := inferInstanceAs (Decidable (¬ (_ ∧ _)))

theorem sameKey_eq (inside : i < routNum w side) (key : Row) :
    sameKey w side key (compareTbl w side i) = some (decide (SameKey (compareRow w side i) key)) := by
  have first : load w side (compareTbl w side i) = some (compareRow w side i 0) := load_compare inside 0
  have second : load w side (compareTbl w side i + 1) = some (compareRow w side i 1) := load_compare inside 1
  have third : load w side (compareTbl w side i + 2) = some (compareRow w side i 2) := load_compare inside 2
  unfold sameKey SameKey
  rw [first, second, third]
  by_cases source : compareRow w side i 0 = key 0
  · by_cases destination : compareRow w side i 1 = key 1
    · simp [source, destination]
    · simp [source, destination]
  · simp [source]

theorem isFree_eq (inside : i < routNum w side) :
    isFree w side (compareTbl w side i) = some (decide (¬ Used (compareRow w side i))) := by
  have first : load w side (compareTbl w side i) = some (compareRow w side i 0) := load_compare inside 0
  have second : load w side (compareTbl w side i + 1) = some (compareRow w side i 1) := load_compare inside 1
  unfold isFree Used
  rw [first, second]
  by_cases source : compareRow w side i 0 = 0#32
  · simp [source]
  · simp [source]

/-- The search ends at the first entry that passes the test. -/
theorem search_first {test : Nat → Option Bool} {t : Nat → Bool} (left entry pu2 : Nat)
    (answers : ∀ e < left, test (pu2 + e * 4) = some (t (entry + e))) :
    ∃ r, search test left entry pu2 = some r ∧ entry ≤ r ∧ r ≤ entry + left ∧ (r < entry + left → t r = true) ∧
      ∀ e, entry ≤ e → e < r → t e = false := by
  induction left generalizing entry pu2 with
  | zero => exact ⟨entry, rfl, le_rfl, le_rfl, fun below => absurd below (lt_irrefl _), fun e low high => by omega⟩
  | succ left ih =>
    have here : test pu2 = some (t entry) := by simpa using answers 0 (Nat.zero_lt_succ _)
    unfold search
    rw [here]
    cases passes : t entry with
    | true => exact ⟨entry, rfl, le_rfl, by omega, fun _ => passes, fun e low high => by omega⟩
    | false =>
      obtain ⟨r, found, low, high, passed, failed⟩ := ih (entry + 1) (pu2 + 4) fun e below => by
        have later := answers (e + 1) (by omega)
        rwa [show pu2 + (e + 1) * 4 = pu2 + 4 + e * 4 by omega, show entry + (e + 1) = entry + 1 + e by omega] at later
      refine ⟨r, found, by omega, by omega, fun below => passed (by omega), fun e from_entry below => ?_⟩
      obtain rfl | above := Nat.eq_or_lt_of_le from_entry
      · exact passes
      · exact failed e above below

theorem search_table {test : Nat → Option Bool} {P : Nat → Prop} [DecidablePred P]
    (answers : ∀ i < routNum w side, test (compareTbl w side i) = some (decide (P i))) :
    ∃ r, search test (routNum w side) 0 (compareTbl w side 0) = some r ∧ r ≤ routNum w side ∧
      (r < routNum w side → P r) ∧ ∀ i < r, ¬ P i := by
  obtain ⟨r, found, -, high, passed, failed⟩ :=
    @search_first test (fun i => decide (P i)) (routNum w side) 0 (compareTbl w side 0) fun e below => by
      have place : compareTbl w side 0 + e * 4 = compareTbl w side e := by
        unfold compareTbl
        omega
      rw [place, answers e below, Nat.zero_add]
  refine ⟨r, found, by omega, fun below => ?_, fun i below => ?_⟩
  · exact of_decide_eq_true (passed (by omega))
  · exact of_decide_eq_false (failed i (Nat.zero_le _) below)

theorem findKey_eq (w : Words) (side : Side) (key : Row) :
    ∃ r, findKey w side key = some r ∧ ∀ p, r = some p → ∃ i < routNum w side, p = entryPointer w side i := by
  obtain ⟨entry, found, high, -, -⟩ := search_table fun i inside => @sameKey_eq w side i inside key
  unfold findKey
  rw [found]
  refine ⟨_, rfl, fun p same => ?_⟩
  split at same
  · cases same
  · rename_i inside
    exact ⟨entry, by omega, (Option.some.inj same).symm⟩

theorem checkKey_eq {entry : Int} (positive : 0 ≤ entry) (inside : entry < routNum w side) (key : Row) :
    ∃ r, checkKey w side entry key = some r ∧ ∀ p, r = some p → p = entryPointer w side entry.toNat := by
  have answer : sameKey w side key (entryPointer w side entry.toNat).place = some _ :=
    sameKey_eq (show entry.toNat < routNum w side by omega) key
  unfold checkKey
  dsimp only
  rw [answer]
  refine ⟨_, rfl, fun p same => ?_⟩
  split at same
  · exact (Option.some.inj same).symm
  · cases same

def Admitted (w : Words) (c : Command) (pu2 : Option Pointer) : Prop :=
  ∀ p, pu2 = some p → ∃ side, ∃ i < routNum w side, (c.type = .lan → side = .lan) ∧ (c.type = .wan → side = .wan) ∧
    p = entryPointer w side i

theorem admitted_none (w : Words) (c : Command) : Admitted w c none := nofun

theorem admitted_if {c : Command} {cond : Prop} [Decidable cond] {found : Option (Option Pointer)} {pu2 : Option Pointer}
    (yes : cond → ∃ r, found = some r ∧ Admitted w c r) (no : Admitted w c pu2) :
    ∃ r, (if cond then found else pure pu2) = some r ∧ Admitted w c r := by
  split
  · rename_i holds
    exact yes holds
  · exact ⟨pu2, rfl, no⟩

theorem admitted_side {c : Command} (fits : (c.type = .lan → side = .lan) ∧ (c.type = .wan → side = .wan))
    {found : Option (Option Pointer)}
    (answer : ∃ r, found = some r ∧ ∀ p, r = some p → ∃ i < routNum w side, p = entryPointer w side i) :
    ∃ r, found = some r ∧ Admitted w c r := by
  obtain ⟨r, found, place⟩ := answer
  refine ⟨r, found, fun p same => ?_⟩
  obtain ⟨i, inside, place⟩ := place p same
  exact ⟨side, i, inside, fits.1, fits.2, place⟩

theorem lan_fits {type : TableType} (known : type = .auto ∨ type = .lan) :
    (type = .lan → Side.lan = .lan) ∧ (type = .wan → Side.lan = .wan) := by
  obtain rfl | rfl := known <;> exact ⟨fun _ => rfl, nofun⟩

theorem wan_fits {type : TableType} {P : Prop} (known : (type = .auto ∧ P) ∨ type = .wan) :
    (type = .lan → Side.wan = .lan) ∧ (type = .wan → Side.wan = .wan) := by
  obtain ⟨rfl, -⟩ | rfl := known <;> exact ⟨nofun, fun _ => rfl⟩

theorem checkKey_place {entry : Int} (positive : ¬ entry < 0) (inside : entry < routNum w side) (key : Row) :
    ∃ r, checkKey w side entry key = some r ∧ ∀ p, r = some p → ∃ i < routNum w side, p = entryPointer w side i := by
  obtain ⟨r, found, place⟩ := checkKey_eq (by omega) inside key
  exact ⟨r, found, fun p same => ⟨entry.toNat, by omega, place p same⟩⟩

/-- The entry that is deleted is in a table of the type that is asked for. -/
theorem deletePointer_eq (w : Words) (c : Command) : ∃ r, deletePointer w c = some r ∧ Admitted w c r := by
  unfold deletePointer
  split
  · split
    · obtain ⟨lan, found, admitted⟩ := admitted_if
        (fun known : c.type = .auto ∨ c.type = .lan => admitted_side (lan_fits known) (findKey_eq w .lan c.compare))
        (admitted_none w c)
      rw [found]
      exact admitted_if (fun known => admitted_side (wan_fits known) (findKey_eq w .wan c.compare)) admitted
    · exact ⟨none, rfl, admitted_none w c⟩
  · rename_i positive
    split
    · obtain ⟨lan, found, admitted⟩ :=
        admitted_if
          (fun known : (c.type = .auto ∨ c.type = .lan) ∧ c.entry < routNum w .lan =>
            admitted_side (lan_fits known.1) (checkKey_place positive known.2 c.compare))
          (admitted_none w c)
      rw [found]
      exact admitted_if (fun known => admitted_side (wan_fits known.1) (checkKey_place positive known.2 c.compare)) admitted
    · split
      · split
        · rename_i lan
          refine ⟨_, rfl, fun p same => ⟨.lan, c.entry.toNat, by omega, fun _ => rfl, fun wan => ?_, ?_⟩⟩
          · exact absurd (lan.1.symm.trans wan) nofun
          · exact (Option.some.inj same).symm
        · split
          · rename_i wan
            refine ⟨_, rfl, fun p same => ⟨.wan, c.entry.toNat, by omega, fun lan => ?_, fun _ => rfl, ?_⟩⟩
            · exact absurd (wan.1.symm.trans lan) nofun
            · exact (Option.some.inj same).symm
          · exact ⟨none, rfl, admitted_none w c⟩
      · exact ⟨none, rfl, admitted_none w c⟩

/-- The entry that is added or replaced is in range, and the only one with the key if there is one. -/
theorem addEntry_eq (w : Words) (c : Command) :
    ∃ r, addEntry w c = some r ∧
      ∀ e, r = some e → e < routNum w c.type.side ∧
        ∀ j < routNum w c.type.side, SameKey (compareRow w c.type.side j) c.compare →
          SameKey (compareRow w c.type.side e) c.compare := by
  obtain ⟨keyed, key_found, key_high, key_passed, key_failed⟩ :=
    search_table fun i inside => @sameKey_eq w c.type.side i inside c.compare
  obtain ⟨free, free_found, free_high, -, -⟩ :=
    search_table fun i inside => @isFree_eq w c.type.side i inside
  unfold addEntry
  dsimp only
  rw [key_found, free_found]
  split
  · by_cases missing : keyed = routNum w c.type.side
    · refine ⟨_, by simp only [bind, Option.bind, missing, if_true]; rfl, fun e same => ?_⟩
      split at same
      · cases same
      · obtain rfl := Option.some.inj same
        exact ⟨by omega, fun j inside found => absurd found (key_failed j (by omega))⟩
    · refine ⟨some keyed, by simp only [bind, Option.bind, missing, if_false]; rfl, fun e same => ?_⟩
      obtain rfl := Option.some.inj same
      exact ⟨by omega, fun j inside found => key_passed (by omega)⟩
  · by_cases found : keyed < routNum w c.type.side
    · refine ⟨some keyed, by simp only [bind, Option.bind, found, if_true]; rfl, fun e same => ?_⟩
      obtain rfl := Option.some.inj same
      exact ⟨found, fun j inside same => key_passed found⟩
    · simp only [bind, Option.bind, found, if_false]
      split
      · exact ⟨none, rfl, nofun⟩
      · rename_i in_table
        refine ⟨_, rfl, fun e same => ?_⟩
        obtain rfl := Option.some.inj same
        refine ⟨?_, fun j inside found => absurd found (key_failed j (by omega))⟩
        obtain lan | wan := not_and_or.mp in_table
        · obtain ⟨lan, below⟩ := not_not.mp lan
          rw [lan]
          exact (Int.toNat_lt (by omega)).mpr below
        · obtain ⟨wan, below⟩ := not_not.mp wan
          rw [wan]
          exact (Int.toNat_lt (by omega)).mpr below

/-! ### Writing -/

def putRow (w : Words) (p : Nat) (row : Row) : Words :=
  fun a => if inside : p ≤ a ∧ a < p + 4 then row ⟨a - p, by omega⟩ else w a

theorem putRow_same (w : Words) (p : Nat) (row : Row) (k : Fin 4) : putRow w p row (p + k) = row k := by
  unfold putRow
  rw [dif_pos ⟨by omega, by omega⟩]
  exact congrArg row (Fin.ext (Nat.add_sub_cancel_left _ _))

theorem putRow_other {p a : Nat} (outside : a < p ∨ p + 4 ≤ a) (row : Row) : putRow w p row a = w a := by
  unfold putRow
  exact dif_neg (by omega)

theorem store_update {w₀ : Words} {a : Nat} (same : InRange w = InRange w₀) (inside : InRange w₀ side a) (v : U32) :
    store w side a v = some (Function.update w a v) ∧ InRange (Function.update w a v) = InRange w₀ := by
  have low := inRange_low inside
  have config := @config_frame w (Function.update w a v) fun _ below => Function.update_of_ne (by omega) _ _
  refine ⟨if_pos (by rw [same]; exact inside), ?_⟩
  rw [(config_congr config.1 config.2).2.2, same]

theorem updates_eq (w : Words) (p : Nat) (row : Row) :
    Function.update (Function.update (Function.update (Function.update w p (row 0)) (p + 1) (row 1)) (p + 2) (row 2))
      (p + 3) (row 3) = putRow w p row := by
  funext a
  by_cases inside : p ≤ a ∧ a < p + 4
  · obtain rfl | rfl | rfl | rfl : a = p ∨ a = p + 1 ∨ a = p + 2 ∨ a = p + 3 := by omega
    · rw [Function.update_of_ne (by omega), Function.update_of_ne (by omega), Function.update_of_ne (by omega),
        Function.update_self]
      exact (putRow_same w a row 0).symm
    · rw [Function.update_of_ne (by omega), Function.update_of_ne (by omega), Function.update_self]
      exact (putRow_same w p row 1).symm
    · rw [Function.update_of_ne (by omega), Function.update_self]
      exact (putRow_same w p row 2).symm
    · rw [Function.update_self]
      exact (putRow_same w p row 3).symm
  · rw [putRow_other (by omega), Function.update_of_ne (by omega), Function.update_of_ne (by omega),
      Function.update_of_ne (by omega), Function.update_of_ne (by omega)]

theorem storeRow_eq {p : Nat} (inside : ∀ k < 4, InRange w side (p + k)) (row : Row) :
    storeRow w side p row = some (putRow w p row) := by
  obtain ⟨first, range₁⟩ := store_update rfl (inside 0 (by omega)) (row 0)
  obtain ⟨second, range₂⟩ := store_update range₁ (inside 1 (by omega)) (row 1)
  obtain ⟨third, range₃⟩ := store_update range₂ (inside 2 (by omega)) (row 2)
  obtain ⟨fourth, -⟩ := store_update range₃ (inside 3 (by omega)) (row 3)
  unfold storeRow
  rw [Nat.add_zero] at first second third fourth
  simp only [bind, Option.bind, first, second, third, fourth]
  exact congrArg some (updates_eq w p row)

/-! ### What an edit changes -/

/-- Two entries have no word in common. -/
theorem entries_apart (layout : Layout w) {side' : Side} {j : Nat} (inside : i < routNum w side)
    (inside' : j < routNum w side') (other : (side', j) ≠ (side, i)) :
    j + routOff w side' ≠ i + routOff w side := by
  intro same
  unfold Layout at layout
  have wan : routOff w .wan = 0 := rfl
  cases side <;> cases side'
  · exact other (by rw [Nat.add_right_cancel same])
  · omega
  · omega
  · exact other (by rw [Nat.add_right_cancel same])

/-- The compare table is behind the action table. -/
theorem tables_apart {side' : Side} {j : Nat} (inside' : j < routNum w side') (side : Side) (i : Nat) :
    actionTbl w side' j + 4 ≤ compareTbl w side i := by
  have num := routNum_lt w side'
  have off := routOff_lt w side'
  unfold actionTbl compareTbl
  omega

/-- Words that are changed only in an entry leave the others as they were. -/
theorem others_of_frame (layout : Layout w) (inside : i < routNum w side)
    (frame : ∀ a, a < compareTbl w side i ∨ compareTbl w side i + 4 ≤ a → a < actionTbl w side i ∨ actionTbl w side i + 4 ≤ a →
      w' a = w a) : Others w w' side i := by
  have compare_range := fun k (below : k < 4) => @inRange_compare w side i inside k below
  have action_range := fun k (below : k < 4) => @inRange_action w side i inside k below
  have config := @config_frame w w' fun a below => by
    have low := inRange_low (compare_range 0 (by omega))
    have low' := inRange_low (action_range 0 (by omega))
    exact frame a (by omega) (by omega)
  obtain ⟨compare, action, -⟩ := config_congr config.1 config.2
  refine ⟨config.1, config.2, fun a outside => ?_, fun side' j inside' other => ?_, fun side' j inside' other => ?_⟩
  · refine frame a (by_contra fun within => outside ?_) (by_contra fun within => outside ?_)
    · have place := compare_range (a - compareTbl w side i) (by omega)
      rwa [show compareTbl w side i + (a - compareTbl w side i) = a by omega] at place
    · have place := action_range (a - actionTbl w side i) (by omega)
      rwa [show actionTbl w side i + (a - actionTbl w side i) = a by omega] at place
  · have apart := entries_apart layout inside inside' other
    have behind := tables_apart inside side' j
    funext k
    unfold compareRow
    rw [compare]
    refine frame _ ?_ (by omega)
    unfold compareTbl
    omega
  · have apart := entries_apart layout inside inside' other
    have behind := tables_apart inside' side i
    funext k
    unfold actionRow
    rw [action]
    refine frame _ (by omega) ?_
    unfold actionTbl
    omega

/-- Clearing the compare row of an entry. -/
theorem delete_row (layout : Layout w) (inside : i < routNum w side) :
    ∃ w', storeRow w side (compareTbl w side i) (fun _ => 0) = some w' ∧ Others w w' side i ∧
      compareRow w' side i = (fun _ => 0) ∧ actionRow w' side i = actionRow w side i := by
  have others : Others w (putRow w (compareTbl w side i) fun _ => 0) side i :=
    others_of_frame layout inside fun a outside _ => putRow_other outside _
  obtain ⟨compare, action, -⟩ := config_congr others.num others.off
  refine ⟨_, storeRow_eq (fun k below => inRange_compare inside below) _, others, funext fun k => ?_, funext fun k => ?_⟩
  · unfold compareRow
    rw [compare]
    exact putRow_same _ _ _ k
  · have behind := tables_apart inside side i
    unfold actionRow
    rw [action]
    exact putRow_other (by omega) _

def putEntry (w : Words) (side : Side) (i : Nat) (compareWords actionWords : Row) : Words :=
  putRow (putRow w (compareTbl w side i) compareWords) (actionTbl w side i) actionWords

theorem putEntry_other {a : Nat} (compareWords actionWords : Row) (outside : a < compareTbl w side i ∨ compareTbl w side i + 4 ≤ a)
    (outside' : a < actionTbl w side i ∨ actionTbl w side i + 4 ≤ a) : putEntry w side i compareWords actionWords a = w a :=
  (putRow_other outside' _).trans (putRow_other outside _)

theorem storeRows_eq (inside : i < routNum w side) (compareWords actionWords : Row) :
    (storeRow w side (compareTbl w side i) compareWords >>= fun w' => storeRow w' side (actionTbl w side i) actionWords) =
      some (putEntry w side i compareWords actionWords) := by
  let w₁ := putRow w (compareTbl w side i) compareWords
  have first : storeRow w side (compareTbl w side i) compareWords = some w₁ :=
    storeRow_eq (fun k below => inRange_compare inside below) _
  have range₁ : InRange w₁ = InRange w := by
    have config := @config_frame w w₁ fun a below => by
      have low := inRange_low (inRange_compare inside (Nat.zero_lt_succ 3))
      exact putRow_other (by omega) _
    exact (config_congr config.1 config.2).2.2
  rw [first]
  exact storeRow_eq (fun k below => by rw [range₁]; exact inRange_action inside below) _

theorem putEntry_rows (inside : i < routNum w side) (compareWords actionWords : Row) :
    compareRow (putEntry w side i compareWords actionWords) side i = compareWords ∧
      actionRow (putEntry w side i compareWords actionWords) side i = actionWords := by
  have behind := tables_apart inside side i
  have config := @config_frame w (putEntry w side i compareWords actionWords) fun a below => by
    have low := inRange_low (inRange_compare inside (Nat.zero_lt_succ 3))
    have low' := inRange_low (inRange_action inside (Nat.zero_lt_succ 3))
    exact putEntry_other _ _ (by omega) (by omega)
  obtain ⟨compare, action, -⟩ := config_congr config.1 config.2
  refine ⟨funext fun k => ?_, funext fun k => ?_⟩
  · unfold compareRow
    rw [compare]
    exact (putRow_other (by omega) _).trans (putRow_same _ _ _ k)
  · unfold actionRow
    rw [action]
    exact putRow_same _ _ _ k

/-- Writing both rows of an entry. -/
theorem add_rows (layout : Layout w) (inside : i < routNum w side) (compareWords actionWords : Row) :
    ∃ w', (storeRow w side (compareTbl w side i) compareWords >>= fun w' => storeRow w' side (actionTbl w side i) actionWords) = some w' ∧
      Others w w' side i ∧ compareRow w' side i = compareWords ∧ actionRow w' side i = actionWords :=
  ⟨_, storeRows_eq inside compareWords actionWords,
    others_of_frame layout inside fun _ outside outside' => putEntry_other _ _ outside outside',
    putEntry_rows inside compareWords actionWords⟩

theorem SameKey.symm {row row' : Row} (same : SameKey row row') : SameKey row' row :=
  ⟨same.1.symm, same.2.1.symm, same.2.2.symm⟩

theorem SameKey.trans {row row' row'' : Row} (same : SameKey row row') (same' : SameKey row' row'') : SameKey row row'' :=
  ⟨same.1.trans same'.1, same.2.1.trans same'.2.1, same.2.2.trans same'.2.2⟩

theorem SameKey.used {row row' : Row} (same : SameKey row row') (used : Used row) : Used row' := by
  unfold Used at used ⊢
  rwa [← same.1, ← same.2.1]

/-- A row whose key no other entry of its table has keeps the keys unique. -/
theorem unique_of_row (unique : Unique w) (others : Others w w' side i)
    (fresh : Used (compareRow w' side i) → ∀ j < routNum w side, j ≠ i → ¬ SameKey (compareRow w side j) (compareRow w' side i)) :
    Unique w' := by
  intro side' j inside k inside' used same
  rw [others.num] at inside inside'
  by_cases first : (side', j) = (side, i)
  · obtain ⟨rfl, rfl⟩ := Prod.mk.inj first
    by_contra other
    rw [others.compare side' k inside' fun equal => other (Prod.mk.inj equal).2.symm] at same
    exact fresh used k inside' (fun equal => other equal.symm) same.symm
  · rw [others.compare side' j inside first] at used same
    by_cases second : (side', k) = (side, i)
    · obtain ⟨rfl, rfl⟩ := Prod.mk.inj second
      by_contra other
      exact fresh (same.used used) j inside other same
    · rw [others.compare side' k inside' second] at same
      exact unique side' j inside k inside' used same

theorem Others.layout (others : Others w w' side i) (layout : Layout w) : Layout w' := by
  unfold Layout at layout ⊢
  rwa [others.num, others.off]

/-- One command: it reaches no word out of range, does to the tables what it may and leaves their keys unique. -/
theorem edit_obeys (layout : Layout w) (unique : Unique w) (c : Command) :
    ∃ w', edit w c = some w' ∧ Obeys w c w' ∧ Unique w' ∧ Layout w' := by
  unfold edit Obeys
  cases operation : c.operation with
  | none => exact ⟨w, rfl, rfl, unique, layout⟩
  | delete =>
    obtain ⟨pu2, found, admitted⟩ := deletePointer_eq w c
    rw [if_pos rfl, found]
    cases pu2 with
    | none => exact ⟨w, rfl, .inl rfl, unique, layout⟩
    | some p =>
      obtain ⟨side, i, inside, lan, wan, rfl⟩ := admitted p rfl
      obtain ⟨w', stored, others, compare, action⟩ := delete_row layout inside
      refine ⟨w', stored, .inr ⟨side, i, inside, lan, wan, others, compare, action⟩, ?_, others.layout layout⟩
      refine unique_of_row unique others fun used => absurd ?_ used
      rw [compare]
      exact ⟨rfl, rfl⟩
  | add =>
    rw [if_neg nofun]
    split
    · rename_i admitted
      obtain ⟨-, known, source, -⟩ := admitted
      obtain ⟨entry, found, place⟩ := addEntry_eq w c
      rw [found]
      cases entry with
      | none => exact ⟨w, rfl, .inl rfl, unique, layout⟩
      | some e =>
        obtain ⟨inside, only⟩ := place e rfl
        obtain ⟨w', stored, others, compare, action⟩ := add_rows layout inside c.compare c.action
        refine ⟨w', stored, .inr ⟨known, e, inside, others, compare, action⟩, ?_, others.layout layout⟩
        refine unique_of_row unique others fun used j inside' other same => other ?_
        rw [compare] at same
        have here := only j inside' same
        refine unique _ j inside' e inside (same.symm.used fun zero => source zero.1) (same.trans here.symm)
    · exact ⟨w, rfl, .inl rfl, unique, layout⟩

/-- Every sequence of commands ends, without a word out of range, in tables with unique keys, and so does any command after
it, which changes one entry at most. -/
theorem route_edits_obey (w : Words) (layout : Layout w) (unique : Unique w) (commands : List Command) :
    ∃ w', edits w commands = some w' ∧ Unique w' ∧ ∀ c, ∃ w'', edit w' c = some w'' ∧ Obeys w' c w'' := by
  induction commands generalizing w with
  | nil =>
    refine ⟨w, rfl, unique, fun c => ?_⟩
    obtain ⟨w', done, obeys, -⟩ := edit_obeys layout unique c
    exact ⟨w', done, obeys⟩
  | cons c rest ih =>
    obtain ⟨w', done, -, unique', layout'⟩ := edit_obeys layout unique c
    obtain ⟨w'', done', claims⟩ := ih w' layout' unique'
    refine ⟨w'', ?_, claims⟩
    unfold edits at done' ⊢
    rw [List.foldlM_cons, done]
    exact done'

/-- `init_communication_data_structures` gives the WAN table 175 entries and lets the LAN table begin at entry 209. -/
theorem init_layout {w : Words} (lan : w LAN_ROUT_TBL_CFG = 0x57B44000) (wan : w WAN_ROUT_TBL_CFG = 0x57A20000) :
    Layout w := by
  unfold Layout routNum routOff
  rw [lan, wan]
  decide

def initWords : Words := fun a =>
  if a = LAN_ROUT_TBL_CFG then 0x57B44000 else if a = WAN_ROUT_TBL_CFG then 0x57A20000 else 0

theorem initWords_above {a : Nat} (above : 0x51C0 ≤ a) : initWords a = 0 := by
  unfold initWords LAN_ROUT_TBL_CFG WAN_ROUT_TBL_CFG
  rw [if_neg (by omega), if_neg (by omega)]

theorem initWords_unique : Unique initWords := by
  intro side i inside j inside' used
  refine absurd ?_ used
  have zero (k : Fin 4) : compareRow initWords side i k = 0 :=
    initWords_above (inRange_low (inRange_compare inside k.isLt))
  exact ⟨zero 0, zero 1⟩

def oneRoute : Command where
  operation := .add
  type := .lan
  entry := 7
  compare := ![0xC0A80102, 0x0A000001, 0x04D20050, 0]
  action := ![0x0A000002, 0x1F900011, 0x22334455, 0x02000001]

theorem init_edits_obey :
    ∃ w', edits initWords [oneRoute, { oneRoute with entry := -1 }, { oneRoute with operation := .delete, type := .auto }] = some w' ∧
      Unique w' ∧ ∀ c, ∃ w'', edit w' c = some w'' ∧ Obeys w' c w'' :=
  route_edits_obey initWords (init_layout rfl rfl) initWords_unique _

end TwinpassGateway.Eth.Route
