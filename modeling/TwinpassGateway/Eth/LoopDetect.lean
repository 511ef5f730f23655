import Mathlib.Data.BitVec
import Mathlib.Tactic
import TwinpassGateway.Foundation.Run
import TwinpassGateway.Foundation.Word

/-!
The loop protection of `danube_ppa_eth_d2.c`: a LAN port that is in a loop listens only until a timer expires, and the
callback of the timer puts its registers back.
-/

namespace TwinpassGateway.Eth

open Foundation

/-- The registers of the switch, by PHY address and register number. -/
abbrev Mdio := Nat → Nat → BitVec 16

def mdioRead (r : Mdio) (phy reg : Nat) : BitVec 16 := r phy reg

def mdioWrite (r : Mdio) (phy reg : Nat) (val : BitVec 16) : Mdio :=
  Function.update r phy (Function.update (r phy) reg val)

def portPhy (port : Int) : Option Nat :=
  if port = 0 then some 0x08
  else if port = 1 then some 0x09
  else if port = 2 then some 0x0A
  else if port = 3 then some 0x0B
  else none

def portForwardingState (r : Mdio) (port : Int) : Mdio :=
  match portPhy port with
  | none => r
  | some phy =>
    let r := mdioWrite r phy 0x04 (mdioRead r phy 0x04 ||| 0x0003)
    mdioWrite r phy 0x06 (mdioRead r phy 0x06 &&& ~~~(1#16 <<< 8))

def portListeningState (r : Mdio) (port : Int) : Mdio :=
  match portPhy port with
  | none => r
  | some phy =>
    let r := mdioWrite r phy 0x04 ((mdioRead r phy 0x04 &&& 0xFFFD) ||| 0x0001)
    mdioWrite r phy 0x06 ((mdioRead r phy 0x06 &&& 0xFFE0) ||| 1#16 <<< 5 ||| 1#16 <<< 8)

inductive LoopDetect where
  | noLoop
  | port (p : Fin 4)
  | ports (p q : Fin 4)
  deriving DecidableEq

structure LoopGuard where
  regs : Mdio
  state : LoopDetect := .noLoop
  /-- `loop_detect_timer` is pending. -/
  timer : Bool := false

def loopDetectTimerExpired (s : LoopGuard) : LoopGuard :=
  match s.state with
  | .port p => { s with regs := portForwardingState s.regs p.val, state := .noLoop }
  | _ => { s with state := .noLoop }

def loopDetected (s : LoopGuard) (port : Int) : LoopGuard :=
  if port < 0 ∨ 3 < port then s
  else
    match s.state with
    | .noLoop =>
      { regs := portListeningState s.regs port
        timer := true
        state :=
          if port = 0 then .port 0
          else if port = 1 then .port 1
          else if port = 2 then .port 2
          else if port = 3 then .port 3
          else .noLoop }
    | _ => s

/-- The loop check of `dma_rx_int_handler` for a packet that came back: whether it is dropped, and the new state.
`lookup` is what `atu_lookup_mac` finds, if it returns 0. -/
def loopCheck (s : LoopGuard) (lookup : Option (BitVec 16)) : Bool × LoopGuard :=
  match s.state with
  | .noLoop =>
    match lookup with
    | none => (false, s)
    | some atuDataReg =>
      if atuDataReg &&& 0x0010 ≠ 0 then (false, loopDetected s 0)
      else if atuDataReg &&& 0x0020 ≠ 0 then (false, loopDetected s 1)
      else if atuDataReg &&& 0x0040 ≠ 0 then (false, loopDetected s 2)
      else if atuDataReg &&& 0x0080 ≠ 0 then (false, loopDetected s 3)
      else (false, s)
  | _ => (true, { s with timer := true })

inductive LoopEvent where
  /-- A looped packet is received. -/
  | looped (lookup : Option (BitVec 16))
  /-- The timer expires, if it is pending. -/
  | expire

namespace LoopGuard

def step (s : LoopGuard) : LoopEvent → LoopGuard
  | .looped lookup => (loopCheck s lookup).2
  | .expire => if s.timer then loopDetectTimerExpired { s with timer := false } else s

def control (s : LoopGuard) (p : Fin 4) : BitVec 16 := mdioRead s.regs (0x08 + p) 0x04

def vlanMap (s : LoopGuard) (p : Fin 4) : BitVec 16 := mdioRead s.regs (0x08 + p) 0x06

def Listening (s : LoopGuard) (p : Fin 4) : Prop := s.control p &&& 0x0003 = 0x0001

def Forwarding (s : LoopGuard) (p : Fin 4) : Prop := s.control p &&& 0x0003 = 0x0003

/-- What the protection is to keep: the port that is named listens and no other, the timer will free it, and with no loop
the ports are as they were. -/
structure Protects (before s : LoopGuard) : Prop where
  listening : ∀ p, s.Listening p ↔ s.state = .port p
  pending : s.state ≠ .noLoop → s.timer = true
  restored : s.state = .noLoop → ∀ p, s.control p = before.control p ∧ s.vlanMap p = before.vlanMap p

end LoopGuard

/-! ### The two registers of a port -/

def listeningControl (c : BitVec 16) : BitVec 16 := (c &&& 0xFFFD) ||| 0x0001

def forwardingControl (c : BitVec 16) : BitVec 16 := c ||| 0x0003

def listeningMap (v : BitVec 16) : BitVec 16 := (v &&& 0xFFE0) ||| 1#16 <<< 5 ||| 1#16 <<< 8

def forwardingMap (v : BitVec 16) : BitVec 16 := v &&& ~~~(1#16 <<< 8)

theorem eq_iff_bits {x y : BitVec 16} : x = y ↔ ∀ i < 16, x.getLsbD i = y.getLsbD i :=
  ⟨fun same i _ => by rw [same], BitVec.eq_of_getLsbD_eq⟩

theorem listeningControl_low (c : BitVec 16) : listeningControl c &&& 0x0003 = 0x0001 := by
  unfold listeningControl
  rw [eq_iff_bits]
  intro i below
  simp only [BitVec.getLsbD_and, BitVec.getLsbD_or]
  interval_cases i <;> simp

theorem control_restored {c : BitVec 16} (forwarding : c &&& 0x0003 = 0x0003) :
    forwardingControl (listeningControl c) = c := by
  unfold forwardingControl listeningControl
  rw [eq_iff_bits] at forwarding ⊢
  intro i below
  have here := forwarding i below
  clear forwarding
  simp only [BitVec.getLsbD_and, BitVec.getLsbD_or] at here ⊢
  interval_cases i <;> simp_all

/-- Listening sets the low six bits of the map, and forwarding does not put them back. -/
theorem map_restored {v : BitVec 16} (unforced : v &&& 1#16 <<< 8 = 0) :
    forwardingMap (listeningMap v) = v ↔ v &&& 0x003F = 0x0020 := by
  have clear : v[8] = false := by
    have bit := congrArg (fun x => x.getLsbD 8) unforced
    simpa using bit
  unfold forwardingMap listeningMap
  rw [eq_iff_bits, eq_iff_bits]
  refine forall_congr' fun i => forall_congr' fun below => ?_
  simp only [BitVec.getLsbD_and, BitVec.getLsbD_or, BitVec.getLsbD_not, BitVec.getLsbD_shiftLeft]
  interval_cases i <;> simp [clear]

theorem portPhy_lan (p : Fin 4) : portPhy p.val = some (0x08 + p.val) := by
  revert p
  decide

theorem read_write (r : Mdio) (phy reg : Nat) (val : BitVec 16) (phy' reg' : Nat) :
    mdioRead (mdioWrite r phy reg val) phy' reg' = if phy' = phy ∧ reg' = reg then val else mdioRead r phy' reg' := by
  unfold mdioRead mdioWrite
  by_cases there : phy' = phy
  · subst there
    by_cases same : reg' = reg
    · simp [same]
    · simp [same]
  · simp [there]

/-- What one of the two functions leaves in the registers of every port. -/
theorem two_writes (r : Mdio) (p q : Fin 4) (control vlanMap : BitVec 16 → BitVec 16) :
    let r' := mdioWrite r (0x08 + p) 0x04 (control (mdioRead r (0x08 + p) 0x04))
    let r'' := mdioWrite r' (0x08 + p) 0x06 (vlanMap (mdioRead r' (0x08 + p) 0x06))
    (mdioRead r'' (0x08 + q) 0x04 =
        if q = p then control (mdioRead r (0x08 + q) 0x04) else mdioRead r (0x08 + q) 0x04) ∧
      mdioRead r'' (0x08 + q) 0x06 =
        if q = p then vlanMap (mdioRead r (0x08 + q) 0x06) else mdioRead r (0x08 + q) 0x06 := by
  intro r' r''
  have place : 0x08 + q.val = 0x08 + p.val ↔ q = p := by
    rw [Nat.add_left_cancel_iff, Fin.val_inj]
  simp only [r'', r', read_write, place]
  by_cases same : q = p
  · simp [same]
  · simp [same]

namespace LoopGuard

/-- The registers of a port when it listens, and when it forwards again. -/
theorem listens (r : Mdio) (p q : Fin 4) :
    (mdioRead (portListeningState r p.val) (0x08 + q) 0x04 =
        if q = p then listeningControl (mdioRead r (0x08 + q) 0x04) else mdioRead r (0x08 + q) 0x04) ∧
      mdioRead (portListeningState r p.val) (0x08 + q) 0x06 =
        if q = p then listeningMap (mdioRead r (0x08 + q) 0x06) else mdioRead r (0x08 + q) 0x06 := by
  unfold portListeningState
  rw [portPhy_lan]
  exact two_writes r p q listeningControl listeningMap

theorem forwards (r : Mdio) (p q : Fin 4) :
    (mdioRead (portForwardingState r p.val) (0x08 + q) 0x04 =
        if q = p then forwardingControl (mdioRead r (0x08 + q) 0x04) else mdioRead r (0x08 + q) 0x04) ∧
      mdioRead (portForwardingState r p.val) (0x08 + q) 0x06 =
        if q = p then forwardingMap (mdioRead r (0x08 + q) 0x06) else mdioRead r (0x08 + q) 0x06 := by
  unfold portForwardingState
  rw [portPhy_lan]
  exact two_writes r p q forwardingControl forwardingMap

/-! ### Runs -/

/-- The ports at the start: all forward, with the force-map bit clear. -/
structure Open (s : LoopGuard) : Prop where
  forwarding : ∀ p, s.Forwarding p
  unforced : ∀ p, s.vlanMap p &&& 1#16 <<< 8 = 0
  noLoop : s.state = .noLoop

structure Tracks (before s : LoopGuard) : Prop where
  known : ∀ p q, s.state ≠ .ports p q
  pending : s.state ≠ .noLoop → s.timer = true
  control : ∀ q, s.control q = if s.state = .port q then listeningControl (before.control q) else before.control q
  vlanMap : ∀ q, s.vlanMap q = if s.state = .port q then listeningMap (before.vlanMap q) else before.vlanMap q

variable {before s : LoopGuard}

theorem Tracks.protects (start : before.Open) (tracks : Tracks before s) : Protects before s := by
  refine ⟨fun p => ?_, tracks.pending, fun none_known p => ?_⟩
  · unfold Listening
    rw [tracks.control p]
    split
    · rename_i named
      exact iff_of_true (listeningControl_low _) named
    · rename_i other
      refine iff_of_false (fun listening => ?_) other
      have forwarding : before.control p &&& 0x0003 = 0x0003 := start.forwarding p
      rw [forwarding] at listening
      exact absurd listening (by decide)
  · rw [tracks.control p, tracks.vlanMap p, none_known]
    exact ⟨if_neg nofun, if_neg nofun⟩

/-- The timer only frees ports whose map listening did not change. -/
def Restores (before s : LoopGuard) : LoopEvent → Prop
  | .expire => ∀ p, s.state = .port p → before.vlanMap p &&& 0x003F = 0x0020
  | .looped _ => True

theorem named_port (p : Fin 4) :
    (if (p.val : Int) = 0 then LoopDetect.port 0
      else if (p.val : Int) = 1 then .port 1
      else if (p.val : Int) = 2 then .port 2
      else if (p.val : Int) = 3 then .port 3
      else .noLoop) = .port p := by
  revert p
  decide

theorem loopDetected_port {s : LoopGuard} (free : s.state = .noLoop) (p : Fin 4) :
    loopDetected s p.val = { regs := portListeningState s.regs p.val, timer := true, state := .port p } := by
  have inside : ¬ ((p.val : Int) < 0 ∨ 3 < (p.val : Int)) := by omega
  unfold loopDetected
  rw [if_neg inside, free, ← named_port p]

/-- What a looped packet can do to the state. -/
theorem looped_cases (s : LoopGuard) (lookup : Option (BitVec 16)) :
    (s.state ≠ .noLoop ∧ s.step (.looped lookup) = { s with timer := true }) ∨
      (s.state = .noLoop ∧ s.step (.looped lookup) = s) ∨
      ∃ p : Fin 4, s.state = .noLoop ∧
        s.step (.looped lookup) = { regs := portListeningState s.regs p.val, timer := true, state := .port p } := by
  unfold step loopCheck
  cases state : s.state with
  | port p => exact .inl ⟨nofun, rfl⟩
  | ports p q => exact .inl ⟨nofun, rfl⟩
  | noLoop =>
    right
    cases lookup with
    | none => exact .inl ⟨rfl, rfl⟩
    | some atuDataReg =>
      dsimp only
      split
      · exact .inr ⟨0, rfl, loopDetected_port state 0⟩
      split
      · exact .inr ⟨1, rfl, loopDetected_port state 1⟩
      split
      · exact .inr ⟨2, rfl, loopDetected_port state 2⟩
      split
      · exact .inr ⟨3, rfl, loopDetected_port state 3⟩
      · exact .inl ⟨rfl, rfl⟩

/-- The timer frees the port that is named. -/
theorem expire_port {s : LoopGuard} {p : Fin 4} (named : s.state = .port p) (pending : s.timer = true) :
    s.step .expire = { regs := portForwardingState s.regs p.val, timer := false, state := .noLoop } := by
  unfold step loopDetectTimerExpired
  rw [if_pos pending]
  simp only [named]

theorem expire_free {s : LoopGuard} (free : s.state = .noLoop) :
    s.step .expire = { regs := s.regs, state := .noLoop, timer := false } ∨ s.step .expire = s := by
  unfold step
  by_cases pending : s.timer = true
  · left
    rw [if_pos pending]
    unfold loopDetectTimerExpired
    simp only [free]
  · right
    exact if_neg pending

/-- A port that was listening has its control register back, and its map without the force bit. -/
theorem expired_registers (tracks : Tracks before s) (start : before.Open) {p : Fin 4} (named : s.state = .port p) (q : Fin 4) :
    (s.step .expire).control q = before.control q ∧
      (s.step .expire).vlanMap q =
        if q = p then forwardingMap (listeningMap (before.vlanMap q)) else before.vlanMap q := by
  rw [expire_port named (tracks.pending (by rw [named]; exact nofun))]
  obtain ⟨control, vlanMap⟩ := forwards s.regs p q
  have control_then := tracks.control q
  have vlanMap_then := tracks.vlanMap q
  rw [named] at control_then vlanMap_then
  unfold LoopGuard.control at control_then ⊢
  unfold LoopGuard.vlanMap at vlanMap_then ⊢
  rw [control, vlanMap, control_then, vlanMap_then]
  by_cases same : q = p
  · subst same
    simp only [if_true]
    exact ⟨control_restored (start.forwarding q), trivial⟩
  · have other : LoopDetect.port p ≠ .port q := fun equal => same (LoopDetect.port.inj equal).symm
    simp only [if_neg same, if_neg other]
    exact ⟨trivial, trivial⟩

theorem tracks_step (start : before.Open) (s : LoopGuard) (e : LoopEvent) (tracks : Tracks before s)
    (restores : Restores before s e) : Tracks before (s.step e) := by
  cases e with
  | looped lookup =>
    obtain ⟨known, same⟩ | ⟨free, same⟩ | ⟨p, free, same⟩ := looped_cases s lookup
    · rw [same]
      exact { tracks with pending := fun _ => rfl }
    · rw [same]
      exact tracks
    · rw [same]
      have control := tracks.control
      have vlanMap := tracks.vlanMap
      rw [free] at control vlanMap
      simp only [reduceCtorEq, if_false] at control vlanMap
      refine ⟨nofun, fun _ => rfl, fun q => ?_, fun q => ?_⟩
      · refine (listens s.regs p q).1.trans ?_
        simp only [LoopDetect.port.injEq, ← control q, eq_comm (a := q)]
        rfl
      · refine (listens s.regs p q).2.trans ?_
        simp only [LoopDetect.port.injEq, ← vlanMap q, eq_comm (a := q)]
        rfl
  | expire =>
    cases state : s.state with
    | ports p q => exact absurd state (tracks.known p q)
    | noLoop =>
      have control := tracks.control
      have vlanMap := tracks.vlanMap
      rw [state] at control vlanMap
      obtain stopped | same := expire_free state
      · rw [stopped]
        exact ⟨nofun, fun some_loop => absurd rfl some_loop, control, vlanMap⟩
      · rw [same]
        exact tracks
    | port p =>
      have registers := expired_registers tracks start state
      have restorable := restores p state
      have off : (s.step .expire).state = .noLoop := by
        rw [expire_port state (tracks.pending (by rw [state]; exact nofun))]
      refine ⟨?_, fun some_loop => absurd off some_loop, fun q => ?_, fun q => ?_⟩
      · rw [off]
        exact nofun
      · rw [off, (registers q).1]
        rfl
      · rw [off, (registers q).2]
        by_cases same : q = p
        · subst same
          rw [if_pos rfl]
          exact (map_restored (start.unforced q)).mpr restorable
        · rw [if_neg same]
          rfl

/-- A map that listening changed stays changed when the port forwards again. -/
theorem expire_spoils (start : before.Open) (s : LoopGuard) (e : LoopEvent) (tracks : Tracks before s)
    (lost : ¬ Restores before s e) : ¬ Protects before (s.step e) := by
  cases e with
  | looped lookup => exact absurd trivial lost
  | expire =>
    intro protects
    refine lost fun p named => ?_
    have off : (s.step .expire).state = .noLoop := by
      rw [expire_port named (tracks.pending (by rw [named]; exact nofun))]
    have back := (protects.restored off p).2
    rw [(expired_registers tracks start named p).2, if_pos rfl] at back
    exact (map_restored (start.unforced p)).mp back

theorem tracks_start (start : before.Open) : Tracks before before := by
  refine ⟨fun p q => ?_, fun some_loop => absurd start.noLoop some_loop, fun q => ?_, fun q => ?_⟩
  · rw [start.noLoop]
    exact nofun
  · rw [start.noLoop]
    rfl
  · rw [start.noLoop]
    rfl

end LoopGuard

/-- The ports are protected and restored all along exactly in the runs whose expiries free only ports whose map had bit 5
set and the five bits below it clear. -/
theorem loop_protection_iff {before : LoopGuard} (start : before.Open) (events : List LoopEvent) :
    (∀ earlier later, events = earlier ++ later → before.Protects (exec LoopGuard.step before earlier)) ↔
      Guarded LoopGuard.step before.Restores before events :=
  always_iff_guarded (LoopGuard.tracks_step start) (fun _ => LoopGuard.Tracks.protects start)
    (LoopGuard.expire_spoils start) (LoopGuard.tracks_start start)

def openGuard (vlanMap : BitVec 16) : LoopGuard where
  regs := fun _ reg => if reg = 0x04 then 0x007F else vlanMap

theorem openGuard_open {vlanMap : BitVec 16} (unforced : vlanMap &&& 1#16 <<< 8 = 0) : (openGuard vlanMap).Open :=
  ⟨fun _ => show (0x007F : BitVec 16) &&& 0x0003 = 0x0003 by decide, fun _ => unforced, rfl⟩

theorem loop_protection_restores :
    (openGuard 0x0020).Open ∧
      ∀ earlier later, [LoopEvent.looped (some 0x0010), .looped none, .expire] = earlier ++ later →
        (openGuard 0x0020).Protects (exec LoopGuard.step (openGuard 0x0020) earlier) :=
  ⟨openGuard_open rfl, (loop_protection_iff (openGuard_open rfl) _).mpr 
    ⟨trivial, trivial, fun _ _ => show (0x0020 : BitVec 16) &&& 0x003F = 0x0020 by decide, trivial⟩⟩

/-- Port 0 reached the ports of the map 0x002F before the loop and only the processor after it. -/
theorem port_stays_cut_off :
    (openGuard 0x002F).Open ∧
      (exec LoopGuard.step (openGuard 0x002F) [.looped (some 0x0010), .expire]).state = .noLoop ∧
      (exec LoopGuard.step (openGuard 0x002F) [.looped (some 0x0010), .expire]).vlanMap 0 = 0x0020 ∧
      ¬ (openGuard 0x002F).Protects (exec LoopGuard.step (openGuard 0x002F) [.looped (some 0x0010), .expire]) := by
  have cut_off :
      (exec LoopGuard.step (openGuard 0x002F) [.looped (some 0x0010), .expire]).vlanMap 0 = 0x0020 := rfl
  refine ⟨openGuard_open rfl, rfl, cut_off, fun protects => ?_⟩
  have back := (protects.restored rfl 0).2
  rw [cut_off] at back
  exact absurd back (by decide)

end TwinpassGateway.Eth
