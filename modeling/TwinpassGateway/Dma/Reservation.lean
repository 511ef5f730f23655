import TwinpassGateway.Foundation.Run
import TwinpassGateway.Foundation.Word

/-!
The reservation of DMA devices by name. A device that has been handed out stays with whoever got it until it
is released.
-/

namespace TwinpassGateway.Dma

open Foundation

/-- `dma_devs`: a device is its index. `reserved` goes on behind the table, where `&dma_devs[MAX_DMA_DEVICE_NUM]` points. -/
structure DmaDevices where
  deviceName : List String
  reserved : Nat → U32

def globalDeviceName : List String := ["PPE", "DEU", "SPI", "SDIO", "MCTRL0", "MCTRL1"]

namespace DmaDevices

def setReserved (s : DmaDevices) (dev : Nat) (value : U32) : DmaDevices :=
  { s with reserved := Function.update s.reserved dev value }

@[simp] theorem setReserved_reserved (s : DmaDevices) (dev : Nat) (value : U32) :
    (s.setReserved dev value).reserved = Function.update s.reserved dev value := rfl

/-- The loop of `dma_device_reserve` from device `i` on, which has the names that are left. -/
def reserveFrom (s : DmaDevices) (devName : String) : List String → Nat → Option Nat × DmaDevices
  | [], i => (some i, s)
  | name :: rest, i =>
    if devName = name then
      if s.reserved i ≠ 0 then (none, s) else (some i, s.setReserved i 1)
    else s.reserveFrom devName rest (i + 1)

def dmaDeviceReserve (s : DmaDevices) (devName : String) : Option Nat × DmaDevices :=
  s.reserveFrom devName s.deviceName 0

def dmaDeviceRelease (s : DmaDevices) (dev : Nat) : DmaDevices := s.setReserved dev 0

variable {s : DmaDevices} {devName : String} {dev : Nat}

theorem reserveFrom_known {names : List String} (known : devName ∈ names) (i : Nat) :
    s.reserveFrom devName names i =
      if s.reserved (i + names.idxOf devName) ≠ 0 then (none, s)
      else (some (i + names.idxOf devName), s.setReserved (i + names.idxOf devName) 1) := by
  induction names generalizing i with
  | nil => cases known
  | cons name rest ih =>
    by_cases same : devName = name
    · subst same
      simp [reserveFrom]
    · have later := (List.mem_cons.mp known).resolve_left same
      rw [reserveFrom, if_neg same, ih later, List.idxOf_cons_ne rest (Ne.symm same), Nat.succ_eq_add_one,
        Nat.add_assoc, Nat.add_comm 1]

theorem reserveFrom_unknown {names : List String} (unknown : devName ∉ names) (i : Nat) :
    s.reserveFrom devName names i = (some (i + names.length), s) := by
  induction names generalizing i with
  | nil => rfl
  | cons name rest ih =>
    obtain ⟨other, later⟩ := not_or.mp (List.mem_cons.not.mp unknown)
    rw [reserveFrom, if_neg other, ih later, List.length_cons, Nat.add_assoc, Nat.add_comm 1]

theorem reserve_unknown (unknown : devName ∉ s.deviceName) :
    s.dmaDeviceReserve devName = (some s.deviceName.length, s) := by
  unfold dmaDeviceReserve
  rw [reserveFrom_unknown unknown, Nat.zero_add]

theorem reserve_known (known : devName ∈ s.deviceName) :
    s.reserved (s.deviceName.idxOf devName) ≠ 0 ∧ s.dmaDeviceReserve devName = (none, s) ∨
      s.reserved (s.deviceName.idxOf devName) = 0 ∧
        s.dmaDeviceReserve devName =
          (some (s.deviceName.idxOf devName), s.setReserved (s.deviceName.idxOf devName) 1) := by
  unfold dmaDeviceReserve
  rw [reserveFrom_known known, Nat.zero_add]
  by_cases free : s.reserved (s.deviceName.idxOf devName) = 0
  · exact Or.inr ⟨free, if_neg (not_not.mpr free)⟩
  · exact Or.inl ⟨free, if_pos free⟩

end DmaDevices

/-! ### Who has which device -/

/-- `taken` has the devices that were returned and that nobody has released since. -/
structure Reservations where
  devs : DmaDevices
  taken : List Nat

inductive ReservationEvent where
  | reserve (devName : String)
  | release (dev : Nat)

namespace Reservations

/-- All devices of the table are free; `behind` is the memory behind it. -/
def start (deviceName : List String) (behind : Nat → U32) : Reservations :=
  { devs := { deviceName, reserved := fun i => if i < deviceName.length then 0 else behind i }, taken := [] }

def step (s : Reservations) : ReservationEvent → Reservations
  | .reserve devName =>
    let (dev, devs) := s.devs.dmaDeviceReserve devName
    { devs, taken := dev.toList ++ s.taken }
  | .release dev => { devs := s.devs.dmaDeviceRelease dev, taken := s.taken.filter (· ≠ dev) }

structure Exact (s : Reservations) : Prop where
  reserved : ∀ dev < s.devs.deviceName.length, s.devs.reserved dev ≠ 0 ↔ dev ∈ s.taken

/-- What the call must do: a device is only returned if nobody has it, an unknown name gets `NULL` and changes nothing, and
a release frees the device and no other. -/
def Exclusive (s : Reservations) : ReservationEvent → Prop
  | .reserve devName =>
    (∀ dev, (s.devs.dmaDeviceReserve devName).1 = some dev → dev ∉ s.taken) ∧
      (devName ∉ s.devs.deviceName → s.devs.dmaDeviceReserve devName = (none, s.devs))
  | .release dev =>
    (s.devs.dmaDeviceRelease dev).reserved dev = 0 ∧
      ∀ other, other ≠ dev → (s.devs.dmaDeviceRelease dev).reserved other = s.devs.reserved other

def Known (s : Reservations) : ReservationEvent → Prop
  | .reserve devName => devName ∈ s.devs.deviceName
  | .release _ => True

variable {s : Reservations}

theorem step_deviceName (s : Reservations) (e : ReservationEvent) :
    (s.step e).devs.deviceName = s.devs.deviceName := by
  cases e with
  | release dev => rfl
  | reserve devName =>
    show (s.devs.dmaDeviceReserve devName).2.deviceName = s.devs.deviceName
    by_cases known : devName ∈ s.devs.deviceName
    · obtain ⟨_, same⟩ | ⟨_, same⟩ := DmaDevices.reserve_known known
      · rw [same]
      · rw [same]
        rfl
    · rw [DmaDevices.reserve_unknown known]

theorem exact_step (flags : s.Exact) (e : ReservationEvent) : (s.step e).Exact := by
  refine ⟨fun dev inside => ?_⟩
  rw [step_deviceName] at inside
  have before := flags.reserved dev inside
  cases e with
  | release freed =>
    show Function.update s.devs.reserved freed 0 dev ≠ 0 ↔ dev ∈ s.taken.filter (· ≠ freed)
    by_cases same : dev = freed
    · subst same
      simp
    · simpa [same] using before
  | reserve devName =>
    show (s.devs.dmaDeviceReserve devName).2.reserved dev ≠ 0 ↔
      dev ∈ (s.devs.dmaDeviceReserve devName).1.toList ++ s.taken
    by_cases known : devName ∈ s.devs.deviceName
    · obtain ⟨_, same⟩ | ⟨_, same⟩ := DmaDevices.reserve_known known
      · rw [same]
        exact before
      · rw [same]
        by_cases here : dev = s.devs.deviceName.idxOf devName
        · rw [← here]
          simp
        · simpa [here] using before
    · rw [DmaDevices.reserve_unknown known]
      simpa [inside.ne] using before

theorem exclusive_iff (flags : s.Exact) (e : ReservationEvent) : s.Exclusive e ↔ s.Known e := by
  cases e with
  | release dev =>
    refine iff_of_true ⟨Function.update_self .., fun other apart => ?_⟩ trivial
    exact Function.update_of_ne apart ..
  | reserve devName =>
    constructor
    · rintro ⟨_, rejected⟩
      by_contra unknown
      have answer := rejected unknown
      rw [DmaDevices.reserve_unknown unknown] at answer
      cases answer
    · intro known
      refine ⟨fun dev returned => ?_, fun unknown => absurd known unknown⟩
      obtain ⟨_, same⟩ | ⟨free, same⟩ := DmaDevices.reserve_known known
      · rw [same] at returned
        cases returned
      · rw [same] at returned
        obtain rfl := Option.some.inj returned
        intro held
        exact (flags.reserved _ (List.idxOf_lt_length_iff.mpr known)).mpr held free

end Reservations

/-! ### Runs -/

theorem exec_deviceName (s : Reservations) (events : List ReservationEvent) :
    (exec Reservations.step s events).devs.deviceName = s.devs.deviceName := by
  induction events generalizing s with
  | nil => rfl
  | cons e rest ih => exact (ih (s.step e)).trans (Reservations.step_deviceName s e)

theorem exact_exec {s : Reservations} (flags : s.Exact) (events : List ReservationEvent) :
    (exec Reservations.step s events).Exact := by
  induction events generalizing s with
  | nil => exact flags
  | cons e rest ih => exact ih (Reservations.exact_step flags e)

theorem start_flags (deviceName : List String) (behind : Nat → U32) : (Reservations.start deviceName behind).Exact := by
  refine ⟨fun dev inside => ?_⟩
  simp only [Reservations.start] at inside ⊢
  simp [inside]

theorem exclusive_exec_iff {s : Reservations} (flags : s.Exact) (before : List ReservationEvent) (e : ReservationEvent) :
    (exec Reservations.step s before).Exclusive e ↔ s.Known e := by
  refine (Reservations.exclusive_iff (exact_exec flags before) e).trans ?_
  cases e with
  | release dev => exact Iff.rfl
  | reserve devName =>
    unfold Reservations.Known
    rw [exec_deviceName]

/-- Every call of a run is as it should be exactly when only names of devices are reserved. -/
theorem reservation_exclusive_iff (deviceName : List String) (behind : Nat → U32) (events : List ReservationEvent) :
    (∀ before e after, events = before ++ e :: after →
      (exec Reservations.step (.start deviceName behind) before).Exclusive e) ↔
      ∀ devName, .reserve devName ∈ events → devName ∈ deviceName := by
  have flags := start_flags deviceName behind
  constructor
  · intro exclusive devName member
    obtain ⟨before, after, split⟩ := List.append_of_mem member
    exact (exclusive_exec_iff flags before (.reserve devName)).mp (exclusive before _ after split)
  · rintro known before e after rfl
    apply (exclusive_exec_iff flags before e).mpr
    cases e with
    | release dev => trivial
    | reserve devName => exact known devName (List.mem_append_right _ List.mem_cons_self)

/-- Two reservations of one unknown name get the same device, which is none. -/
theorem unknown_name_reserved_twice : ¬ ∀ before e after,
    [ReservationEvent.reserve "ETH", .reserve "ETH"] = before ++ e :: after →
      (exec Reservations.step (.start globalDeviceName fun _ => 0) before).Exclusive e := by
  intro exclusive
  exact (exclusive [.reserve "ETH"] (.reserve "ETH") [] rfl).1 6 (by decide) (by decide)

end TwinpassGateway.Dma
