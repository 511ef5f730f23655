import TwinpassGateway.Foundation.Run
import TwinpassGateway.Wireless.IoctlHandlers

/-!
The table of virtual access points that `vnet_ioctl` fills and the net devices that are registered: `IFCREATE` and
`IFDESTROY` of `mps0_wifi.c`.
-/

namespace TwinpassGateway.Wireless

open Foundation

/-- A net device, named by the number of its allocation. No call frees one. -/
structure Vaps where
  /-- `cpu0_device_tbl[..].dev`. -/
  tbl : Nat → Option Nat := fun _ => none
  /-- `cpu0_dev_num`. -/
  devNum : Nat := 0
  /-- The access points that `register_netdevice` has put on the kernel's list. -/
  registered : List Nat := []
  allocated : Nat := 0

def tableSize : Nat := 4

inductive VapCall where
  | create (o : Outcomes) (allocNetdev registerNetdevice : Bool)
  | destroy (o : Outcomes)

/-- `vnet_ioctl` for `SIOC80211IFCREATE`. -/
def ifcreate (s : Vaps) (o : Outcomes) (allocNetdev registerNetdevice : Bool) : Int × Vaps :=
  if o.ioreq = false then (-enomem, s)
  else if 4 ≤ s.devNum then (-efault, s)
  else if o.data = false then (-enomem, s)
  else if o.copyFromUser = false then (-efault, s)
  else if allocNetdev = false then (-enodev, s)
  else
    let vapDev := s.allocated
    let s := { s with
      tbl := Function.update s.tbl s.devNum (some vapDev), devNum := s.devNum + 1, allocated := s.allocated + 1 }
    if registerNetdevice = false then (-enodev, s)
    else (o.ioctlSend, { s with registered := s.registered ++ [vapDev] })

/-- `vnet_ieee80211_ioctl` for `SIOC80211IFDESTROY`: only the other CPU is told. -/
def ifdestroy (s : Vaps) (o : Outcomes) : Int × Vaps :=
  if o.ioreq = false then (-enomem, s) else (o.ioctlSend, s)

def Vaps.call (s : Vaps) : VapCall → Int × Vaps
  | .create o allocNetdev registerNetdevice => ifcreate s o allocNetdev registerNetdevice
  | .destroy o => ifdestroy s o

def Vaps.step (s : Vaps) (c : VapCall) : Vaps := (s.call c).2

theorem vnetIoctl_ifcreate (device : Device) (o : Outcomes) :
    (vnetIoctl sioc80211ifcreate device o).ret =
      if o.ioreq = false then -enomem
      else if 4 ≤ device.devNum then -efault
      else (vnetIoctlData o (vnetIoctlCreated device o)).ret := by
  unfold vnetIoctl
  split
  · rfl
  · show (if 4 ≤ device.devNum then _ else _ : Handled Buffer).ret = _
    split <;> rfl

/-- The two requests are cases of the handlers. -/
theorem ifcreate_ret (s : Vaps) (o : Outcomes) (device : Device) :
    (ifcreate s o device.allocNetdev device.registerNetdevice).1 =
      (vnetIoctl sioc80211ifcreate { device with devNum := s.devNum } o).ret := by
  have full : (4 : Int) ≤ (s.devNum : Int) ↔ 4 ≤ s.devNum := Int.ofNat_le
  rw [vnetIoctl_ifcreate]
  unfold ifcreate vnetIoctlData vnetIoctlCreated
  dsimp only [doing]
  simp only [full]
  split
  · rfl
  · split
    · rfl
    · split
      · rfl
      · split
        · rfl
        · split
          · rfl
          · split <;> rfl

theorem ifdestroy_ret (s : Vaps) (beyond : Int → IwIoctlDescription) (ifr : Ifreq) (device : Device)
    (o callee : Outcomes) :
    (ifdestroy s o).1 = (vnetIeee80211Ioctl beyond ifr sioc80211ifdestroy device o callee).ret := by
  have here : ieee80211Case sioc80211ifdestroy = .destroy := by decide
  unfold ifdestroy vnetIeee80211Ioctl
  rw [here]
  split <;> rfl

/-! ### The table and the registry -/

def Vaps.entries (s : Vaps) : List (Option Nat) := (List.range s.devNum).map s.tbl

/-- The entries in use are the registered devices, each once, and they fit in the table. -/
structure Vaps.Sound (s : Vaps) : Prop where
  entries : s.entries.Nodup ∧ ∀ d, d ∈ s.entries ↔ ∃ dev ∈ s.registered, d = some dev
  size : s.devNum ≤ tableSize

/-- The call leads to a sound state, and a create that fails changes neither the table nor the count. -/
def Vaps.Keeps (s : Vaps) (c : VapCall) : Prop :=
  (s.step c).Sound ∧
    ∀ o allocNetdev registerNetdevice, c = .create o allocNetdev registerNetdevice → (s.call c).1 < 0 →
      (s.step c).tbl = s.tbl ∧ (s.step c).devNum = s.devNum

/-- A create that gets as far as a net device gets it registered, and the other CPU did not refuse. -/
def Vaps.Clean (s : Vaps) : VapCall → Prop
  | .create o allocNetdev registerNetdevice =>
    o.ioreq = true → s.devNum < tableSize → o.data = true → o.copyFromUser = true → allocNetdev = true →
      registerNetdevice = true ∧ 0 ≤ o.ioctlSend
  | .destroy _ => True

/-! ### One call -/

structure Vaps.Numbered (s : Vaps) : Prop where
  sound : s.Sound
  fresh : ∀ dev ∈ s.registered, dev < s.allocated

theorem start_numbered : Vaps.Numbered {} :=
  ⟨⟨⟨List.nodup_nil, fun _ => by simp [Vaps.entries]⟩, Nat.zero_le _⟩, nofun⟩

theorem entries_append (s : Vaps) (d : Nat) :
    ({ s with tbl := Function.update s.tbl s.devNum (some d), devNum := s.devNum + 1 } : Vaps).entries =
      s.entries ++ [some d] := by
  have before : (List.range s.devNum).map (Function.update s.tbl s.devNum (some d)) = s.entries := by
    apply List.map_congr_left
    intro i member
    have below := List.mem_range.mp member
    exact Function.update_of_ne (by omega) _ _
  rw [Vaps.entries, List.range_succ, List.map_append, before]
  simp

theorem ifcreate_cases (s : Vaps) (o : Outcomes) (allocNetdev registerNetdevice : Bool) :
    ((ifcreate s o allocNetdev registerNetdevice).2 = s ∧ s.Clean (.create o allocNetdev registerNetdevice)) ∨
      (s.devNum < tableSize ∧
        (s.Clean (.create o allocNetdev registerNetdevice) ↔ registerNetdevice = true ∧ 0 ≤ o.ioctlSend) ∧
        ifcreate s o allocNetdev registerNetdevice =
          (if registerNetdevice then o.ioctlSend else -enodev,
            { s with
              tbl := Function.update s.tbl s.devNum (some s.allocated), devNum := s.devNum + 1
              allocated := s.allocated + 1
              registered := if registerNetdevice then s.registered ++ [s.allocated] else s.registered })) := by
  unfold ifcreate Vaps.Clean tableSize
  dsimp only
  cases o.ioreq with
  | false => exact Or.inl ⟨rfl, nofun⟩
  | true =>
    by_cases full : 4 ≤ s.devNum
    · exact Or.inl ⟨by simp [full], fun _ room => absurd room (by omega)⟩
    · cases o.data with
      | false => exact Or.inl ⟨by simp [full], fun _ _ => nofun⟩
      | true =>
        cases o.copyFromUser with
        | false => exact Or.inl ⟨by simp [full], fun _ _ _ => nofun⟩
        | true =>
          cases allocNetdev with
          | false => exact Or.inl ⟨by simp [full], fun _ _ _ _ => nofun⟩
          | true =>
            refine Or.inr ⟨by omega, ?_, ?_⟩
            · exact ⟨fun clean => clean rfl (by omega) rfl rfl rfl, fun good _ _ _ _ _ => good⟩
            · cases registerNetdevice <;> simp [full]

def Vaps.added (s : Vaps) : Vaps :=
  { s with
    tbl := Function.update s.tbl s.devNum (some s.allocated), devNum := s.devNum + 1
    allocated := s.allocated + 1
    registered := s.registered ++ [s.allocated] }

theorem added_numbered {s : Vaps} (numbered : s.Numbered) (room : s.devNum < tableSize) : s.added.Numbered := by
  have grown : s.added.entries = s.entries ++ [some s.allocated] := entries_append s s.allocated
  have fresh : some s.allocated ∉ s.entries := by
    intro member
    obtain ⟨dev, known, same⟩ := (numbered.sound.entries.2 _).mp member
    have below := numbered.fresh dev known
    have := Option.some.inj same
    omega
  refine ⟨⟨⟨?_, fun d => ?_⟩, room⟩, fun dev member => ?_⟩
  · rw [grown]
    exact List.nodup_append.mpr ⟨numbered.sound.entries.1, List.nodup_singleton _, fun a old b new => by
      rw [List.mem_singleton.mp new]
      rintro rfl
      exact fresh old⟩
  · rw [grown, List.mem_append, numbered.sound.entries.2]
    simp [Vaps.added, or_and_right, exists_or]
  · have cases := List.mem_append.mp member
    simp only [List.mem_singleton] at cases
    obtain old | new := cases
    · exact Nat.lt_succ_of_lt (numbered.fresh dev old)
    · rw [new]
      exact Nat.lt_succ_self _

theorem create_keeps_iff {s : Vaps} (numbered : s.Numbered) (o : Outcomes) (allocNetdev registerNetdevice : Bool) :
    s.Keeps (.create o allocNetdev registerNetdevice) ↔ s.Clean (.create o allocNetdev registerNetdevice) := by
  obtain ⟨same, clean⟩ | ⟨room, clean, made⟩ := ifcreate_cases s o allocNetdev registerNetdevice
  · refine iff_of_true ⟨?_, ?_⟩ clean
    · simpa only [Vaps.step, Vaps.call, same] using numbered.sound
    · intro _ _ _ _ _
      simp only [Vaps.step, Vaps.call, same, and_self]
  · rw [clean]
    unfold Vaps.Keeps
    simp only [Vaps.step, Vaps.call, made]
    cases registerNetdevice with
    | false =>
      -- the device stays in the table without being registered
      refine iff_of_false (fun keeps => ?_) (by simp)
      have member : some s.allocated ∈ s.entries ++ [some s.allocated] := by simp
      rw [← entries_append] at member
      obtain ⟨dev, known, same⟩ := (keeps.1.entries.2 _).mp member
      have below := numbered.fresh dev known
      have := Option.some.inj same
      omega
    | true =>
      refine ⟨fun keeps => ⟨rfl, ?_⟩, fun good => ⟨(added_numbered numbered room).sound, ?_⟩⟩
      · by_contra negative
        have unchanged := (keeps.2 o allocNetdev true rfl (by simpa using negative)).2
        simp at unchanged
      · intro _ _ _ _ failed
        exact absurd good.2 (by simpa using failed)

theorem step_destroy (s : Vaps) (o : Outcomes) : s.step (.destroy o) = s := by
  show (ifdestroy s o).2 = s
  unfold ifdestroy
  split <;> rfl

theorem keeps_iff {s : Vaps} (numbered : s.Numbered) (c : VapCall) : s.Keeps c ↔ s.Clean c := by
  cases c with
  | create o allocNetdev registerNetdevice => exact create_keeps_iff numbered o allocNetdev registerNetdevice
  | destroy o =>
    refine iff_of_true ⟨?_, nofun⟩ trivial
    rw [step_destroy]
    exact numbered.sound

theorem step_numbered {s : Vaps} (numbered : s.Numbered) {c : VapCall} (keeps : s.Keeps c) :
    (s.step c).Numbered := by
  refine ⟨keeps.1, ?_⟩
  cases c with
  | create o allocNetdev registerNetdevice =>
    obtain ⟨same, _⟩ | ⟨room, _, made⟩ := ifcreate_cases s o allocNetdev registerNetdevice
    · simpa only [Vaps.step, Vaps.call, same] using numbered.fresh
    · simp only [Vaps.step, Vaps.call, made]
      cases registerNetdevice with
      | false => exact fun dev member => Nat.lt_succ_of_lt (numbered.fresh dev member)
      | true => exact (added_numbered numbered room).fresh
  | destroy o =>
    rw [step_destroy]
    exact numbered.fresh

/-! ### Runs -/

/-- The table holds exactly the registered devices after every call of a run, and no failed create changes it,
exactly when every create that allocates a net device registers it and is not refused by the other CPU. -/
theorem vap_table_kept_iff (calls : List VapCall) :
    (∀ before c after, calls = before ++ c :: after → (exec Vaps.step {} before).Keeps c) ↔
      Guarded Vaps.step Vaps.Clean {} calls := by
  rw [← guarded_iff]
  have agree (s : Vaps) (c : VapCall) (numbered : s.Numbered) : s.Keeps c ↔ s.Clean c := keeps_iff numbered c
  exact guarded_congr agree (fun _ _ numbered keeps => step_numbered numbered keeps) start_numbered

/-- A create whose device cannot be registered, as when its name is in use. -/
theorem unregistered_kept_in_table :
    ¬ ∀ before c after, [VapCall.create ⟨true, true, true, true, 0, 0⟩ true false] = before ++ c :: after →
      (exec Vaps.step {} before).Keeps c := by
  intro keeps
  obtain ⟨dev, known, _⟩ := ((keeps [] _ [] rfl).1.entries.2 (some 0)).mp (by decide)
  exact absurd known List.not_mem_nil

end TwinpassGateway.Wireless
